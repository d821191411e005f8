namespace RequestAuth.Http

def isTokenChar (c : Char) : Bool := c.isAlphanum || "!#$%&'*+-.^_`|~".toList.contains c

def IsToken (text : String) : Prop := text.toList ≠ [] ∧ text.toList.all isTokenChar

instance (text : String) : Decidable (IsToken text) :=
  inferInstanceAs (Decidable (text.toList ≠ [] ∧ text.toList.all isTokenChar))

structure Method where
  text : String
  isToken : IsToken text
  deriving DecidableEq

namespace Method

def ofText? (text : String) : Option Method :=
  if h : IsToken text then some ⟨text, h⟩ else none

def get : Method := ⟨"GET", by decide +kernel⟩

def post : Method := ⟨"POST", by decide +kernel⟩

def bodiless : List String := ["GET", "HEAD", "OPTIONS", "TRACE"]

def CarriesBody (method : Method) : Prop := method.text ∉ bodiless

instance (method : Method) : Decidable method.CarriesBody :=
  inferInstanceAs (Decidable (method.text ∉ bodiless))

/-- The part of a body that counts under a method. -/
def effectiveBody {α : Type} (method : Method) (body : List α) : List α :=
  if method.CarriesBody then body else []

def complaint : String := "invalid HTTP method"

end Method

end RequestAuth.Http
