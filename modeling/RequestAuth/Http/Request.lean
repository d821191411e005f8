import RequestAuth.Bytes
import RequestAuth.Http.Method
import RequestAuth.Http.Uri

namespace RequestAuth.Http

structure HeaderName where
  lower : String
  deriving DecidableEq

def HeaderName.ofText (text : String) : HeaderName := ⟨text.map Char.toLower⟩

def isValueChar (c : Char) : Bool := c = '\t' || (32 ≤ c.toNat && c.toNat ≠ 127)

def IsValue (text : String) : Prop := text.toList.all isValueChar

instance (text : String) : Decidable (IsValue text) :=
  inferInstanceAs (Decidable (text.toList.all isValueChar))

/-- A request's headers. A name may have several values, whose order counts. -/
structure Headers where
  entries : List (HeaderName × String)
  deriving DecidableEq

namespace Headers

def empty : Headers := ⟨[]⟩

def values (headers : Headers) (name : HeaderName) : List String :=
  (headers.entries.filter (fun entry ↦ entry.1 = name)).map Prod.snd

def remove (headers : Headers) (name : HeaderName) : Headers :=
  ⟨headers.entries.filter (fun entry ↦ entry.1 ≠ name)⟩

theorem values_remove (headers : Headers) (name name' : HeaderName) :
    (headers.remove name).values name' = if name = name' then [] else headers.values name' := by
  by_cases h : name = name'
  · subst h
    simp [remove, values]
  · simp only [remove, values, if_neg h, List.filter_filter]
    congr 1
    apply List.filter_congr
    intro entry _
    by_cases he : entry.1 = name' <;> simp [he, Ne.symm h]

end Headers

structure Request where
  method : Method
  uri : Uri
  headers : Headers
  body : Bytes

namespace Request

def blank : Request := ⟨.get, .root, .empty, []⟩

end Request

end RequestAuth.Http
