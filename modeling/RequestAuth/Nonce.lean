import RequestAuth.ChaCha20.Generator
import RequestAuth.Hex

namespace RequestAuth

namespace Nonce

/-- A random part and the number of the draw, in hex. -/
def compose (random : Bytes) (number : Nat) : String :=
  Hex.encode (random ++ Bytes.ofNat 8 number)

def randomLength : Nat := 24

end Nonce

/-- What a source from outside does for one text. Before it gives one it may draw from sources at
other places or from the system's, which has none. -/
inductive NonceSource.Plan
  | give (text : String)
  | ask (place : Option Nat) (next : String → Plan)

/-- A source of nonces other than the system's, with how many it has handed out. One from outside
may heed that and all the texts that it has drawn from others. -/
inductive NonceSource
  | seeded (seed : ChaCha20.Key) (drawn : Nat)
  | custom (plan : Nat → List String → NonceSource.Plan) (drawn : Nat) (heard : List String)

namespace NonceSource

def generator (seed : ChaCha20.Key) : Nat → ChaCha20.Generator
  | 0 => .ofSeed seed
  | drawn + 1 => ((generator seed drawn).fill Nonce.randomLength).2

def seededPart (seed : ChaCha20.Key) (i : Nat) : Bytes :=
  ((generator seed i).fill Nonce.randomLength).1

@[simp] theorem length_seededPart (seed : ChaCha20.Key) (i : Nat) :
    (seededPart seed i).length = Nonce.randomLength :=
  ChaCha20.Generator.length_fill _ _

def drawn : NonceSource → Nat
  | seeded _ drawn | custom _ drawn _ => drawn

def advance : NonceSource → NonceSource
  | seeded seed drawn => seeded seed (drawn + 1)
  | custom plan drawn heard => custom plan (drawn + 1) heard

def hear (text : String) : NonceSource → NonceSource
  | seeded seed drawn => seeded seed drawn
  | custom plan drawn heard => custom plan drawn (heard ++ [text])

def cycle (texts : List String) : NonceSource :=
  custom (fun i _ ↦ .give (texts.getD (i % texts.length) "")) 0 []

end NonceSource

end RequestAuth
