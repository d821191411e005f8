import RequestAuth.Bytes
import RequestAuth.Secp256k1.Curve

namespace RequestAuth.Secp256k1

/-- A secret or a half of a signature: a number from one up to the curve's order. -/
structure Scalar where
  val : Nat
  pos : 0 < val
  lt : val < order
  deriving DecidableEq

namespace Scalar

@[ext] theorem ext {a b : Scalar} (h : a.val = b.val) : a = b := by
  cases a
  cases b
  cases h
  rfl

def ofNat? (n : Nat) : Option Scalar :=
  if h : 0 < n ∧ n < order then some ⟨n, h.1, h.2⟩ else none

theorem ofNat?_val (k : Scalar) : ofNat? k.val = some k := by
  simp [ofNat?, k.pos, k.lt]

theorem val_of_ofNat? {n : Nat} {k : Scalar} (h : ofNat? n = some k) : k.val = n := by
  unfold ofNat? at h
  split at h
  · cases h
    rfl
  · cases h

def toBytes (k : Scalar) : Bytes := Bytes.ofNat 32 k.val

def ofBytes? (bytes : Bytes) : Option Scalar := ofNat? (Bytes.toNat bytes)

@[simp] theorem length_toBytes (k : Scalar) : k.toBytes.length = 32 := Bytes.length_ofNat 32 k.val

end Scalar

structure PublicKey where
  x : Coordinate
  y : Coordinate
  deriving DecidableEq

namespace PublicKey

def toPoint (q : PublicKey) : Point := .affine q.x q.y

/-- The first byte tells whether `y` is odd; the others write `x`. -/
def compressed (q : PublicKey) : Block 33 :=
  ⟨(if q.y.val % 2 = 0 then 2 else 3) :: Bytes.ofNat 32 q.x.val, by simp⟩

def lift? (x : Coordinate) (odd : Bool) : Option PublicKey :=
  let y := Fin.ofNat p (ModularInverse.power p (cubic x).val ((p + 1) / 4))
  if y * y = cubic x then
    some ⟨x, if (y.val % 2 = 1) = odd then y else -y⟩
  else none

/-- Reads 33 bytes with tag 2 or 3, or with tag 5, which leaves the parity out and means an even
`y`. -/
def ofCompressed? (bytes : Bytes) : Option PublicKey :=
  match bytes with
  | tag :: rest =>
    if tag = 2 ∨ tag = 3 ∨ tag = 5 then
      if h : rest.length = 32 ∧ Bytes.toNat rest < p then
        lift? ⟨Bytes.toNat rest, h.2⟩ (tag == 3)
      else none
    else none
  | [] => none

end PublicKey

namespace Scalar

/-- The scalar's multiple of the generator. It is never infinity, since the order is prime. -/
def publicKey (k : Scalar) : PublicKey :=
  match Point.multiple k.val Point.generator with
  | .affine x y => ⟨x, y⟩
  | .infinity => ⟨0, 0⟩

end Scalar

structure KeyPair where
  secret : Scalar
  publicKey : PublicKey
  publicKey_eq : publicKey = secret.publicKey

namespace KeyPair

def ofScalar (k : Scalar) : KeyPair := ⟨k, k.publicKey, rfl⟩

@[ext] theorem ext {a b : KeyPair} (h : a.secret = b.secret) : a = b := by
  obtain ⟨k, q, hq⟩ := a
  obtain ⟨k', q', hq'⟩ := b
  cases h
  cases hq
  cases hq'
  rfl

@[simp] theorem ofScalar_secret (pair : KeyPair) : ofScalar pair.secret = pair := ext rfl

end KeyPair

end RequestAuth.Secp256k1
