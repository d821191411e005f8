import RequestAuth.Sha256
import RequestAuth.Secp256k1.Key

namespace RequestAuth.Secp256k1

structure Signature where
  r : Scalar
  s : Scalar
  deriving DecidableEq

namespace Signature

def toBytes (sig : Signature) : Bytes := sig.r.toBytes ++ sig.s.toBytes

@[simp] theorem length_toBytes (sig : Signature) : sig.toBytes.length = 64 := by
  simp [toBytes]

def ofBytes? (bytes : Bytes) : Option Signature :=
  if bytes.length = 64 then do
    let r ← Scalar.ofBytes? (bytes.take 32)
    let s ← Scalar.ofBytes? (bytes.drop 32)
    return ⟨r, s⟩
  else none

def IsLow (sig : Signature) : Prop := sig.s.val ≤ (order - 1) / 2

instance (sig : Signature) : Decidable sig.IsLow :=
  inferInstanceAs (Decidable (sig.s.val ≤ (order - 1) / 2))

def negate (sig : Signature) : Signature :=
  ⟨sig.r, order - sig.s.val, Nat.sub_pos_of_lt sig.s.lt, Nat.sub_lt (by decide) sig.s.pos⟩

def normalize (sig : Signature) : Signature := if sig.IsLow then sig else sig.negate

theorem normalize_isLow (sig : Signature) : sig.normalize.IsLow := by
  unfold normalize
  split
  · assumption
  · next h =>
    simp only [IsLow, negate] at h ⊢
    simp only [order] at h ⊢
    omega

theorem normalize_of_isLow {sig : Signature} (h : sig.IsLow) : sig.normalize = sig := if_pos h

end Signature

/-- A digest as the 32 bytes that signing works on: zeros come before a short one and a long one is
cut. One under half of the width is refused. -/
def fieldBytes? (digest : Bytes) : Option Bytes :=
  if digest.length < 16 then none else some (Bytes.padLeft 32 (digest.take 32))

structure Generator where
  key : Bytes
  value : Bytes

namespace Generator

def stir (g : Generator) (material : Bytes) : Generator :=
  let key := Sha256.keyed g.key (g.value ++ material)
  ⟨key, Sha256.keyed key g.value⟩

def start (secret : Scalar) (field : Bytes) : Generator :=
  let seed := secret.toBytes ++ field
  ((⟨List.replicate 32 0, List.replicate 32 1⟩ : Generator).stir (0 :: seed)).stir (1 :: seed)

def scalar? : Nat → Generator → Option Scalar
  | 0, _ => none
  | n + 1, g =>
    let output := Sha256.keyed g.key g.value
    match Scalar.ofBytes? output with
    | some k => some k
    | none => scalar? n ((⟨g.key, output⟩ : Generator).stir [0])

end Generator

/-- An output is no scalar about once in `2 ^ 128` times. -/
def attempts : Nat := 64

def signWith (k secret : Scalar) (z : Nat) : Option Signature := do
  let r ← Scalar.ofNat? (k.publicKey.x.val % order)
  let s ← Scalar.ofNat? (ModularInverse.inverse order k.val * (z + r.val * secret.val) % order)
  return ⟨r, s⟩

def sign (secret : Scalar) (digest : Bytes) : Option Signature := do
  let field ← fieldBytes? digest
  let k ← (Generator.start secret field).scalar? attempts
  let sig ← signWith k secret (Bytes.toNat field)
  return sig.normalize

theorem normalize_of_sign {secret : Scalar} {digest : Bytes} {sig : Signature}
    (h : sign secret digest = some sig) : sig.normalize = sig := by
  obtain ⟨field, -, h⟩ := Option.bind_eq_some_iff.1 h
  obtain ⟨k, -, h⟩ := Option.bind_eq_some_iff.1 h
  obtain ⟨first, -, h⟩ := Option.bind_eq_some_iff.1 h
  obtain rfl := Option.some.inj h
  exact Signature.normalize_of_isLow first.normalize_isLow

/-- The equation that ties a signature of `z` to a key. -/
def Accepts (q : PublicKey) (z : Nat) (sig : Signature) : Prop :=
  let w := ModularInverse.inverse order sig.s.val
  match Point.add (Point.multiple (z * w % order) Point.generator)
      (Point.multiple (sig.r.val * w % order) q.toPoint) with
  | .infinity => False
  | .affine x _ => x.val % order = sig.r.val

instance (q : PublicKey) (z : Nat) (sig : Signature) : Decidable (Accepts q z sig) := by
  unfold Accepts
  dsimp only
  split <;> infer_instance

def verify (q : PublicKey) (digest : Bytes) (sig : Signature) : Bool :=
  match fieldBytes? digest with
  | none => false
  | some field => decide (sig.IsLow ∧ Accepts q (Bytes.toNat field) sig)

end RequestAuth.Secp256k1
