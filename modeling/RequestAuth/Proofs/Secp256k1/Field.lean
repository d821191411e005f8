import Mathlib.Data.ZMod.Basic
import RequestAuth.Proofs.Secp256k1.Inverse
import RequestAuth.Proofs.Secp256k1.Primality

namespace RequestAuth.Secp256k1.Coordinate

def ofField (a : ZMod p) : Coordinate := ⟨a.val, a.val_lt⟩

theorem val_ofField (a : ZMod p) : (ofField a).val = a.val := rfl

theorem ofField_cast_val (x : Coordinate) : ofField (x.val : ZMod p) = x :=
  Fin.ext (ZMod.val_cast_of_lt x.isLt)

theorem ofField_injective : Function.Injective ofField :=
  fun _ _ h ↦ ZMod.val_injective p (congrArg Fin.val h)

theorem ofField_eq_iff {a b : ZMod p} : ofField a = ofField b ↔ a = b := ofField_injective.eq_iff

theorem ofField_natCast (n : ℕ) : ofField (n : ZMod p) = Fin.ofNat p n :=
  Fin.ext (ZMod.val_natCast p n)

theorem ofField_zero : ofField 0 = 0 := ofField_natCast 0

theorem ofField_two : ofField 2 = 2 := ofField_natCast 2

theorem ofField_three : ofField 3 = 3 := ofField_natCast 3

theorem ofField_seven : ofField 7 = 7 := ofField_natCast 7

theorem ofField_add (a b : ZMod p) : ofField (a + b) = ofField a + ofField b :=
  Fin.ext (ZMod.val_add a b)

theorem ofField_mul (a b : ZMod p) : ofField (a * b) = ofField a * ofField b :=
  Fin.ext (ZMod.val_mul a b)

theorem ofField_neg (a : ZMod p) : ofField (-a) = -ofField a := by
  apply Fin.ext
  rw [val_ofField, ZMod.neg_val']
  rfl

theorem ofField_sub (a b : ZMod p) : ofField (a - b) = ofField a - ofField b := by
  rw [sub_eq_add_neg, ofField_add, ofField_neg]
  exact (Fin.sub_eq_add_neg _ _).symm

theorem ofField_inv (a : ZMod p) : ofField a⁻¹ = inverse (ofField a) := by
  rw [inverse, val_ofField, ← ofField_natCast, ModularInverse.cast_inverse, ZMod.natCast_zmod_val]

end RequestAuth.Secp256k1.Coordinate
