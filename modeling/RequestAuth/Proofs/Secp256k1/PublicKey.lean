import Mathlib.FieldTheory.Finite.Basic
import RequestAuth.Proofs.Positional
import RequestAuth.Proofs.Secp256k1.Group
import RequestAuth.Secp256k1.Key

namespace RequestAuth.Secp256k1

open Coordinate

theorem pow_sqrt (a : ZMod p) :
    (a * a) ^ ((p + 1) / 4) = a ∨ (a * a) ^ ((p + 1) / 4) = -a := by
  apply sq_eq_sq_iff_eq_or_eq_neg.1
  rw [← pow_two, ← pow_mul, ← pow_mul, show 2 * ((p + 1) / 4 * 2) = p + 1 by decide, pow_succ,
    ZMod.pow_card, pow_two]

theorem ofNat_power_ofField (a : ZMod p) (e : ℕ) :
    Fin.ofNat p (ModularInverse.power p (ofField a).val e) = ofField (a ^ e) := by
  rw [← ofField_natCast, ModularInverse.power_eq, Nat.pow_eq, ZMod.natCast_mod, Nat.cast_pow,
    val_ofField, ZMod.natCast_zmod_val]

theorem val_neg_mod_two {a : ZMod p} (ha : a ≠ 0) : (-a).val % 2 = 1 ↔ ¬ a.val % 2 = 1 := by
  have hp : p % 2 = 1 := by decide
  have hlt := a.val_lt
  rw [ZMod.neg_val, if_neg ha]
  omega

theorem pick_by_parity {a r : ZMod p} (h : r = a ∨ r = -a) :
    (if ((ofField r).val % 2 = 1) = (decide ((ofField a).val % 2 = 1) = true) then ofField r
      else -ofField r) = ofField a := by
  have hself : (if ((ofField a).val % 2 = 1) = (decide ((ofField a).val % 2 = 1) = true)
      then ofField a else -ofField a) = ofField a := if_pos (by simp)
  rcases h with rfl | rfl
  · exact hself
  · by_cases ha : a = 0
    · rw [ha, neg_zero, ← ha]
      exact hself
    · rw [if_neg, ← ofField_neg, neg_neg]
      rw [decide_eq_true_eq, eq_iff_iff, val_ofField, val_ofField, val_neg_mod_two ha]
      exact not_iff_self

namespace PublicKey

theorem lift?_of_onCurve {q : PublicKey} (h : q.toPoint.OnCurve) :
    lift? q.x (q.y.val % 2 = 1) = some q := by
  obtain ⟨x, y⟩ := q
  have hc : y * y = cubic x := h
  rw [← ofField_cast_val y, ← ofField_mul] at hc
  rw [← ofField_cast_val y]
  generalize (y.val : ZMod p) = a at hc ⊢
  have hr := pow_sqrt a
  have hsq : (a * a) ^ ((p + 1) / 4) * (a * a) ^ ((p + 1) / 4) = a * a := by
    rcases hr with hr | hr
    · rw [hr]
    · rw [hr, neg_mul_neg]
  simp only [lift?, ← hc, ofNat_power_ofField, ← ofField_mul, hsq, if_true,
    pick_by_parity hr]

theorem ofCompressed?_cons {tag : UInt8} (htag : tag = 2 ∨ tag = 3 ∨ tag = 5) (x : Coordinate) :
    ofCompressed? (tag :: Bytes.ofNat 32 x.val) = lift? x (tag == 3) := by
  have hx : Bytes.toNat (Bytes.ofNat 32 x.val) = x.val :=
    Bytes.toNat_ofNat_of_lt (x.isLt.trans (by decide))
  have hrest : (Bytes.ofNat 32 x.val).length = 32 ∧ Bytes.toNat (Bytes.ofNat 32 x.val) < p :=
    ⟨Bytes.length_ofNat _ _, hx.trans_lt x.isLt⟩
  have hfin : (⟨Bytes.toNat (Bytes.ofNat 32 x.val), hrest.2⟩ : Coordinate) = x := Fin.ext hx
  rw [ofCompressed?, if_pos htag, dif_pos hrest, hfin]

theorem ofCompressed?_compressed {q : PublicKey} (h : q.toPoint.OnCurve) :
    ofCompressed? q.compressed.toBytes = some q := by
  have hl := lift?_of_onCurve h
  simp only [compressed, Block.toBytes]
  rcases Nat.mod_two_eq_zero_or_one q.y.val with hy | hy
  · rw [if_pos hy, ofCompressed?_cons (.inl rfl)]
    simpa [hy] using hl
  · rw [if_neg (by omega), ofCompressed?_cons (.inr (.inl rfl))]
    simpa [hy] using hl

end PublicKey

namespace Scalar

theorem ofNat?_eq_some_iff {n : ℕ} {k : Scalar} : ofNat? n = some k ↔ k.val = n := by
  refine ⟨val_of_ofNat?, ?_⟩
  rintro rfl
  exact ofNat?_val k

theorem toNat_toBytes (k : Scalar) : Bytes.toNat k.toBytes = k.val :=
  Bytes.toNat_ofNat_of_lt (k.lt.trans (by decide))

theorem ofBytes?_eq_some_iff {bytes : Bytes} {k : Scalar} (h : bytes.length = 32) :
    ofBytes? bytes = some k ↔ bytes = k.toBytes := by
  rw [ofBytes?, ofNat?_eq_some_iff]
  constructor
  · intro hk
    rw [toBytes, hk, ← h, Bytes.ofNat_toNat]
  · rintro rfl
    exact k.toNat_toBytes.symm

theorem nsmul_groupGenerator_ne_zero (k : Scalar) : k.val • groupGenerator ≠ 0 := by
  intro h
  have hd := addOrderOf_dvd_of_nsmul_eq_zero h
  rw [addOrderOf_groupGenerator] at hd
  exact absurd (Nat.le_of_dvd k.pos hd) (Nat.not_le.2 k.lt)

theorem toPoint_publicKey (k : Scalar) :
    k.publicKey.toPoint = Point.ofGroup (k.val • groupGenerator) := by
  have hk := nsmul_groupGenerator_ne_zero k
  have hm := Point.ofGroup_nsmul k.val groupGenerator
  rw [ofGroup_groupGenerator] at hm
  rw [publicKey, ← hm]
  cases hg : Point.ofGroup (k.val • groupGenerator) with
  | infinity => exact absurd (Point.ofGroup_injective hg) hk
  | affine x y => rfl

theorem onCurve_publicKey (k : Scalar) : k.publicKey.toPoint.OnCurve := by
  rw [toPoint_publicKey]
  exact Point.onCurve_ofGroup _

end Scalar

end RequestAuth.Secp256k1
