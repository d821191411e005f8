import Mathlib.AlgebraicGeometry.EllipticCurve.Affine.Point
import Mathlib.GroupTheory.OrderOfElement
import RequestAuth.Proofs.Secp256k1.Field

namespace RequestAuth.Secp256k1

open Coordinate WeierstrassCurve.Affine

def curve : WeierstrassCurve.Affine (ZMod p) := ⟨0, 0, 0, 0, 7⟩

theorem field_natCast_ne_zero {n : ℕ} (hn : n ≠ 0) (hp : n < p) : (n : ZMod p) ≠ 0 := by
  rw [Ne, ZMod.natCast_eq_zero_iff]
  exact fun h ↦ absurd (Nat.le_of_dvd (Nat.pos_of_ne_zero hn) h) (by omega)

theorem equation_curve_iff {x y : ZMod p} : curve.Equation x y ↔ y * y = x * x * x + 7 := by
  simp only [equation_iff, curve]
  ring_nf

theorem negY_curve (x y : ZMod p) : curve.negY x y = -y := by simp [negY, curve]

theorem eq_zero_of_eq_neg {y : ZMod p} (h : y = -y) : y = 0 := by
  have h2 : 2 * y = 0 := by linear_combination h
  exact (mul_eq_zero.1 h2).resolve_left (field_natCast_ne_zero (n := 2) (by decide) (by decide))

theorem nonsingular_curve {x y : ZMod p} (h : curve.Equation x y) : curve.Nonsingular x y := by
  refine (nonsingular_iff x y).2 ⟨h, ?_⟩
  by_contra hs
  simp only [curve, not_or, not_not, zero_mul, mul_zero, add_zero, sub_zero] at hs
  have hx : x ^ 2 = 0 := (mul_eq_zero.1 hs.1.symm).resolve_left
    (field_natCast_ne_zero (n := 3) (by decide) (by decide))
  have h7 : (7 : ZMod p) = 0 := by
    rw [equation_curve_iff, eq_zero_of_eq_neg hs.2] at h
    linear_combination -h - x * hx
  exact field_natCast_ne_zero (n := 7) (by decide) (by decide) h7

namespace Point

def ofGroup : curve.Point → Point
  | .zero => infinity
  | .some x y _ => affine (ofField x) (ofField y)

@[simp] theorem ofGroup_zero : ofGroup 0 = infinity := rfl

theorem ofGroup_injective : Function.Injective ofGroup := by
  rintro (_ | ⟨x, y, _⟩) (_ | ⟨x', y', _⟩) h
  · rfl
  · cases h
  · cases h
  · simp only [ofGroup, affine.injEq, ofField_eq_iff] at h
    obtain ⟨rfl, rfl⟩ := h
    rfl

theorem onCurve_affine_iff {x y : ZMod p} :
    OnCurve (affine (ofField x) (ofField y)) ↔ curve.Equation x y := by
  rw [OnCurve, cubic, equation_curve_iff, ← ofField_seven, ← ofField_mul, ← ofField_mul,
    ← ofField_mul, ← ofField_add, ofField_eq_iff]

theorem onCurve_ofGroup (g : curve.Point) : (ofGroup g).OnCurve := by
  cases g with
  | zero => trivial
  | some x y h => exact onCurve_affine_iff.2 h.1

theorem OnCurve.exists_ofGroup {q : Point} (h : q.OnCurve) : ∃ g, ofGroup g = q := by
  cases q with
  | infinity => exact ⟨0, rfl⟩
  | affine x y =>
    rw [← ofField_cast_val x, ← ofField_cast_val y] at h ⊢
    exact ⟨.some _ _ (nonsingular_curve (onCurve_affine_iff.1 h)), rfl⟩

theorem onLine_ofField (slope x₁ y₁ x₂ : ZMod p) :
    onLine (ofField slope) (ofField x₁) (ofField y₁) (ofField x₂) =
      affine (ofField (curve.addX x₁ x₂ slope)) (ofField (curve.addY x₁ x₂ y₁ slope)) := by
  simp only [onLine, ← ofField_mul, ← ofField_sub, affine.injEq, ofField_eq_iff, addX, addY,
    negAddY, negY_curve]
  constructor <;> simp only [curve] <;> ring

theorem ofField_eq_zero_iff {a : ZMod p} : ofField a = 0 ↔ a = 0 := by
  rw [← ofField_zero, ofField_eq_iff]

theorem ofGroup_double (g : curve.Point) : ofGroup (g + g) = double (ofGroup g) := by
  cases g with
  | zero => rfl
  | some x y h =>
    by_cases hy : y = 0
    · rw [Point.add_self_of_Y_eq (by rw [negY_curve, hy, neg_zero]), ofGroup, double,
        if_pos (ofField_eq_zero_iff.2 hy), ofGroup_zero]
    · have hn : y ≠ curve.negY x y := by
        rw [negY_curve]
        exact fun hn ↦ hy (eq_zero_of_eq_neg hn)
      have hs : curve.slope x x y y = 3 * x * x * (2 * y)⁻¹ := by
        rw [slope_of_Y_ne rfl hn, negY_curve, div_eq_mul_inv]
        simp only [curve]
        ring
      rw [Point.add_self_of_Y_ne hn, ofGroup, ofGroup, double,
        if_neg (ofField_eq_zero_iff.not.2 hy), hs, ← ofField_two, ← ofField_three, ← ofField_mul,
        ← ofField_mul, ← ofField_mul, ← ofField_inv, ← ofField_mul, onLine_ofField]

theorem ofGroup_add (g h : curve.Point) : ofGroup (g + h) = add (ofGroup g) (ofGroup h) := by
  rcases g with _ | ⟨x₁, y₁, h₁⟩
  · rw [← Point.zero_def, zero_add]
    rfl
  rcases h with _ | ⟨x₂, y₂, h₂⟩
  · rw [← Point.zero_def, add_zero]
    rfl
  by_cases hx : x₁ = x₂
  · subst hx
    by_cases hy : y₁ = y₂
    · subst hy
      rw [ofGroup_double]
      simp only [ofGroup, add, if_true]
    · have hn : y₁ = curve.negY x₁ y₂ := (Y_eq_of_X_eq h₁.1 h₂.1 rfl).resolve_left hy
      rw [Point.add_of_Y_eq rfl hn]
      simp only [ofGroup, add, if_true, ofField_eq_iff, if_neg hy]
  · have hs : curve.slope x₁ x₂ y₁ y₂ = (y₂ - y₁) * (x₂ - x₁)⁻¹ := by
      rw [slope_of_X_ne hx, ← neg_sub y₂, ← neg_sub x₂, neg_div_neg_eq, div_eq_mul_inv]
    rw [Point.add_of_X_ne hx]
    simp only [ofGroup, add, ofField_eq_iff, if_neg hx]
    rw [hs, ← ofField_sub, ← ofField_sub, ← ofField_inv, ← ofField_mul, onLine_ofField]

theorem ofGroup_nsmul (k : ℕ) (g : curve.Point) : ofGroup (k • g) = multiple k (ofGroup g) := by
  induction k using Nat.strongRecOn generalizing g with
  | ind k ih =>
    rcases Nat.eq_zero_or_pos k with rfl | hk
    · rw [zero_nsmul, multiple_zero, ofGroup_zero]
    · have hh := ih (k / 2) (by omega) (g + g)
      rw [ofGroup_double, ← two_nsmul, ← mul_nsmul] at hh
      rw [multiple_of_pos hk, ← hh]
      split
      · next h1 =>
        rw [← ofGroup_add, ← succ_nsmul', show 2 * (k / 2) + 1 = k by omega]
      · rw [show 2 * (k / 2) = k by omega]

theorem generator_onCurve : generator.OnCurve := by decide +kernel

theorem order_multiple_generator : multiple order generator = infinity := by decide +kernel

end Point

noncomputable def groupGenerator : curve.Point := Point.generator_onCurve.exists_ofGroup.choose

theorem ofGroup_groupGenerator : Point.ofGroup groupGenerator = Point.generator :=
  Point.generator_onCurve.exists_ofGroup.choose_spec

theorem addOrderOf_groupGenerator : addOrderOf groupGenerator = order := by
  apply addOrderOf_eq_prime
  · apply Point.ofGroup_injective
    rw [Point.ofGroup_nsmul, ofGroup_groupGenerator, Point.order_multiple_generator,
      Point.ofGroup_zero]
  · intro h
    have hg := ofGroup_groupGenerator
    rw [h] at hg
    cases hg

theorem nsmul_groupGenerator_eq_iff {a b : ℕ} :
    a • groupGenerator = b • groupGenerator ↔ (a : ZMod order) = b := by
  rw [nsmul_eq_nsmul_iff_modEq, addOrderOf_groupGenerator, ZMod.natCast_eq_natCast_iff]

end RequestAuth.Secp256k1
