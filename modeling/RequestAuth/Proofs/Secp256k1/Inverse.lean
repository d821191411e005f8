import Mathlib.Algebra.Field.ZMod
import Mathlib.Tactic.LinearCombination
import RequestAuth.ModularInverse

namespace RequestAuth.ModularInverse

theorem cofactor_mul {m a : ℕ} (r₀ r₁ : ℕ) (x₀ x₁ : ℤ) (h₀ : (r₀ : ZMod m) = x₀ * a)
    (h₁ : (r₁ : ZMod m) = x₁ * a) :
    (cofactor r₀ r₁ x₀ x₁ : ZMod m) * a = (Nat.gcd r₀ r₁ : ℕ) := by
  fun_induction cofactor r₀ r₁ x₀ x₁ with
  | case1 r₀ x₀ x₁ => simp [h₀]
  | case2 r₀ r₁ x₀ x₁ hr ih =>
    rw [Nat.gcd_comm, Nat.gcd_rec, Nat.gcd_comm]
    apply ih h₁
    have hdiv : (r₀ : ZMod m) = r₁ * (r₀ / r₁ : ℕ) + (r₀ % r₁ : ℕ) := by
      exact_mod_cast congrArg (Nat.cast (R := ZMod m)) (Nat.div_add_mod r₀ r₁).symm
    simp only [Int.cast_sub, Int.cast_mul, Int.cast_natCast]
    linear_combination h₀ - hdiv - (r₀ / r₁ : ℕ) * h₁

theorem cofactor_mul_self {m a : ℕ} (h : Nat.Coprime m a) :
    (cofactor m (a % m) 0 1 : ZMod m) * a = 1 := by
  have hc := cofactor_mul (m := m) (a := a) m (a % m) 0 1 (by simp) (by simp)
  rwa [Nat.gcd_comm, ← Nat.gcd_rec, h, Nat.cast_one] at hc

theorem cast_inverse_eq_cofactor {m : ℕ} (hm : 0 < m) (a : ℕ) :
    (inverse m a : ZMod m) = cofactor m (a % m) 0 1 := by
  have hnn : 0 ≤ cofactor m (a % m) 0 1 % (m : ℤ) := Int.emod_nonneg _ (by omega)
  rw [← Int.cast_natCast, inverse, Int.toNat_of_nonneg hnn, ZMod.intCast_mod]

theorem cast_inverse {m : ℕ} [Fact m.Prime] (a : ℕ) : (inverse m a : ZMod m) = (a : ZMod m)⁻¹ := by
  have hm := (Fact.out : m.Prime)
  rw [cast_inverse_eq_cofactor hm.pos]
  by_cases ha : m ∣ a
  · rw [(ZMod.natCast_eq_zero_iff a m).2 ha, Nat.mod_eq_zero_of_dvd ha, cofactor]
    simp
  · exact eq_inv_of_mul_eq_one_left (cofactor_mul_self ((hm.coprime_iff_not_dvd).2 ha))

end RequestAuth.ModularInverse
