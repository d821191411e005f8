namespace RequestAuth.ModularInverse

/-- Extended Euclid on two remainders and their cofactors. If modulo some `m` each remainder is its
cofactor times `a`, then the result times `a` is the remainders' greatest common divisor. -/
def cofactor (r₀ r₁ : Nat) (x₀ x₁ : Int) : Int :=
  if r₁ = 0 then x₀ else cofactor r₁ (r₀ % r₁) x₁ (x₀ - (r₀ / r₁ : Nat) * x₁)
termination_by r₁
decreasing_by exact Nat.mod_lt _ (by omega)

def inverse (m a : Nat) : Nat := (cofactor m (a % m) 0 1 % m).toNat

def power (m b e : Nat) : Nat :=
  if e = 0 then 1 % m
  else
    let half := power m (b * b % m) (e / 2)
    if e % 2 = 1 then b * half % m else half
termination_by e
decreasing_by omega

theorem power_eq (m b e : Nat) : power m b e = Nat.pow b e % m := by
  rw [Nat.pow_eq]
  induction e using Nat.strongRecOn generalizing b with
  | ind e ih =>
    rw [power]
    split
    · next h => simp [h]
    · next h =>
      have hb : (b * b % m) ^ (e / 2) % m = b ^ (2 * (e / 2)) % m := by
        rw [← Nat.pow_mod, ← Nat.pow_two, ← Nat.pow_mul]
      simp only [ih (e / 2) (by omega), hb]
      split
      · next h1 =>
        rw [Nat.mul_mod_mod, ← Nat.pow_succ', Nat.succ_eq_add_one,
          show 2 * (e / 2) + 1 = e by omega]
      · rw [show 2 * (e / 2) = e by omega]

end RequestAuth.ModularInverse
