namespace RequestAuth.Radix

/-- The number that `ds` stands for in base `b`, most significant digit first. -/
def value (b : Nat) (ds : List Nat) : Nat := ds.foldl (fun n d ↦ n * b + d) 0

/-- The digits of `n` in base `b`, most significant first; zero has none. -/
def digits (b n : Nat) : List Nat :=
  if _ : 1 < b ∧ 0 < n then digits b (n / b) ++ [n % b] else []
termination_by n
decreasing_by exact Nat.div_lt_self (by omega) (by omega)

theorem value_append_singleton (b : Nat) (ds : List Nat) (d : Nat) :
    value b (ds ++ [d]) = value b ds * b + d := by
  simp [value, List.foldl_append]

theorem digits_zero (b : Nat) : digits b 0 = [] := by
  rw [digits]
  simp

theorem digits_of_pos {b n : Nat} (hb : 1 < b) (hn : 0 < n) :
    digits b n = digits b (n / b) ++ [n % b] := by
  rw [digits, dif_pos ⟨hb, hn⟩]

theorem value_digits {b : Nat} (hb : 1 < b) (n : Nat) : value b (digits b n) = n := by
  induction n using Nat.strongRecOn with
  | ind n ih =>
    rcases Nat.eq_zero_or_pos n with rfl | hn
    · simp [digits_zero, value]
    · rw [digits_of_pos hb hn, value_append_singleton, ih _ (Nat.div_lt_self hn hb),
        Nat.mul_comm]
      exact Nat.div_add_mod n b

theorem lt_of_mem_digits {b n d : Nat} (h : d ∈ digits b n) : d < b := by
  induction n using Nat.strongRecOn with
  | ind n ih =>
    rw [digits] at h
    split at h
    · rename_i hn
      rcases List.mem_append.1 h with h | h
      · exact ih _ (Nat.div_lt_self hn.2 hn.1) h
      · rw [List.mem_singleton.1 h]
        exact Nat.mod_lt _ (by omega)
    · simp at h

end RequestAuth.Radix
