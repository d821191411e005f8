import Mathlib.Data.List.Induction
import Mathlib.Data.List.TakeWhile
import Mathlib.Tactic.Ring
import RequestAuth.Bytes

namespace RequestAuth

theorem takeWhile_append_eq_nil_iff {α : Type} {p : α → Bool} {l : List α} (hl : l ≠ [])
    (rest : List α) : (l ++ rest).takeWhile p = [] ↔ l.takeWhile p = [] := by
  cases l with
  | nil => exact absurd rfl hl
  | cons a l => cases h : p a <;> simp [h]

namespace Radix

theorem value_append (b : ℕ) (xs ys : List ℕ) :
    value b (xs ++ ys) = value b xs * b ^ ys.length + value b ys := by
  induction ys using List.reverseRecOn with
  | nil => simp [value]
  | append_singleton ys y ih =>
    rw [← List.append_assoc, value_append_singleton, ih, value_append_singleton,
      List.length_append, List.length_singleton]
    ring

theorem value_lt_pow {b : ℕ} {ds : List ℕ} (h : ∀ d ∈ ds, d < b) : value b ds < b ^ ds.length := by
  induction ds using List.reverseRecOn with
  | nil => simp [value]
  | append_singleton ds d ih =>
    have hd : d < b := h d (by simp)
    have hv := ih (fun d' hd' ↦ h d' (by simp [hd']))
    rw [value_append_singleton, List.length_append, List.length_singleton, Nat.pow_succ]
    calc value b ds * b + d < value b ds * b + b := by omega
      _ = (value b ds + 1) * b := by ring
      _ ≤ b ^ ds.length * b := Nat.mul_le_mul_right b hv

theorem value_eq_zero_iff {b : ℕ} (hb : 0 < b) {ds : List ℕ} :
    value b ds = 0 ↔ ∀ d ∈ ds, d = 0 := by
  induction ds using List.reverseRecOn with
  | nil => simp [value]
  | append_singleton ds d ih =>
    rw [value_append_singleton]
    simp only [List.mem_append, List.mem_singleton, Nat.add_eq_zero_iff, Nat.mul_eq_zero, ih]
    constructor
    · rintro ⟨h | rfl, rfl⟩ d' (hd' | rfl)
      · exact h d' hd'
      · rfl
      all_goals omega
    · exact fun h ↦ ⟨.inl fun d' hd' ↦ h d' (.inl hd'), h d (.inr rfl)⟩

theorem digits_value {b : ℕ} (hb : 1 < b) {ds : List ℕ} (h : ∀ d ∈ ds, d < b) :
    digits b (value b ds) = ds.dropWhile (· == 0) := by
  induction ds using List.reverseRecOn with
  | nil => simp [value, digits_zero]
  | append_singleton ds d ih =>
    have hd : d < b := h d (by simp)
    have hs := ih (fun d' hd' ↦ h d' (by simp [hd']))
    rcases Nat.eq_zero_or_pos (value b (ds ++ [d])) with h0 | hpos
    · have hz := (value_eq_zero_iff (by omega)).1 h0
      rw [h0, digits_zero, eq_comm, List.dropWhile_eq_nil_iff]
      simpa using hz
    · rw [digits_of_pos hb hpos, value_append_singleton, Nat.mul_comm,
        Nat.mul_add_div (by omega), Nat.div_eq_of_lt hd, Nat.add_zero, hs, Nat.mul_add_mod,
        Nat.mod_eq_of_lt hd, List.dropWhile_append]
      split
      · next hnil =>
        have hds : ∀ d' ∈ ds, d' = 0 := by simpa [List.dropWhile_eq_nil_iff] using hnil
        have hne : d ≠ 0 := by
          rintro rfl
          have h0 : value b (ds ++ [0]) = 0 := (value_eq_zero_iff (by omega)).2 (by
            intro d' hd'
            rcases List.mem_append.1 hd' with hd' | hd'
            · exact hds d' hd'
            · exact List.mem_singleton.1 hd')
          omega
        rw [List.isEmpty_iff.1 hnil]
        simp [hne]
      · rfl

theorem digits_takeWhile_zero {b : ℕ} (hb : 1 < b) (n : ℕ) :
    (digits b n).takeWhile (· == 0) = [] := by
  have h := digits_value hb (fun _ ↦ lt_of_mem_digits : ∀ d ∈ digits b n, d < b)
  rw [value_digits hb] at h
  have ht := List.takeWhile_append_dropWhile (p := (· == 0)) (l := digits b n)
  rw [← h] at ht
  exact List.append_left_eq_self.1 ht

/-- The first digits of a number are those of what is left of it without the last `k`. -/
theorem exists_digits_eq_append {b : ℕ} (hb : 1 < b) (k : ℕ) {n : ℕ} (hn : 0 < n / b ^ k) :
    ∃ low, low.length = k ∧ digits b n = digits b (n / b ^ k) ++ low := by
  induction k generalizing n with
  | zero => exact ⟨[], rfl, by simp⟩
  | succ k ih =>
    rw [Nat.pow_succ, Nat.mul_comm, ← Nat.div_div_eq_div_mul] at hn
    obtain ⟨low, hlow, hd⟩ := ih hn
    have hpos : 0 < n := by
      by_contra h0
      obtain rfl : n = 0 := by omega
      simp at hn
    refine ⟨low ++ [n % b], by simp [hlow], ?_⟩
    rw [digits_of_pos hb hpos, hd, Nat.pow_succ, Nat.mul_comm (b ^ k), ← Nat.div_div_eq_div_mul,
      List.append_assoc]

theorem div_pow_of_digits_eq_append {b n : ℕ} {high low : List ℕ} (hb : 1 < b)
    (h : digits b n = high ++ low) : n / b ^ low.length = value b high := by
  have hlt : value b low < b ^ low.length := value_lt_pow fun d hd ↦
    lt_of_mem_digits (n := n) (by rw [h]; exact List.mem_append_right high hd)
  have hn : value b high * b ^ low.length + value b low = n := by
    rw [← value_append, ← h, value_digits hb]
  apply Nat.div_eq_of_lt_le
  · omega
  · rw [Nat.succ_mul]
    omega

end Radix

namespace Bytes

theorem toNat_lt_of_mem_map (bytes : Bytes) : ∀ d ∈ bytes.map UInt8.toNat, d < 256 := by
  intro d hd
  obtain ⟨u, -, rfl⟩ := List.mem_map.1 hd
  exact u.toNat_lt

theorem toNat_append (a b : Bytes) : toNat (a ++ b) = toNat a * 256 ^ b.length + toNat b := by
  rw [toNat, List.map_append, Radix.value_append, List.length_map]
  rfl

theorem toNat_lt (bytes : Bytes) : toNat bytes < 256 ^ bytes.length := by
  simpa [toNat] using Radix.value_lt_pow (toNat_lt_of_mem_map bytes)

theorem ofNat_succ (width n : ℕ) :
    ofNat (width + 1) n = ofNat width (n / 256) ++ [UInt8.ofNat n] := by
  rw [ofNat, List.range_succ, List.map_append, ofNat]
  congr 1
  · apply List.map_congr_left
    intro i hi
    have hlt := List.mem_range.1 hi
    rw [show 8 * (width + 1 - 1 - i) = 8 + 8 * (width - 1 - i) by omega, Nat.shiftRight_add,
      Nat.shiftRight_eq_div_pow n 8]
  · simp

theorem toNat_singleton (u : UInt8) : toNat [u] = u.toNat := by simp [toNat, Radix.value]

theorem toNat_ofNat (width n : ℕ) : toNat (ofNat width n) = n % 256 ^ width := by
  induction width generalizing n with
  | zero => simp [toNat, ofNat, Radix.value, Nat.mod_one]
  | succ width ih =>
    rw [ofNat_succ, toNat_append, ih, toNat_singleton, List.length_singleton, Nat.pow_one,
      UInt8.toNat_ofNat', Nat.pow_succ 256, Nat.mul_comm (256 ^ width), Nat.mod_mul]
    omega

theorem toNat_ofNat_of_lt {width n : ℕ} (h : n < 256 ^ width) : toNat (ofNat width n) = n := by
  rw [toNat_ofNat, Nat.mod_eq_of_lt h]

theorem ofNat_toNat (bytes : Bytes) : ofNat bytes.length (toNat bytes) = bytes := by
  induction bytes using List.reverseRecOn with
  | nil => rfl
  | append_singleton bytes u ih =>
    have hu := u.toNat_lt
    rw [List.length_append, List.length_singleton, ofNat_succ, toNat_append, toNat_singleton,
      List.length_singleton, Nat.pow_one, show (toNat bytes * 256 + u.toNat) / 256 = toNat bytes by
        omega, ih]
    congr 2
    apply UInt8.toNat.inj
    rw [UInt8.toNat_ofNat']
    omega

theorem eq_of_toNat_eq {a b : Bytes} (hlen : a.length = b.length) (h : toNat a = toNat b) :
    a = b := by
  rw [← ofNat_toNat a, hlen, h, ofNat_toNat]

theorem pow_le_toNat {bytes : Bytes} {n : ℕ} (hlen : bytes.length = n + 1)
    (h : bytes.takeWhile (· == 0) = []) : 256 ^ n ≤ toNat bytes := by
  cases bytes with
  | nil => cases hlen
  | cons u rest =>
    have hu : u ≠ 0 := by
      rintro rfl
      simp at h
    have hpos : 0 < u.toNat := Nat.pos_of_ne_zero fun h0 ↦ hu (UInt8.toNat_inj.1 h0)
    rw [List.length_cons, Nat.add_right_cancel_iff] at hlen
    calc 256 ^ n ≤ u.toNat * 256 ^ rest.length := by
          rw [hlen]
          exact Nat.le_mul_of_pos_left _ hpos
      _ ≤ u.toNat * 256 ^ rest.length + toNat rest := Nat.le_add_right _ _
      _ = toNat (u :: rest) := by rw [← List.singleton_append, toNat_append, toNat_singleton]

theorem ofNat_mod (width n : ℕ) : ofNat width (n % 256 ^ width) = ofNat width n := by
  have h := ofNat_toNat (ofNat width n)
  rwa [length_ofNat, toNat_ofNat] at h

theorem shortest_toNat (bytes : Bytes) : shortest (toNat bytes) = bytes.dropWhile (· == 0) := by
  rw [shortest, toNat, Radix.digits_value (by decide) (toNat_lt_of_mem_map bytes),
    List.dropWhile_map, List.map_map]
  have hz : (fun d ↦ d == 0) ∘ UInt8.toNat = fun u : UInt8 ↦ u == 0 := by
    funext u
    simp [← UInt8.toNat_inj]
  have hi : UInt8.ofNat ∘ UInt8.toNat = id := funext fun u ↦ UInt8.ofNat_toNat
  rw [hz, hi, List.map_id]

end Bytes

end RequestAuth
