import Mathlib.NumberTheory.LucasPrimality
import Mathlib.Tactic.NormNum.Prime
import RequestAuth.Secp256k1.Curve

namespace RequestAuth.Secp256k1.Primality

/-- A number, a candidate for a primitive root of it, and the prime factors of its predecessor. -/
structure Entry where
  number : ℕ
  root : ℕ
  factors : List ℕ

namespace Entry

def Holds (known : List ℕ) (e : Entry) : Prop :=
  1 < e.number ∧ e.factors.prod = e.number - 1 ∧ (∀ q ∈ e.factors, q ∈ known) ∧
    ModularInverse.power e.number e.root (e.number - 1) = 1 ∧
    ∀ q ∈ e.factors, ModularInverse.power e.number e.root ((e.number - 1) / q) ≠ 1

instance (known : List ℕ) (e : Entry) : Decidable (e.Holds known) :=
  inferInstanceAs (Decidable (_ ∧ _))

theorem pow_eq_one_iff {m : ℕ} (hm : 1 < m) (a n : ℕ) :
    (a : ZMod m) ^ n = 1 ↔ ModularInverse.power m a n = 1 := by
  rw [ModularInverse.power_eq, ← Nat.cast_pow, ← Nat.cast_one, ZMod.natCast_eq_natCast_iff',
    Nat.mod_eq_of_lt hm]
  rfl

theorem Holds.prime {known : List ℕ} {e : Entry} (h : e.Holds known)
    (hk : ∀ q ∈ known, q.Prime) : e.number.Prime := by
  obtain ⟨hm, hprod, hmem, hroot, hpart⟩ := h
  apply lucas_primality e.number (e.root : ZMod e.number)
  · exact (pow_eq_one_iff hm _ _).2 hroot
  · intro q hq hdvd
    rw [← hprod] at hdvd
    obtain ⟨f, hf, hqf⟩ := (Prime.dvd_prod_iff hq.prime).1 hdvd
    obtain rfl : q = f := (Nat.prime_dvd_prime_iff_eq hq (hk f (hmem f hf))).1 hqf
    rw [Ne, pow_eq_one_iff hm]
    exact hpart q hf

end Entry

/-- Each entry may use the primes that are known and the numbers of the entries before it. -/
def Chain : List ℕ → List Entry → Prop
  | _, [] => True
  | known, e :: rest => e.Holds known ∧ Chain (e.number :: known) rest

instance Chain.decide : (known : List ℕ) → (entries : List Entry) → Decidable (Chain known entries)
  | _, [] => .isTrue trivial
  | known, e :: rest =>
    have := Chain.decide (e.number :: known) rest
    inferInstanceAs (Decidable (_ ∧ _))

theorem Chain.prime {known : List ℕ} {entries : List Entry} (h : Chain known entries)
    (hk : ∀ q ∈ known, q.Prime) {e : Entry} (he : e ∈ entries) : e.number.Prime := by
  induction entries generalizing known with
  | nil => simp at he
  | cons first rest ih =>
    have hf := h.1.prime hk
    rcases List.mem_cons.1 he with rfl | he
    · exact hf
    · refine ih h.2 (fun q hq ↦ ?_) he
      rcases List.mem_cons.1 hq with rfl | hq
      · exact hf
      · exact hk q hq

def small : List ℕ :=
  [2, 3, 5, 7, 11, 17, 29, 31, 41, 53, 59, 97, 109, 149, 293, 461, 631, 797, 971, 1373, 1627, 1871,
    2011, 2621, 2657, 4051, 4423, 5323, 7723, 9349, 13441, 16699, 20113, 24809, 28181, 41201, 85831,
    96557, 120233, 305873]

theorem small_prime : ∀ q ∈ small, q.Prime := by norm_num [small]

def fieldChain : List Entry :=
  [⟨13331831, 13, [2, 5, 971, 1373]⟩,
    ⟨173378833005251801, 6, [2, 2, 2, 5, 5, 2621, 24809, 13331831]⟩,
    ⟨22149492674086928081353, 5, [2, 2, 2, 3, 5323, 173378833005251801]⟩,
    ⟨132896956044521568488119, 6, [2, 3, 22149492674086928081353]⟩,
    ⟨107590001, 3, [2, 2, 2, 2, 5, 5, 5, 5, 7, 29, 53]⟩,
    ⟨1206781, 10, [2, 2, 3, 5, 20113]⟩,
    ⟨7240687, 3, [2, 3, 1206781]⟩,
    ⟨255515944373312847190720520512484175977, 3,
      [2, 2, 2, 7, 7, 11, 1627, 2657, 4423, 41201, 96557, 107590001, 7240687]⟩,
    ⟨205115282021455665897114700593932402728804164701536103180137503955397371, 10,
      [2, 3, 5, 29, 29, 31, 7723, 132896956044521568488119,
        255515944373312847190720520512484175977]⟩,
    ⟨p, 3,
      [2, 3, 7, 13441, 205115282021455665897114700593932402728804164701536103180137503955397371]⟩]

def orderChain : List Entry :=
  [⟨4681609, 23, [2, 2, 2, 3, 97, 2011]⟩,
    ⟨107361793816595537, 3, [2, 2, 2, 2, 16699, 85831, 4681609]⟩,
    ⟨44706919, 6, [2, 3, 797, 9349]⟩,
    ⟨174723607534414371449, 3, [2, 2, 2, 17, 59, 4051, 120233, 44706919]⟩,
    ⟨1627771, 3, [2, 3, 5, 29, 1871]⟩,
    ⟨297159362677, 2, [2, 2, 3, 3, 11, 461, 1627771]⟩,
    ⟨545358713, 5, [2, 2, 2, 41, 59, 28181]⟩,
    ⟨29047611873442575647497758179, 2, [2, 293, 305873, 297159362677, 545358713]⟩,
    ⟨341948486974166000522343609283189, 2, [2, 2, 3, 3, 3, 109, 29047611873442575647497758179]⟩,
    ⟨order, 7,
      [2, 2, 2, 2, 2, 2, 3, 149, 631, 107361793816595537, 174723607534414371449,
        341948486974166000522343609283189]⟩]

theorem fieldChain_holds : Chain small fieldChain := by decide +kernel

theorem orderChain_holds : Chain small orderChain := by decide +kernel

end Primality

theorem prime_p : p.Prime :=
  Primality.fieldChain_holds.prime Primality.small_prime (List.mem_of_getLast? rfl)

theorem prime_order : order.Prime :=
  Primality.orderChain_holds.prime Primality.small_prime (List.mem_of_getLast? rfl)

instance : Fact p.Prime := ⟨prime_p⟩

instance : Fact order.Prime := ⟨prime_order⟩

end RequestAuth.Secp256k1
