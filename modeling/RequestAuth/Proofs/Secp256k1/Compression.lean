import RequestAuth.Proofs.Secp256k1.PublicKey

namespace RequestAuth.Secp256k1

open Coordinate

theorem cube_ne_seven (a : ZMod p) : a ^ 3 ≠ 7 := by
  intro h
  have ha : a ≠ 0 := by
    rintro rfl
    rw [zero_pow (by decide)] at h
    exact field_natCast_ne_zero (n := 7) (by decide) (by decide) h.symm
  have hpow : ((7 : ℕ) : ZMod p) ^ ((p - 1) / 3) = 1 := by
    rw [Nat.cast_ofNat, ← h, ← pow_mul, show 3 * ((p - 1) / 3) = p - 1 by decide,
      ZMod.pow_card_sub_one_eq_one ha]
  rw [Primality.Entry.pow_eq_one_iff (by decide)] at hpow
  exact absurd hpow (by decide +kernel)

theorem ne_zero_of_onCurve {x y : ZMod p} (h : (Point.affine (ofField x) (ofField y)).OnCurve) :
    y ≠ 0 := by
  rintro rfl
  rw [Point.onCurve_affine_iff, equation_curve_iff] at h
  apply cube_ne_seven (-x)
  linear_combination h

theorem reflect_of_onCurve {x y : Coordinate} (h : (Point.affine x y).OnCurve) (odd : Prop)
    [Decidable odd] :
    (Point.affine x (if (y.val % 2 = 1) = odd then y else -y)).OnCurve ∧
      ((if (y.val % 2 = 1) = odd then y else -y).val % 2 = 1 ↔ odd) := by
  rw [← ofField_cast_val x, ← ofField_cast_val y] at h ⊢
  generalize (x.val : ZMod p) = a at h ⊢
  generalize (y.val : ZMod p) = b at h ⊢
  split
  · next hodd => exact ⟨h, iff_of_eq hodd⟩
  · next hodd =>
    have hb : b ≠ 0 := ne_zero_of_onCurve h
    rw [← ofField_neg, val_ofField, val_neg_mod_two hb]
    refine ⟨?_, ?_⟩
    · rw [Point.onCurve_affine_iff, equation_curve_iff] at h ⊢
      rw [neg_mul_neg, h]
    · rw [eq_iff_iff, val_ofField] at hodd
      tauto

namespace PublicKey

theorem of_lift? {x : Coordinate} {odd : Bool} {q : PublicKey} (h : lift? x odd = some q) :
    q.x = x ∧ q.toPoint.OnCurve ∧ (q.y.val % 2 = 1 ↔ odd = true) := by
  rw [lift?] at h
  split at h
  · next hc =>
    cases h
    exact ⟨rfl, reflect_of_onCurve hc (odd = true)⟩
  · cases h

/-- The forms that stand for a point: they give its first coordinate and the parity of the second,
which is even if the tag leaves it out. -/
inductive IsWrittenAs (q : PublicKey) : Bytes → Prop
  | even {tag : UInt8} (htag : tag = 2 ∨ tag = 5) (hc : q.toPoint.OnCurve)
      (hy : q.y.val % 2 = 0) : IsWrittenAs q (tag :: Bytes.ofNat 32 q.x.val)
  | odd (hc : q.toPoint.OnCurve) (hy : q.y.val % 2 = 1) :
      IsWrittenAs q (3 :: Bytes.ofNat 32 q.x.val)

theorem IsWrittenAs.onCurve {q : PublicKey} {bytes : Bytes} (h : q.IsWrittenAs bytes) :
    q.toPoint.OnCurve := by
  cases h with
  | even htag hc hy => exact hc
  | odd hc hy => exact hc

theorem isWrittenAs_generator {tag : UInt8} (htag : tag = 2 ∨ tag = 5) :
    IsWrittenAs
      ⟨0x79be667ef9dcbbac55a06295ce870b07029bfcdb2dce28d959f2815b16f81798,
        0x483ada7726a3c4655da4fbfc0e1108a8fd17b448a68554199c47d08ffb10d4b8⟩
      (tag :: Bytes.ofNat 32
        0x79be667ef9dcbbac55a06295ce870b07029bfcdb2dce28d959f2815b16f81798) := by
  have hx : (0x79be667ef9dcbbac55a06295ce870b07029bfcdb2dce28d959f2815b16f81798 : Coordinate).val =
    0x79be667ef9dcbbac55a06295ce870b07029bfcdb2dce28d959f2815b16f81798 := by decide
  rw [← hx]
  exact .even htag Point.generator_onCurve (by decide)

theorem ofCompressed?_eq_some_iff {bytes : Bytes} {q : PublicKey} :
    ofCompressed? bytes = some q ↔ q.IsWrittenAs bytes := by
  constructor
  · intro h
    cases bytes with
    | nil => cases h
    | cons tag rest =>
      rw [ofCompressed?] at h
      split at h
      · next htag =>
        split at h
        · next hrest =>
          obtain ⟨hx, hc, hodd⟩ := of_lift? h
          obtain rfl : Bytes.ofNat 32 q.x.val = rest := by rw [hx, ← hrest.1, Bytes.ofNat_toNat]
          rcases htag with rfl | rfl | rfl
          · exact .even (.inl rfl) hc (by simpa using hodd)
          · exact .odd hc (by simpa using hodd)
          · exact .even (.inr rfl) hc (by simpa using hodd)
        · cases h
      · cases h
  · intro h
    have hl := lift?_of_onCurve h.onCurve
    cases h with
    | even htag hc hy =>
      rw [ofCompressed?_cons (htag.imp_right .inr)]
      rcases htag with rfl | rfl
      · simpa [hy] using hl
      · simpa [hy] using hl
    | odd hc hy =>
      rw [ofCompressed?_cons (.inr (.inl rfl))]
      simpa [hy] using hl

def TellsParity (bytes : Bytes) : Prop := bytes.head? = some 2 ∨ bytes.head? = some 3

instance (bytes : Bytes) : Decidable (TellsParity bytes) :=
  inferInstanceAs (Decidable (_ ∨ _))

theorem compressed_of_ofCompressed? {bytes : Bytes} {q : PublicKey}
    (h : ofCompressed? bytes = some q) (ht : TellsParity bytes) : q.compressed.toBytes = bytes := by
  cases ofCompressed?_eq_some_iff.1 h with
  | even htag hc hy =>
    rcases htag with rfl | rfl
    · simp only [compressed, Block.toBytes, if_pos hy]
    · exact absurd ht (by simp [TellsParity])
  | odd hc hy => simp only [compressed, Block.toBytes, if_neg (show ¬ q.y.val % 2 = 0 by omega)]

theorem compressed_of_isWrittenAs_compact {rest : Bytes} {q : PublicKey}
    (h : q.IsWrittenAs (5 :: rest)) : q.compressed.toBytes = 2 :: rest := by
  cases h with
  | even htag hc hy => simp only [compressed, Block.toBytes, if_pos hy]

theorem eq_of_compressed_eq {q r : PublicKey} (hq : q.toPoint.OnCurve) (hr : r.toPoint.OnCurve)
    (h : q.compressed = r.compressed) : q = r := by
  have hread := ofCompressed?_compressed hq
  rw [h, ofCompressed?_compressed hr] at hread
  exact (Option.some.inj hread).symm

end PublicKey

end RequestAuth.Secp256k1
