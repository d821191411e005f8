import RequestAuth.Proofs.Secp256k1.PublicKey
import RequestAuth.Secp256k1.Signature

namespace RequestAuth.Secp256k1

open Coordinate

theorem Scalar.cast_ne_zero (k : Scalar) : (k.val : ZMod order) ≠ 0 := by
  rw [Ne, ZMod.natCast_eq_zero_iff]
  exact fun h ↦ absurd (Nat.le_of_dvd k.pos h) (Nat.not_le.2 k.lt)

theorem Point.ofGroup_neg {g : curve.Point} {x y : Coordinate} (h : ofGroup g = affine x y) :
    ofGroup (-g) = affine x (-y) := by
  rcases g with _ | ⟨x', y', hs⟩
  · cases h
  · rw [ofGroup, affine.injEq] at h
    obtain ⟨rfl, rfl⟩ := h
    rw [WeierstrassCurve.Affine.Point.neg_some, ofGroup, negY_curve, ofField_neg]

theorem Scalar.ofGroup_nsmul (k : Scalar) :
    Point.ofGroup (k.val • groupGenerator) = .affine k.publicKey.x k.publicKey.y :=
  k.toPoint_publicKey.symm

theorem add_multiples_eq (d : Scalar) (a b : ℕ) :
    Point.add (Point.multiple (a % order) Point.generator)
        (Point.multiple (b % order) d.publicKey.toPoint) =
      Point.ofGroup ((a + b * d.val) • groupGenerator) := by
  rw [d.toPoint_publicKey, ← ofGroup_groupGenerator, ← Point.ofGroup_nsmul, ← Point.ofGroup_nsmul,
    ← Point.ofGroup_add, ← mul_nsmul', ← add_nsmul]
  congr 1
  rw [nsmul_groupGenerator_eq_iff]
  push_cast [ZMod.natCast_mod]
  ring

/-- A signature passes if its equation gives back the ephemeral scalar or its opposite. -/
theorem accepts_of_cast_eq {d k : Scalar} {z : ℕ} {sig : Signature} {u : ZMod order}
    (hu : u = k.val ∨ u = -k.val) (h : (sig.s.val : ZMod order) * u = z + sig.r.val * d.val)
    (hr : sig.r.val = k.publicKey.x.val % order) : Accepts d.publicKey z sig := by
  have hs := sig.s.cast_ne_zero
  set w := ModularInverse.inverse order sig.s.val with hw
  have hsum : ((z * w + sig.r.val * w * d.val : ℕ) : ZMod order) = u := by
    push_cast
    rw [hw, ModularInverse.cast_inverse]
    field_simp
    linear_combination -h
  simp only [Accepts, ← hw, add_multiples_eq]
  rcases hu with rfl | rfl
  · rw [nsmul_groupGenerator_eq_iff.2 hsum, Scalar.ofGroup_nsmul]
    exact hr.symm
  · have hneg : (z * w + sig.r.val * w * d.val) • groupGenerator = -(k.val • groupGenerator) := by
      rw [eq_neg_iff_add_eq_zero, ← add_nsmul, ← zero_nsmul groupGenerator,
        nsmul_groupGenerator_eq_iff, Nat.cast_add, hsum]
      simp
    rw [hneg, Point.ofGroup_neg k.ofGroup_nsmul]
    exact hr.symm

theorem signWith_eq_some {k d : Scalar} {z : ℕ} {sig : Signature} (h : signWith k d z = some sig) :
    sig.r.val = k.publicKey.x.val % order ∧
      (sig.s.val : ZMod order) * k.val = z + sig.r.val * d.val := by
  obtain ⟨r, hr, h⟩ := Option.bind_eq_some_iff.1 h
  obtain ⟨s, hs, h⟩ := Option.bind_eq_some_iff.1 h
  cases h
  refine ⟨Scalar.val_of_ofNat? hr, ?_⟩
  have hk := k.cast_ne_zero
  rw [Scalar.val_of_ofNat? hs, ZMod.natCast_mod]
  push_cast
  rw [ModularInverse.cast_inverse]
  field_simp

namespace Signature

theorem cast_negate_s (sig : Signature) : (sig.negate.s.val : ZMod order) = -sig.s.val := by
  rw [negate, Nat.cast_sub sig.s.lt.le, ZMod.natCast_self, zero_sub]

end Signature

theorem accepts_of_signWith {k d : Scalar} {z : ℕ} {sig : Signature}
    (h : signWith k d z = some sig) :
    Accepts d.publicKey z sig ∧ Accepts d.publicKey z sig.negate := by
  obtain ⟨hr, hs⟩ := signWith_eq_some h
  refine ⟨accepts_of_cast_eq (.inl rfl) hs hr, accepts_of_cast_eq (.inr rfl) ?_ hr⟩
  rw [Signature.cast_negate_s, neg_mul_neg]
  exact hs

theorem accepts_normalize {q : PublicKey} {z : ℕ} {sig : Signature}
    (h : Accepts q z sig ∧ Accepts q z sig.negate) : Accepts q z sig.normalize := by
  rw [Signature.normalize]
  split
  · exact h.1
  · exact h.2

theorem sign_of_short {digest : Bytes} (h : digest.length < 16) (k : Scalar) :
    sign k digest = none := by
  rw [sign, fieldBytes?, if_pos h]
  rfl

theorem sign_eq_some {d : Scalar} {digest : Bytes} {sig : Signature}
    (h : sign d digest = some sig) :
    ∃ field k first, fieldBytes? digest = some field ∧
      signWith k d (Bytes.toNat field) = some first ∧ sig = first.normalize := by
  obtain ⟨field, hf, h⟩ := Option.bind_eq_some_iff.1 h
  obtain ⟨k, -, h⟩ := Option.bind_eq_some_iff.1 h
  obtain ⟨first, hs, h⟩ := Option.bind_eq_some_iff.1 h
  exact ⟨field, k, first, hf, hs, (Option.some.inj h).symm⟩

theorem verify_of_sign {d : Scalar} {digest : Bytes} {sig : Signature}
    (h : sign d digest = some sig) : verify d.publicKey digest sig = true := by
  obtain ⟨field, k, first, hf, hs, rfl⟩ := sign_eq_some h
  simp only [verify, hf, decide_eq_true_eq]
  exact ⟨first.normalize_isLow, accepts_normalize (accepts_of_signWith hs)⟩

theorem Scalar.ofBytes?_toBytes (k : Scalar) : Scalar.ofBytes? k.toBytes = some k := by
  rw [ofBytes?, toNat_toBytes, ofNat?_val]

namespace Signature

theorem take_toBytes (sig : Signature) : sig.toBytes.take 32 = sig.r.toBytes := by
  rw [toBytes, List.take_left' sig.r.length_toBytes]

theorem drop_toBytes (sig : Signature) : sig.toBytes.drop 32 = sig.s.toBytes := by
  rw [toBytes, List.drop_left' sig.r.length_toBytes]

theorem ofBytes?_toBytes (sig : Signature) : ofBytes? sig.toBytes = some sig := by
  rw [ofBytes?, if_pos sig.length_toBytes, take_toBytes, drop_toBytes, sig.r.ofBytes?_toBytes,
    sig.s.ofBytes?_toBytes]
  rfl

end Signature

end RequestAuth.Secp256k1
