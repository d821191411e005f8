import RequestAuth.Proofs.Credential
import RequestAuth.Proofs.Decoding
import RequestAuth.Proofs.Secp256k1.Ecdsa

namespace RequestAuth

open Secp256k1

theorem Bytes.toNat_padLeft (width : ℕ) (bytes : Bytes) :
    toNat (padLeft width bytes) = toNat bytes := by
  rw [padLeft, toNat_append, toNat_replicate_zero, Nat.zero_mul, Nat.zero_add]

namespace Secp256k1

theorem Scalar.toPoint_publicKey_eq_multiple (k : Scalar) :
    k.publicKey.toPoint = Point.multiple k.val Point.generator := by
  rw [k.toPoint_publicKey, Point.ofGroup_nsmul, ofGroup_groupGenerator]

theorem fieldBytes?_eq_some_iff {digest field : Bytes} :
    fieldBytes? digest = some field ↔
      16 ≤ digest.length ∧ Bytes.padLeft 32 (digest.take 32) = field := by
  rw [fieldBytes?]
  split
  · next hl =>
    constructor
    · intro h
      cases h
    · rintro ⟨h, -⟩
      exact absurd hl (Nat.not_lt.2 h)
  · next hl =>
    rw [Option.some.injEq]
    exact (and_iff_right (Nat.not_lt.1 hl)).symm

namespace Signature

theorem negate_negate (sig : Signature) : sig.negate.negate = sig := by
  obtain ⟨r, s⟩ := sig
  exact congrArg (mk r) (Scalar.ext (Nat.sub_sub_self s.lt.le))

theorem normalize_eq_or (sig : Signature) : sig.normalize = sig ∨ sig.normalize = sig.negate := by
  rw [normalize]
  split
  · exact .inl rfl
  · exact .inr rfl

end Signature

def ephemeral? (d : Scalar) (digest : Bytes) : Option Scalar :=
  (fieldBytes? digest).bind fun field ↦ (Generator.start d field).scalar? attempts

def Serves (k d : Scalar) (z : ℕ) : Prop :=
  k.publicKey.x.val % order ≠ 0 ∧ (z + k.publicKey.x.val % order * d.val) % order ≠ 0

theorem exists_ofNat?_mod_iff {n : ℕ} :
    (∃ k, Scalar.ofNat? (n % order) = some k) ↔ n % order ≠ 0 := by
  constructor
  · rintro ⟨k, hk⟩
    exact (Scalar.val_of_ofNat? hk).symm.trans_ne k.pos.ne'
  · intro hn
    exact ⟨⟨n % order, Nat.pos_of_ne_zero hn, Nat.mod_lt n (by decide)⟩,
      Scalar.ofNat?_eq_some_iff.2 rfl⟩

theorem inverse_mul_mod_eq_zero_iff (k : Scalar) (n : ℕ) :
    ModularInverse.inverse order k.val * n % order = 0 ↔ n % order = 0 := by
  rw [← Nat.dvd_iff_mod_eq_zero, ← Nat.dvd_iff_mod_eq_zero, ← ZMod.natCast_eq_zero_iff,
    ← ZMod.natCast_eq_zero_iff, Nat.cast_mul, ModularInverse.cast_inverse,
    mul_eq_zero_iff_left (inv_ne_zero k.cast_ne_zero)]

theorem exists_signWith_iff {k d : Scalar} {z : ℕ} :
    (∃ sig, signWith k d z = some sig) ↔ Serves k d z := by
  constructor
  · rintro ⟨sig, h⟩
    obtain ⟨r, hr, h⟩ := Option.bind_eq_some_iff.1 h
    obtain ⟨s, hs, -⟩ := Option.bind_eq_some_iff.1 h
    have hsum := exists_ofNat?_mod_iff.1 ⟨s, hs⟩
    rw [Ne, inverse_mul_mod_eq_zero_iff, Scalar.val_of_ofNat? hr] at hsum
    exact ⟨exists_ofNat?_mod_iff.1 ⟨r, hr⟩, hsum⟩
  · rintro ⟨hx, hsum⟩
    obtain ⟨r, hr⟩ := exists_ofNat?_mod_iff.2 hx
    rw [← Scalar.val_of_ofNat? hr, Ne, ← inverse_mul_mod_eq_zero_iff k] at hsum
    obtain ⟨s, hs⟩ := exists_ofNat?_mod_iff.2 hsum
    exact ⟨⟨r, s⟩, Option.bind_eq_some_iff.2 ⟨r, hr, Option.bind_eq_some_iff.2 ⟨s, hs, rfl⟩⟩⟩

section Sign

variable {d : Scalar} {digest : Bytes}

/-- What is signed is the number that the first 32 bytes of a digest write, or all of a shorter
one. -/
theorem sign_eq_bind : sign d digest =
    (ephemeral? d digest).bind fun k ↦
      (signWith k d (Bytes.toNat (digest.take 32))).map Signature.normalize := by
  rw [sign, ephemeral?, Option.bind_assoc]
  refine Option.bind_congr fun field hf ↦ Option.bind_congr fun k _ ↦ ?_
  obtain ⟨-, rfl⟩ := fieldBytes?_eq_some_iff.1 hf
  rw [Bytes.toNat_padLeft, Option.map_eq_bind]
  rfl

/-- Signing gives a signature unless the digest is too short, no scalar comes or one of the halves
is zero. -/
theorem exists_sign_iff : (∃ sig, sign d digest = some sig) ↔
    ∃ k, ephemeral? d digest = some k ∧ Serves k d (Bytes.toNat (digest.take 32)) := by
  simp only [sign_eq_bind, Option.bind_eq_some_iff, Option.map_eq_some_iff]
  constructor
  · rintro ⟨sig, k, hk, first, hs, -⟩
    exact ⟨k, hk, exists_signWith_iff.1 ⟨first, hs⟩⟩
  · rintro ⟨k, hk, hserves⟩
    obtain ⟨first, hs⟩ := exists_signWith_iff.2 hserves
    exact ⟨first.normalize, k, hk, first, hs, rfl⟩

theorem le_length_of_sign {sig : Signature} (h : sign d digest = some sig) :
    16 ≤ digest.length := by
  obtain ⟨k, hk, -⟩ := exists_sign_iff.1 ⟨sig, h⟩
  obtain ⟨field, hf, -⟩ := Option.bind_eq_some_iff.1 hk
  exact (fieldBytes?_eq_some_iff.1 hf).1

theorem accepts_of_sign {sig : Signature} (h : sign d digest = some sig) :
    Accepts d.publicKey (Bytes.toNat (digest.take 32)) sig ∧
      Accepts d.publicKey (Bytes.toNat (digest.take 32)) sig.negate := by
  rw [sign_eq_bind] at h
  obtain ⟨k, -, h⟩ := Option.bind_eq_some_iff.1 h
  obtain ⟨first, hs, rfl⟩ := Option.map_eq_some_iff.1 h
  obtain ⟨ha, hn⟩ := accepts_of_signWith hs
  refine ⟨accepts_normalize ⟨ha, hn⟩, ?_⟩
  rcases first.normalize_eq_or with he | he
  · rwa [he]
  · rwa [he, first.negate_negate]

end Sign

end Secp256k1

namespace Signer

/-- The bytes are `r` and `s` of a signature of the digest, with `s` in the lower half. -/
structure Form (secret : Scalar) (digest : Bytes) (sig : Signature) (bytes : Bytes) : Prop where
  length : bytes.length = 64
  r : Bytes.toNat (bytes.take 32) = sig.r.val
  s : Bytes.toNat (bytes.drop 32) = sig.s.val
  r_range : 1 ≤ sig.r.val ∧ sig.r.val < order
  s_range : 1 ≤ sig.s.val ∧ sig.s.val ≤ (order - 1) / 2
  verify : verify secret.publicKey digest sig = true
  accepts : Accepts secret.publicKey (Bytes.toNat (digest.take 32)) sig
  accepts_negate : Accepts secret.publicKey (Bytes.toNat (digest.take 32)) sig.negate
  normalize : sig.normalize = sig

section OfSecret

variable {secret : Scalar} {digest bytes : Bytes}

theorem ofSecret_eq_ok_iff :
    ofSecret secret digest = .ok bytes ↔
      ∃ sig, sign secret digest = some sig ∧ sig.toBytes = bytes := by
  cases hs : sign secret digest with
  | none => simp [ofSecret_of_sign_none hs]
  | some sig => simp [ofSecret_of_sign hs]

theorem exists_ofSecret_iff : (∃ bytes, ofSecret secret digest = .ok bytes) ↔
    ∃ k, ephemeral? secret digest = some k ∧
      Serves k secret (Bytes.toNat (digest.take 32)) := by
  rw [← exists_sign_iff]
  constructor
  · rintro ⟨bytes, h⟩
    obtain ⟨sig, hs, -⟩ := ofSecret_eq_ok_iff.1 h
    exact ⟨sig, hs⟩
  · rintro ⟨sig, hs⟩
    exact ⟨sig.toBytes, ofSecret_eq_ok_iff.2 ⟨sig, hs, rfl⟩⟩

theorem ofSecret_of_short (h : digest.length < 16) : ofSecret secret digest = .error refusal :=
  ofSecret_of_sign_none (sign_of_short h secret)

theorem eq_of_ofSecret_eq_error {failure : Failure} (h : ofSecret secret digest = .error failure) :
    failure = refusal := by
  cases hs : sign secret digest with
  | none =>
    rw [ofSecret_of_sign_none hs] at h
    exact (Except.error.inj h).symm
  | some sig =>
    rw [ofSecret_of_sign hs] at h
    cases h

theorem form_of_sign {sig : Signature} (h : sign secret digest = some sig) :
    Form secret digest sig sig.toBytes where
  length := sig.length_toBytes
  r := by rw [sig.take_toBytes, sig.r.toNat_toBytes]
  s := by rw [sig.drop_toBytes, sig.s.toNat_toBytes]
  r_range := ⟨sig.r.pos, sig.r.lt⟩
  s_range := by
    have hl := sig.normalize_isLow
    rw [normalize_of_sign h] at hl
    exact ⟨sig.s.pos, hl⟩
  verify := verify_of_sign h
  accepts := (accepts_of_sign h).1
  accepts_negate := (accepts_of_sign h).2
  normalize := normalize_of_sign h

end OfSecret

structure IsText (bytes : Bytes) (text : String) : Prop where
  length : text.length = 128
  digits : ∀ c ∈ text.toList, c ∈ "0123456789abcdef".toList
  decode : Hex.decode text = .ok bytes

theorem isText_encode {bytes : Bytes} (h : bytes.length = 64) :
    IsText bytes (Hex.encode bytes) where
  length := by rw [Hex.length_encode, h]
  digits := by
    rw [Hex.encode, String.toList_ofList]
    exact fun _ ↦ Hex.mem_of_mem_encodeChars
  decode := Hex.decode_encode bytes

/-- A digest under half of the width is refused. From any other comes, unless one of its halves is
zero, a valid signature in its one low form, which a header has as text. -/
theorem ofSecret_signs_in_low_form (secret : Scalar) :
    secret.publicKey.toPoint = Point.multiple secret.val Point.generator ∧
    (∀ digest, digest.length < 16 → ofSecret secret digest = .error refusal) ∧
    (∀ digest failure, ofSecret secret digest = .error failure → failure = refusal) ∧
    (∀ digest, (∃ bytes, ofSecret secret digest = .ok bytes) ↔
      ∃ k, ephemeral? secret digest = some k ∧
        Serves k secret (Bytes.toNat (digest.take 32))) ∧
    (∀ digest bytes, ofSecret secret digest = .ok bytes →
      16 ≤ digest.length ∧ ∃ sig, Form secret digest sig bytes) ∧
    ∀ identity context canonicalizer own,
      signContext identity context canonicalizer (ofSecret secret) = .ok own →
        ∃ payload sig bytes, canonicalizer.canonicalize identity context = .ok payload ∧
          Form secret payload.digest sig bytes ∧ IsText bytes own.signature := by
  refine ⟨secret.toPoint_publicKey_eq_multiple, fun _ ↦ ofSecret_of_short,
    fun _ _ ↦ eq_of_ofSecret_eq_error, fun _ ↦ exists_ofSecret_iff, fun digest bytes h ↦ ?_,
    fun identity context canonicalizer own h ↦ ?_⟩
  · obtain ⟨sig, hs, rfl⟩ := ofSecret_eq_ok_iff.1 h
    exact ⟨le_length_of_sign hs, sig, form_of_sign hs⟩
  · obtain ⟨payload, bytes, hp, hb, rfl⟩ := exists_of_signContext h
    obtain ⟨sig, hs, rfl⟩ := ofSecret_eq_ok_iff.1 hb
    exact ⟨payload, sig, sig.toBytes, hp, form_of_sign hs, isText_encode sig.length_toBytes⟩

end Signer

end RequestAuth
