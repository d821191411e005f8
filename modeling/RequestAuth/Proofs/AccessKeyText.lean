import RequestAuth.Credential
import RequestAuth.Proofs.Decoding
import RequestAuth.Proofs.KeyText
import RequestAuth.Proofs.Secp256k1.PublicKey

namespace RequestAuth

open Secp256k1

namespace AccessKey

def IsHex (n : ℕ) (text : String) : Prop :=
  text.map Char.toLower = Hex.encode (Bytes.ofNat secretLength n)

def IsWifPayload (n : ℕ) (payload : Bytes) : Prop :=
  ∃ version ∈ [mainVersion, testVersion], ∃ mark ∈ [[], [compressedMark]],
    payload = version :: (Bytes.ofNat secretLength n ++ mark)

def IsWif (n : ℕ) (text : String) : Prop :=
  ∃ payload, IsWifPayload n payload ∧ text = Base58.encodeCheck payload

def Encodes (n : ℕ) (text : String) : Prop := IsHex n text ∨ IsWif n text

theorem IsHex.length_eq {n : ℕ} {text : String} (h : IsHex n text) : text.length = 64 := by
  have hl := congrArg (fun t : String ↦ t.toList.length) h
  simpa [Hex.encode, secretLength, ← String.length_toList] using hl

theorem IsWif.length_le {n : ℕ} {text : String} (h : IsWif n text) : text.length ≤ 52 := by
  obtain ⟨payload, ⟨version, hversion, mark, hmark, rfl⟩, rfl⟩ := h
  have hzero : (version == 0) = false := by
    obtain rfl | rfl : version = mainVersion ∨ version = testVersion := by simpa using hversion
    · rfl
    · rfl
  have hone : mark.length ≤ 1 := by
    obtain rfl | rfl : mark = [] ∨ mark = [compressedMark] := by simpa using hmark
    · exact Nat.zero_le 1
    · exact le_rfl
  rw [Base58.encodeCheck]
  apply Base58.length_encode_le
  · rw [List.cons_append, List.takeWhile_cons_of_neg (by simp [hzero])]
  · have hlen : (version :: (Bytes.ofNat secretLength n ++ mark) ++
        Base58.checksum (version :: (Bytes.ofNat secretLength n ++ mark))).length ≤ 38 := by
      simp [secretLength]
      omega
    have hpow : 256 ^ 38 ≤ 58 ^ 52 := by decide
    exact (Nat.pow_le_pow_right (by decide) hlen).trans hpow

theorem framed_iff {rest : Bytes} :
    (rest.length = secretLength ∨
        rest.length = secretLength + 1 ∧ rest.drop secretLength = [compressedMark]) ↔
      (rest.take secretLength).length = secretLength ∧
        rest.drop secretLength ∈ [[], [compressedMark]] := by
  have hdrop := List.length_drop (i := secretLength) (l := rest)
  rw [List.length_take, List.mem_cons, List.mem_singleton]
  constructor
  · rintro (h | ⟨h, hmark⟩)
    · exact ⟨by omega, .inl (List.eq_nil_of_length_eq_zero (by omega))⟩
    · exact ⟨by omega, .inr hmark⟩
  · rintro ⟨h, hmark | hmark⟩
    · rw [hmark, List.length_nil] at hdrop
      exact .inl (by omega)
    · rw [hmark, List.length_singleton] at hdrop
      exact .inr ⟨by omega, hmark⟩

theorem isWifPayload_cons_iff {n : ℕ} {version : UInt8} {rest : Bytes} :
    IsWifPayload n (version :: rest) ↔
      version ∈ [mainVersion, testVersion] ∧ rest.drop secretLength ∈ [[], [compressedMark]] ∧
        rest.take secretLength = Bytes.ofNat secretLength n := by
  constructor
  · rintro ⟨version', hversion, mark, hmark, h⟩
    obtain ⟨rfl, rfl⟩ := List.cons.inj h
    rw [List.drop_left' (Bytes.length_ofNat _ _), List.take_left' (Bytes.length_ofNat _ _)]
    exact ⟨hversion, hmark, rfl⟩
  · rintro ⟨hversion, hmark, hsecret⟩
    refine ⟨version, hversion, _, hmark, ?_⟩
    rw [← hsecret, List.take_append_drop]

theorem ofWifPayload_eq_ok_iff {payload : Bytes} {k : Scalar} :
    ofWifPayload payload = .ok k ↔ IsWifPayload k.val payload := by
  cases payload with
  | nil => exact iff_of_false nofun (by simp [IsWifPayload])
  | cons version rest =>
    rw [ofWifPayload, isWifPayload_cons_iff]
    constructor
    · intro h
      split at h
      · next hversion =>
        split at h
        · next hframed =>
          obtain ⟨hl, hmark⟩ := framed_iff.1 hframed
          split at h
          · next own hk =>
            cases h
            exact ⟨by simpa using hversion, hmark, (Scalar.ofBytes?_eq_some_iff hl).1 hk⟩
          · cases h
        · cases h
      · cases h
    · rintro ⟨hversion, hmark, hsecret⟩
      have hl : (rest.take secretLength).length = secretLength := by
        rw [hsecret, Bytes.length_ofNat]
      rw [if_pos (by simpa using hversion), if_pos (framed_iff.2 ⟨hl, hmark⟩),
        (Scalar.ofBytes?_eq_some_iff hl).2 hsecret]

theorem ofWif_eq_ok_iff {text : String} {k : Scalar} : ofWif text = .ok k ↔ IsWif k.val text := by
  rw [ofWif]
  constructor
  · intro h
    split at h
    · next payload hp =>
      exact ⟨payload, ofWifPayload_eq_ok_iff.1 h, Base58.decodeCheck_eq_ok_iff.1 hp⟩
    · cases h
  · rintro ⟨payload, hp, rfl⟩
    rw [Base58.decodeCheck_encodeCheck]
    exact ofWifPayload_eq_ok_iff.2 hp

theorem ofHex_eq_ok_iff {text : String} {k : Scalar} : ofHex text = .ok k ↔ IsHex k.val text := by
  rw [ofHex]
  constructor
  · intro h
    split at h
    · next bytes hb =>
      split at h
      · next hl =>
        split at h
        · next own hk =>
          cases h
          rw [IsHex, Hex.decode_eq_ok_iff.1 hb, (Scalar.ofBytes?_eq_some_iff hl).1 hk]
          rfl
        · cases h
      · cases h
    · cases h
  · intro h
    have hl : (Bytes.ofNat secretLength k.val).length = secretLength := Bytes.length_ofNat _ _
    have hk : Scalar.ofBytes? (Bytes.ofNat secretLength k.val) = some k :=
      (Scalar.ofBytes?_eq_some_iff hl).2 rfl
    simp only [Hex.decode_eq_ok_iff.2 h, hl, hk, if_true]

theorem not_isHex_and_isWif {n m : ℕ} {text : String} : ¬ (IsHex n text ∧ IsWif m text) := by
  rintro ⟨hhex, hwif⟩
  have hl := hwif.length_le
  rw [hhex.length_eq] at hl
  exact absurd hl (by decide)

theorem not_ofWif_and_ofHex {text : String} {k k' : Scalar} :
    ¬ (ofWif text = .ok k ∧ ofHex text = .ok k') := by
  rw [ofWif_eq_ok_iff, ofHex_eq_ok_iff, and_comm]
  exact not_isHex_and_isWif

theorem not_isBlank_of_encodes {n : ℕ} {text : String} (h : Encodes n (Text.trim text)) :
    ¬ Text.IsBlank text := by
  intro hb
  rw [Text.IsBlank] at hb
  rw [hb] at h
  rcases h with h | ⟨payload, -, h⟩
  · exact absurd h.length_eq (by decide)
  · exact Base58.encodeCheck_ne_empty payload h.symm

/-- Since no text is in both encodings, the one that is tried first hides nothing. -/
theorem ofText_of_ofHex {text : String} {k : Scalar} (h : ofHex (Text.trim text) = .ok k) :
    ofText text = .ok (.ofScalar k) := by
  rw [ofText, if_neg (not_isBlank_of_encodes (.inl (ofHex_eq_ok_iff.1 h)))]
  cases hw : ofWif (Text.trim text) with
  | ok own => exact absurd ⟨hw, h⟩ not_ofWif_and_ofHex
  | error wif => simp only [h]

theorem ofText_of_ofWif {text : String} {k : Scalar} (h : ofWif (Text.trim text) = .ok k) :
    ofText text = .ok (.ofScalar k) := by
  rw [ofText, if_neg (not_isBlank_of_encodes (.inr (ofWif_eq_ok_iff.1 h))), h]

theorem ofText_eq_ok_iff {text : String} {k : Scalar} :
    ofText text = .ok (.ofScalar k) ↔ Encodes k.val (Text.trim text) := by
  constructor
  · intro h
    rw [ofText] at h
    split at h
    · cases h
    · split at h
      · next own hw =>
        cases h
        exact .inr (ofWif_eq_ok_iff.1 hw)
      · split at h
        · next own hh =>
          cases h
          exact .inl (ofHex_eq_ok_iff.1 hh)
        · cases h
  · rintro (h | h)
    · exact ofText_of_ofHex (ofHex_eq_ok_iff.2 h)
    · exact ofText_of_ofWif (ofWif_eq_ok_iff.2 h)

theorem ofText_eq_noPrivateKey_iff {text : String} :
    ofText text = .error .noPrivateKey ↔ Text.trim text = "" := by
  constructor
  · intro h
    by_contra hb
    obtain ⟨wif, hex, -, -, hf⟩ := exists_of_ofText_eq_error h hb
    cases hf
  · exact fun hb ↦ if_pos hb

theorem exists_ofText_iff {text : String} {n : ℕ} :
    (∃ pair, ofText text = .ok pair ∧ pair.secret.val = n) ↔
      (1 ≤ n ∧ n < order) ∧ Encodes n (Text.trim text) := by
  constructor
  · rintro ⟨pair, h, rfl⟩
    rw [← pair.ofScalar_secret, ofText_eq_ok_iff] at h
    exact ⟨⟨pair.secret.pos, pair.secret.lt⟩, h⟩
  · rintro ⟨⟨hpos, hlt⟩, h⟩
    exact ⟨.ofScalar ⟨n, hpos, hlt⟩, ofText_eq_ok_iff.2 h, rfl⟩

/-- A text is blank, or holds a secret's number in one encoding and not in the other, or is turned
down by both readers; and texts of one secret make one key of it. -/
theorem ofText_reads_either_encoding (text : String) :
    (ofText text = .error .noPrivateKey ↔ Text.trim text = "") ∧
    (∀ n, (∃ pair, ofText text = .ok pair ∧ pair.secret.val = n) ↔
      (1 ≤ n ∧ n < order) ∧ Encodes n (Text.trim text)) ∧
    (Text.trim text ≠ "" → (¬ ∃ n, (1 ≤ n ∧ n < order) ∧ Encodes n (Text.trim text)) →
      ∃ wif hex, ofWif (Text.trim text) = .error wif ∧ ofHex (Text.trim text) = .error hex ∧
        ofText text = .error (.badPrivateKey wif.reason hex.reason)) ∧
    (∀ k k', ¬ (ofWif text = .ok k ∧ ofHex text = .ok k')) ∧
    (∀ k, ofHex (Text.trim text) = .ok k → ofText text = .ok (.ofScalar k)) ∧
    ∀ (other : String) (k : Scalar), Encodes k.val (Text.trim text) →
      Encodes k.val (Text.trim other) →
      ∃ pair, ofText text = .ok pair ∧ ofText other = .ok pair ∧ pair.secret = k ∧
        pair.publicKey = k.publicKey ∧
        ∃ c, Credential.ofAccessKey text = .ok c ∧ Credential.ofAccessKey other = .ok c ∧
          c.identity = identity pair ∧ c.accessKeyId = some (fileName pair) := by
  refine ⟨ofText_eq_noPrivateKey_iff, fun n ↦ exists_ofText_iff, fun hb hn ↦ ?_,
    fun k k' ↦ not_ofWif_and_ofHex, fun k ↦ ofText_of_ofHex, fun other k h h' ↦ ?_⟩
  · cases h : ofText text with
    | ok pair => exact absurd ⟨pair.secret.val, exists_ofText_iff.1 ⟨pair, h, rfl⟩⟩ hn
    | error failure =>
      obtain ⟨wif, hex, hw, hh, rfl⟩ := exists_of_ofText_eq_error h hb
      exact ⟨wif, hex, hw, hh, rfl⟩
  · have hk := ofText_eq_ok_iff.2 h
    have hk' := ofText_eq_ok_iff.2 h'
    refine ⟨.ofScalar k, hk, hk', rfl, rfl, .accessKey (.ofScalar k), ?_, ?_, rfl, rfl⟩
    · rw [Credential.ofAccessKey, hk]
      rfl
    · rw [Credential.ofAccessKey, hk']
      rfl

theorem ofText_reads_either_encoding_one :
    ∃ pair, ofText " KwDiBf89QgGbjEhKnhXJuH7LrciVrZi3qYjgd9M7rFU73sVHnoWn\n" = .ok pair ∧
      ofText "0000000000000000000000000000000000000000000000000000000000000001" = .ok pair ∧
      pair.secret.val = 1 := by
  have hwif : IsWif 1 (Text.trim " KwDiBf89QgGbjEhKnhXJuH7LrciVrZi3qYjgd9M7rFU73sVHnoWn\n") :=
    ⟨_, ⟨mainVersion, by simp, [compressedMark], by simp, rfl⟩, by decide +kernel⟩
  have hhex : IsHex 1
      (Text.trim "0000000000000000000000000000000000000000000000000000000000000001") := by
    rw [IsHex]
    decide +kernel
  obtain ⟨-, -, -, -, -, hsame⟩ := ofText_reads_either_encoding
    " KwDiBf89QgGbjEhKnhXJuH7LrciVrZi3qYjgd9M7rFU73sVHnoWn\n"
  obtain ⟨pair, h, h', hk, -⟩ := hsame _ ⟨1, by decide, by decide⟩ (.inr hwif) (.inl hhex)
  exact ⟨pair, h, h', by rw [hk]⟩

end AccessKey

end RequestAuth
