import RequestAuth.Proofs.Credential
import RequestAuth.Proofs.MessageLayout
import RequestAuth.Proofs.Secp256k1.Ecdsa
import RequestAuth.Verifier

namespace RequestAuth

open ExtendedKey Http Secp256k1

namespace Verifier

theorem publicKey?_identity {c : Credential} {k : Scalar} (hk : c.secret = .ok k) :
    publicKey? c.identityHeader c.identity = some k.publicKey := by
  cases c with
  | xpub node => cases hk
  | xpriv node signs =>
    cases hk
    simp only [publicKey?, Credential.identityHeader, Credential.identity,
      PrivateNode.ofText_neuter]
    exact congrArg some node.pair.publicKey_eq
  | accessKey pair =>
    cases hk
    have hc : pair.publicKey.toPoint.OnCurve := by
      rw [pair.publicKey_eq]
      exact pair.secret.onCurve_publicKey
    simp only [publicKey?, Credential.identityHeader, Credential.identity, AccessKey.identity,
      Hex.decode_encode]
    rw [← pair.publicKey_eq]
    exact PublicKey.ofCompressed?_compressed hc

theorem unsigned_of_all_isDigit {text : String} (h : text.toList.all Char.isDigit) :
    unsigned text = text.toList := by
  rw [unsigned]
  split
  · next rest ht =>
    rw [ht] at h
    cases h
  · rfl

theorem time?_timeText (context : SigningContext) : time? context.timeText = some context.time := by
  have hne : context.timeText.toList ≠ [] := by
    rw [SigningContext.timeText, Nat.toList_repr]
    exact Nat.toDigits_ne_nil
  have hdigits : context.timeText.toList.all Char.isDigit :=
    List.all_eq_true.2 SigningContext.isDigit_of_mem_timeText
  have hlt : context.time.toNat < UInt64.size := context.time.toNat_lt_size
  rw [time?, unsigned_of_all_isDigit hdigits, context.ofDigitChars_timeText,
    if_pos ⟨hne, hdigits, hlt⟩, UInt64.ofNat_toNat]

end Verifier

namespace Canonicalizer

theorem bodyHash_eq_iff {a b : SigningContext} :
    bodyHash a = bodyHash b ↔ Sha256.hash a.body = Sha256.hash b.body :=
  Hex.encode_injective.eq_iff

theorem standardPayload_congr (identity : String) {a b : SigningContext}
    (hbody : Sha256.hash a.body = Sha256.hash b.body) (hnonce : a.nonce = b.nonce)
    (htime : a.time = b.time) : standardPayload identity a = standardPayload identity b := by
  have hh := bodyHash_eq_iff.2 hbody
  simp only [standardPayload, standardMessage, SigningContext.timeText, hh, hnonce, htime]

end Canonicalizer

namespace Credential

def Signs (c : Credential) (digest : Bytes) : Prop := ∃ k, c.secret = .ok k ∧ (sign k digest).isSome

def standardDigest (c : Credential) (context : SigningContext) : Bytes :=
  (Canonicalizer.standardPayload c.identity context).digest

def standardSet (c : Credential) (context : SigningContext) (sig : Signature) : HeaderSet :=
  ⟨c.identityHeader, c.identity, some ⟨Canonicalizer.bodyHash context, context.nonce,
    context.timeText, Hex.encode sig.toBytes⟩⟩

theorem signedSet_standard {c : Credential} {context : SigningContext} {k : Scalar}
    {sig : Signature} (hk : c.secret = .ok k) (hs : sign k (c.standardDigest context) = some sig) :
    c.signedSet .standard context = .ok (c.standardSet context sig) :=
  signedSet_of_sign hk rfl hs

theorem exists_of_build_standard {c : Credential} (hc : c.isSigning) {method : Method}
    {body : Bytes} {place : Option ℕ} {host : Host} {set : HeaderSet}
    (h : (c.build .standard method body place host).outcome = .ok set) :
    let context := SigningContext.ofParts method body (host.draw place).nonce host.now.millis
    ∃ k sig, c.secret = .ok k ∧ sign k (c.standardDigest context) = some sig ∧
      set = c.standardSet context sig := by
  intro context
  rw [outcome_build hc] at h
  obtain ⟨k, hk⟩ := exists_secret_of_isSigning hc
  cases hs : sign k (c.standardDigest context) with
  | none => cases (signedSet_of_sign_none hk rfl hs).symm.trans h
  | some sig =>
    exact ⟨k, sig, hk, hs, Except.ok.inj (h.symm.trans (signedSet_standard hk hs))⟩

end Credential

namespace Verifier

/-- What the verifier computes from a signed set and a request that comes with it. -/
theorem verdict?_standardSet {c : Credential} {context : SigningContext} {k : Scalar}
    (hk : c.secret = .ok k) (sig : Signature) (method : Method) (body : Bytes) :
    verdict? (c.standardSet context sig) method body =
      some (Canonicalizer.bodyHash (.ofParts method body context.nonce context.time) ==
          Canonicalizer.bodyHash context &&
        verify k.publicKey (c.standardDigest (.ofParts method body context.nonce context.time))
          sig) := by
  simp only [verdict?, Credential.standardSet, time?_timeText, publicKey?_identity hk,
    Hex.decode_encode, Option.bind_eq_bind, Option.bind_some, Except.toOption,
    Signature.ofBytes?_toBytes]
  rfl

theorem accepts_of_build {c : Credential} (hc : c.isSigning) {method : Method} {body : Bytes}
    {place : Option ℕ} {host : Host} {set : HeaderSet}
    (h : (c.build .standard method body place host).outcome = .ok set) :
    accepts set method body := by
  obtain ⟨k, sig, hk, hs, rfl⟩ := Credential.exists_of_build_standard hc h
  rw [accepts, verdict?_standardSet hk, Option.getD_some, Bool.and_eq_true, beq_iff_eq]
  exact ⟨rfl, verify_of_sign hs⟩

/-- A verifier takes a set that a credential built for a request together with another request just
if the bodies that count under the two methods have one hash. -/
theorem accepts_build_iff_hash_eq {c : Credential} (hc : c.isSigning) (method : Method)
    (body : Bytes) (place : Option ℕ) (host : Host)
    (hs : c.Signs (c.standardDigest
      (.ofParts method body (host.draw place).nonce host.now.millis))) :
    ∃ set, (c.build .standard method body place host).outcome = .ok set ∧
      ∀ method' body', accepts set method' body' ↔
        Sha256.hash (method'.effectiveBody body') = Sha256.hash (method.effectiveBody body) := by
  obtain ⟨k, hk, hsome⟩ := hs
  obtain ⟨sig, hsig⟩ := Option.isSome_iff_exists.1 hsome
  set context := SigningContext.ofParts method body (host.draw place).nonce host.now.millis
  refine ⟨c.standardSet context sig, ?_, fun method' body' ↦ ?_⟩
  · obtain ⟨log, hb⟩ := Credential.build_of_isSigning hc .standard method body place host
    rw [hb]
    exact Credential.signedSet_standard hk hsig
  · rw [accepts, verdict?_standardSet hk, Option.getD_some, Bool.and_eq_true, beq_iff_eq,
      Canonicalizer.bodyHash_eq_iff]
    constructor
    · exact fun h ↦ h.1
    · intro h
      refine ⟨h, ?_⟩
      have hd : c.standardDigest (.ofParts method' body' context.nonce context.time) =
          c.standardDigest context :=
        congrArg CanonicalPayload.digest (Canonicalizer.standardPayload_congr _ h rfl rfl)
      rw [hd]
      exact verify_of_sign hsig

theorem accepts_build_iff_hash_eq_secret_one :
    (Credential.accessKey (.ofScalar ⟨1, by decide, by decide⟩)).isSigning ∧
      ∃ set, ((Credential.accessKey (.ofScalar ⟨1, by decide, by decide⟩)).build .standard .post
          [1, 2, 3] none (.start ⟨1700000000, 0⟩ (fun _ ↦ .ofNat 24 7))).outcome = .ok set ∧
        ∀ method' body', accepts set method' body' ↔
          Sha256.hash (method'.effectiveBody body') =
            Sha256.hash (Method.post.effectiveBody [1, 2, 3]) :=
  ⟨rfl, accepts_build_iff_hash_eq rfl .post [1, 2, 3] none
    (.start ⟨1700000000, 0⟩ (fun _ ↦ .ofNat 24 7)) ⟨_, rfl, by decide +kernel⟩⟩

end Verifier

end RequestAuth
