import RequestAuth.Proofs.ExtendedKeyText
import RequestAuth.Proofs.NonceUniqueness

namespace RequestAuth

open Http

theorem AccessKey.length_identity (pair : Secp256k1.KeyPair) : (identity pair).length = 66 := by
  rw [identity, Hex.length_encode, Block.length_toBytes]

theorem Credential.length_identity {c : Credential} (hc : c.isSigning) :
    c.identity.length = if c.kind = .accessKey then 66 else 111 := by
  cases c with
  | xpub node => cases hc
  | xpriv node signs => exact node.length_text_neuter
  | accessKey pair => exact AccessKey.length_identity pair

namespace Canonicalizer

theorem length_bodyHash (context : SigningContext) : (bodyHash context).length = 64 := by
  rw [bodyHash, Hex.length_encode, Sha256.length_hash]

end Canonicalizer

namespace SigningContext

theorem length_timeText (context : SigningContext) : context.timeText.length ≤ 20 := by
  have hlt : context.time.toNat < 10 ^ 20 := context.time.toNat_lt.trans (by decide)
  exact (Nat.length_repr_le_iff (by decide)).2 hlt

theorem isDigit_of_mem_timeText {context : SigningContext} :
    ∀ c ∈ context.timeText.toList, c.isDigit := by
  intro c hc
  rw [timeText, Nat.toList_repr] at hc
  exact Nat.isDigit_of_mem_toDigits (by decide) (by decide) hc

theorem ofDigitChars_timeText (context : SigningContext) :
    Nat.ofDigitChars 10 context.timeText.toList 0 = context.time.toNat := by
  rw [timeText, Nat.toList_repr, Nat.ofDigitChars_ten_toDigits]

theorem time_eq_of_timeText_eq {a b : SigningContext} (h : a.timeText = b.timeText) :
    a.time = b.time := by
  apply UInt64.toNat_inj.1
  rw [← ofDigitChars_timeText, h, ofDigitChars_timeText]

end SigningContext

namespace Canonicalizer

structure HasWidths (c : Credential) (context : SigningContext) : Prop where
  identity : c.identity.length = if c.kind = .accessKey then 66 else 111
  hash : (bodyHash context).length = 64
  nonce : context.nonce.length = 64
  time : context.timeText.length ≤ 20

theorem hasWidths {c : Credential} (hc : c.isSigning) {host : Host} {place : Option ℕ}
    (hs : host.IsNumbered place) (method : Method) (body : Bytes) (time : UInt64) :
    HasWidths c (.ofParts method body (host.draw place).nonce time) where
  identity := Credential.length_identity hc
  hash := length_bodyHash _
  nonce := by
    rw [← String.length_toList]
    exact (Host.carries_draw hs).length
  time := SigningContext.length_timeText _

theorem toList_standardMessage (identity : String) (context : SigningContext) :
    (standardMessage identity context).toList =
      identity.toList ++ ((bodyHash context).toList ++
        (context.nonce.toList ++ context.timeText.toList)) := by
  simp only [standardMessage, String.toList_append, List.append_assoc]

section Parts

variable {c c' : Credential} {context context' : SigningContext}

/-- The kind of credential can be told from the length of the whole. -/
theorem length_identity_eq (h : HasWidths c context) (h' : HasWidths c' context')
    (hm : standardMessage c.identity context = standardMessage c'.identity context') :
    c.identity.length = c'.identity.length := by
  have hl := congrArg List.length (congrArg String.toList hm)
  simp only [toList_standardMessage, List.length_append, String.length_toList, h.hash, h.nonce,
    h'.hash, h'.nonce] at hl
  have ht := h.time
  have ht' := h'.time
  have hi := h.identity
  have hi' := h'.identity
  split at hi <;> split at hi' <;> omega

theorem parts_eq (h : HasWidths c context) (h' : HasWidths c' context')
    (hm : standardMessage c.identity context = standardMessage c'.identity context') :
    c.identity = c'.identity ∧ bodyHash context = bodyHash context' ∧
      context.nonce = context'.nonce ∧ context.time = context'.time := by
  have hl := congrArg String.toList hm
  rw [toList_standardMessage, toList_standardMessage] at hl
  obtain ⟨hi, hl⟩ := List.append_inj hl (by
    simpa only [String.length_toList] using length_identity_eq h h' hm)
  obtain ⟨hh, hl⟩ := List.append_inj hl (by
    rw [String.length_toList, String.length_toList, h.hash, h'.hash])
  obtain ⟨hn, ht⟩ := List.append_inj hl (by
    rw [String.length_toList, String.length_toList, h.nonce, h'.nonce])
  exact ⟨String.toList_inj.1 hi, String.toList_inj.1 hh, String.toList_inj.1 hn,
    SigningContext.time_eq_of_timeText_eq (String.toList_inj.1 ht)⟩

end Parts

/-- Although nothing stands between the parts of a message, no two requests of any credentials share
one unless all parts are the same. -/
theorem parts_eq_of_message_eq {c c' : Credential} (hc : c.isSigning) (hc' : c'.isSigning)
    {host host' : Host} {place place' : Option ℕ} (hs : host.IsNumbered place)
    (hs' : host'.IsNumbered place') {method method' : Method} {body body' : Bytes}
    {time time' : UInt64}
    {payload payload' : CanonicalPayload}
    (hp : standard.canonicalize c.identity
      (.ofParts method body (host.draw place).nonce time) = .ok payload)
    (hp' : standard.canonicalize c'.identity
      (.ofParts method' body' (host'.draw place').nonce time') = .ok payload')
    (hm : payload.message = payload'.message) :
    HasWidths c (.ofParts method body (host.draw place).nonce time) ∧
      HasWidths c' (.ofParts method' body' (host'.draw place').nonce time') ∧
      c.identity = c'.identity ∧ payload.bodyHash = payload'.bodyHash ∧
      (host.draw place).nonce = (host'.draw place').nonce ∧ time = time' := by
  have h := hasWidths hc hs method body time
  have h' := hasWidths hc' hs' method' body' time'
  cases hp
  cases hp'
  exact ⟨h, h', parts_eq h h' (Bytes.ofText_injective hm)⟩

theorem parts_eq_of_message_eq_get :
    let c := Credential.accessKey (.ofScalar ⟨1, by decide, by decide⟩)
    let host := Host.start ⟨1700000000, 0⟩ (fun _ ↦ .ofNat 24 7)
    let context := SigningContext.ofParts .get [1, 2, 3] (host.draw none).nonce 5
    let context' := SigningContext.ofParts .get [] (host.draw none).nonce 5
    (standardPayload c.identity context).message = (standardPayload c.identity context').message ∧
      HasWidths c context ∧ HasWidths c context' ∧ c.identity = c.identity ∧
      (standardPayload c.identity context).bodyHash =
        (standardPayload c.identity context').bodyHash ∧
      (host.draw none).nonce = (host.draw none).nonce ∧
      (5 : UInt64) = 5 := by
  intro c host context context'
  have hbody : Method.get.effectiveBody ([1, 2, 3] : Bytes) = Method.get.effectiveBody [] := by
    decide
  have hcontext : context = context' := by
    simp only [context, context', SigningContext.ofParts, hbody]
  have hm : (standardPayload c.identity context).message =
      (standardPayload c.identity context').message := by rw [hcontext]
  have hs : host.IsNumbered none := nofun
  exact ⟨hm, parts_eq_of_message_eq rfl rfl hs hs rfl rfl hm⟩

end Canonicalizer

end RequestAuth
