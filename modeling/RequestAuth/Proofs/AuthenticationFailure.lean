import RequestAuth.Proofs.Attempt
import RequestAuth.Proofs.Verification

namespace RequestAuth

open Http Secp256k1

section Values

theorem isValue_of_hex {text : String} (h : ∀ c ∈ text.toList, c ∈ "0123456789abcdef".toList) :
    IsValue text := by
  have hdigits : IsValue "0123456789abcdef" := by decide
  exact List.all_eq_true.2 (fun c hc ↦ List.all_eq_true.1 hdigits c (h c hc))

theorem Hex.isValue_encode (bytes : Bytes) : IsValue (encode bytes) := by
  apply isValue_of_hex
  intro c hc
  rw [encode, String.toList_ofList] at hc
  exact mem_of_mem_encodeChars hc

theorem Base58.isValue_encode (bytes : Bytes) : IsValue (encode bytes) := by
  have hdigits : ∀ d < 58, isValueChar (digitChar d) := by decide
  rw [IsValue, encode, String.toList_ofList, encodeChars_eq_map, List.all_eq_true]
  intro c hc
  obtain ⟨d, hd, rfl⟩ := List.mem_map.1 hc
  exact hdigits d (digitList_lt bytes d hd)

theorem isValueChar_of_isDigit {c : Char} (h : c.isDigit) : isValueChar c := by
  simp only [Char.isDigit, Bool.and_eq_true, decide_eq_true_eq, ge_iff_le,
    UInt32.le_iff_toNat_le] at h
  have hl : 48 ≤ c.toNat := h.1
  have hu : c.toNat ≤ 57 := h.2
  simp only [isValueChar, Bool.or_eq_true, Bool.and_eq_true, decide_eq_true_eq]
  omega

theorem SigningContext.isValue_timeText (context : SigningContext) :
    IsValue context.timeText :=
  List.all_eq_true.2 (fun c hc ↦ isValueChar_of_isDigit (isDigit_of_mem_timeText c hc))

theorem Credential.isValue_identity (c : Credential) : IsValue c.identity := by
  cases c with
  | xpub node => exact Base58.isValue_encode _
  | xpriv node signs => exact Base58.isValue_encode _
  | accessKey pair => exact Hex.isValue_encode _

end Values

def digestFault? (digest : Bytes) : Option Failure :=
  if digest.length < 16 then some Signer.refusal else none

theorem eq_of_digestFault? {digest : Bytes} {failure : Failure}
    (h : digestFault? digest = some failure) : failure = Signer.refusal := by
  rw [digestFault?] at h
  split at h
  · exact (Option.some.inj h).symm
  · cases h

namespace HeaderSet

theorem findSome?_unsigned (c : Credential) :
    c.unsignedSet.toList.findSome? valueFault? = none := by
  have hi : valueFault? (c.identityHeader.toAuthHeader, c.identity) = none :=
    valueFault?_of_isValue c.isValue_identity
  simp only [Credential.unsignedSet, toList, List.findSome?_cons, hi, List.findSome?_nil]

theorem findSome?_signed (c : Credential) (context : SigningContext) (hash : String)
    (signature : Bytes) :
    (HeaderSet.mk c.identityHeader c.identity (some ⟨hash, context.nonce, context.timeText,
        Hex.encode signature⟩)).toList.findSome? valueFault? =
      (valueFault? (.hash, hash)).or (valueFault? (.nonce, context.nonce)) := by
  have hi : valueFault? (c.identityHeader.toAuthHeader, c.identity) = none :=
    valueFault?_of_isValue c.isValue_identity
  have ht : valueFault? (.time, context.timeText) = none :=
    valueFault?_of_isValue context.isValue_timeText
  have hs : valueFault? (.signature, Hex.encode signature) = none :=
    valueFault?_of_isValue (Hex.isValue_encode signature)
  simp only [toList, List.findSome?_cons, hi, ht, hs, List.findSome?_nil]
  cases valueFault? (.hash, hash) <;> cases valueFault? (.nonce, context.nonce) <;> rfl

end HeaderSet

namespace Attempt

variable {attempt : Attempt} {host : Host}

def canonical (attempt : Attempt) (host : Host) : Except Failure CanonicalPayload :=
  attempt.canonicalizer.canonicalize attempt.credential.identity (attempt.context host)

/-- The signer turns the digest down only if it is short. -/
def IsSignable (attempt : Attempt) (host : Host) : Prop :=
  attempt.credential.isSigning → ∀ payload, attempt.canonical host = .ok payload →
    16 ≤ payload.digest.length → attempt.credential.Signs payload.digest

theorem isSignable_of_standard (hc : attempt.canonicalizer = .standard)
    (hs : attempt.credential.Signs
      (attempt.credential.standardDigest (attempt.context host))) : attempt.IsSignable host := by
  intro _ payload hp _
  rw [canonical, hc] at hp
  cases hp
  exact hs

def buildFault? (attempt : Attempt) (host : Host) : Option Failure :=
  if attempt.credential.isSigning then
    match attempt.canonical host with
    | .error failure => some failure
    | .ok payload => digestFault? payload.digest
  else none

def sendFault? (attempt : Attempt) (host : Host) : Option Failure :=
  if attempt.credential.isSigning then
    match attempt.canonical host with
    | .error _ => none
    | .ok payload =>
      (HeaderSet.valueFault? (.hash, payload.bodyHash)).or
        (HeaderSet.valueFault? (.nonce, (attempt.context host).nonce))
  else none

def fault? (attempt : Attempt) (host : Host) : Option Failure :=
  (attempt.buildFault? host).or (attempt.sendFault? host)

def sent (attempt : Attempt) (host : Host) (request : Request) : Except Failure Request :=
  (attempt.built host).outcome >>= (·.applyTo request)

theorem failsOf_built (hs : attempt.IsSignable host) :
    FailsOf (attempt.built host).outcome (attempt.buildFault? host) := by
  rw [buildFault?]
  by_cases hc : attempt.credential.isSigning
  · rw [if_pos hc, built, Credential.outcome_build hc]
    obtain ⟨k, hk⟩ := Credential.exists_secret_of_isSigning hc
    cases hp : attempt.canonical host with
    | error failure => exact .of_error (Credential.signedSet_of_canonicalize_error hk hp)
    | ok payload =>
      by_cases hl : payload.digest.length < 16
      · simp only [digestFault?, if_pos hl]
        exact .of_error (Credential.signedSet_of_sign_none hk hp (sign_of_short hl k))
      · simp only [digestFault?, if_neg hl]
        obtain ⟨k', hk', hsome⟩ := hs hc payload hp (Nat.le_of_not_lt hl)
        obtain ⟨sig, hsig⟩ := Option.isSome_iff_exists.1 hsome
        exact .of_ok (Credential.signedSet_of_sign hk' hp hsig)
  · rw [if_neg hc]
    exact .of_ok (Credential.outcome_build_of_not_isSigning hc)

theorem failsOf_applyTo {set : HeaderSet} (hb : (attempt.built host).outcome = .ok set)
    (request : Request) : FailsOf (set.applyTo request) (attempt.sendFault? host) := by
  have h := set.failsOf_applyTo request
  rw [sendFault?]
  by_cases hc : attempt.credential.isSigning
  · rw [built, Credential.outcome_build hc] at hb
    obtain ⟨k, sig, -, hsig, rfl⟩ := Credential.exists_of_signedSet hb
    obtain ⟨payload, signature, hp, -, rfl⟩ := exists_of_signContext hsig
    have hcanon : attempt.canonical host = .ok payload := hp
    rw [HeaderSet.findSome?_signed] at h
    rw [if_pos hc, hcanon]
    exact h
  · obtain rfl := Except.ok.inj ((Credential.outcome_build_of_not_isSigning hc).symm.trans hb)
    rwa [if_neg hc, ← HeaderSet.findSome?_unsigned attempt.credential]

theorem failsOf_sent (hs : attempt.IsSignable host) (request : Request) :
    FailsOf (attempt.sent host request) (attempt.fault? host) :=
  (failsOf_built hs).bind (fun _ hb ↦ failsOf_applyTo hb request)

def Succeeds (attempt : Attempt) (host : Host) (request : Request) : Prop :=
  ∃ set, (attempt.built host).outcome = .ok set ∧
    attempt.sent host request = .ok (set.stamped request)

theorem succeeds_of_fault?_eq_none (hs : attempt.IsSignable host) (hf : attempt.fault? host = none)
    (request : Request) : attempt.Succeeds host request := by
  have h := failsOf_sent hs request
  rw [hf] at h
  obtain ⟨result, hr⟩ := h.exists_ok
  obtain ⟨set, hb, ha⟩ := exists_of_bind_eq_ok hr
  obtain ⟨-, rfl⟩ := HeaderSet.applyTo_eq_ok_iff.1 ha
  exact ⟨set, hb, hr⟩

theorem fault?_of_not_isSigning (hc : ¬ attempt.credential.isSigning) :
    attempt.fault? host = none := by
  rw [fault?, buildFault?, sendFault?, if_neg hc, if_neg hc]
  rfl

theorem fault?_standard (hc : attempt.canonicalizer = .standard)
    (hn : host.IsNumbered attempt.place) : attempt.fault? host = none := by
  have hp : attempt.canonical host =
      .ok (Canonicalizer.standardPayload attempt.credential.identity (attempt.context host)) := by
    rw [canonical, hc]
    rfl
  have hd : digestFault? (Canonicalizer.standardPayload attempt.credential.identity
      (attempt.context host)).digest = none :=
    if_neg (by simp [Canonicalizer.standardPayload])
  have hh : HeaderSet.valueFault? (.hash, (Canonicalizer.standardPayload
      attempt.credential.identity (attempt.context host)).bodyHash) = none :=
    HeaderSet.valueFault?_of_isValue (Hex.isValue_encode _)
  have hv : HeaderSet.valueFault? (.nonce, (attempt.context host).nonce) = none :=
    HeaderSet.valueFault?_of_isValue (isValue_of_hex (Host.carries_draw hn).digits)
  simp only [fault?, buildFault?, sendFault?, hp, hd, hh, hv, Option.or_none, ite_self]

theorem name_of_fault? {name reason : String}
    (h : attempt.fault? host = some (.badHeader name reason)) :
    attempt.canonical host = .error (.badHeader name reason) ∨
      name = AuthHeader.hash.text ∨ name = AuthHeader.nonce.text := by
  by_cases hc : attempt.credential.isSigning
  · cases hp : attempt.canonical host with
    | error failure =>
      simp only [fault?, buildFault?, hc, hp, if_true, Option.some_or] at h
      exact .inl (congrArg Except.error (Option.some.inj h))
    | ok payload =>
      simp only [fault?, buildFault?, sendFault?, hc, hp, if_true, Option.or_eq_some_iff] at h
      rcases h with hd | ⟨-, hh | ⟨-, hv⟩⟩
      · cases eq_of_digestFault? hd
      · cases HeaderSet.eq_of_valueFault? hh
        exact .inr (.inl rfl)
      · cases HeaderSet.eq_of_valueFault? hv
        exact .inr (.inr rfl)
  · rw [fault?_of_not_isSigning hc] at h
    cases h

end Attempt

/-- Authenticating fails of the first fault that there is, and of nothing else. The headers that may
be at fault are those of the hash and of the nonce. -/
theorem Client.authenticate_fails_of_first_fault {client : Client} {request : Request}
    {host : Host} (hs : (client.attempt request.method request.body).IsSignable host) :
    let attempt := client.attempt request.method request.body
    let sent := ((Authenticator.client client).authenticate request host).outcome
    FailsOf (client.buildFor request.method request.body host).outcome (attempt.buildFault? host) ∧
      FailsOf sent (attempt.fault? host) ∧
      (attempt.fault? host = none → attempt.Succeeds host request) ∧
      (¬ client.credential.isSigning → attempt.Succeeds host request) ∧
      (client.canonicalizer = .standard → host.IsNumbered client.source →
        attempt.Succeeds host request) ∧
      ∀ name reason, sent = .error (.badHeader name reason) →
        attempt.canonical host = .error (.badHeader name reason) ∨
          name = "X-Auth-Hash" ∨ name = "X-Auth-Nonce" := by
  intro attempt sent
  have hsent : FailsOf sent (attempt.fault? host) := Attempt.failsOf_sent hs request
  have hok : attempt.fault? host = none → attempt.Succeeds host request :=
    fun hf ↦ Attempt.succeeds_of_fault?_eq_none hs hf request
  refine ⟨Attempt.failsOf_built hs, hsent, hok, ?_, ?_, ?_⟩
  · exact fun hc ↦ hok (Attempt.fault?_of_not_isSigning hc)
  · exact fun hc hn ↦ hok (Attempt.fault?_standard hc hn)
  · exact fun name reason h ↦ Attempt.name_of_fault? ((hsent _).1 h)

theorem Client.authenticate_fails_of_first_fault_line_break :
    let client : Client := ⟨.accessKey (.ofScalar ⟨1, by decide, by decide⟩), some 0,
      .fixed "fixed" ⟨"00", [], List.replicate 16 7⟩⟩
    let host := (Host.start ⟨1700000000, 0⟩ (fun _ ↦ .ofNat 24 7)).addSource (.cycle ["a\nb"])
    (client.attempt .get []).IsSignable host ∧
      (∃ set, (client.buildFor .get [] host).outcome = .ok set) ∧
      ((Authenticator.client client).authenticate .blank host).outcome =
        .error (.badHeader "X-Auth-Nonce" HeaderSet.valueComplaint) := by
  intro client host
  have hs : (client.attempt .get []).IsSignable host := by
    rintro - payload ⟨⟩ -
    exact ⟨_, rfl, by decide +kernel⟩
  obtain ⟨hbuilt, hsent, -⟩ := @Client.authenticate_fails_of_first_fault client .blank host hs
  exact ⟨hs, hbuilt.exists_ok, (hsent _).2 (by decide +kernel)⟩

end RequestAuth
