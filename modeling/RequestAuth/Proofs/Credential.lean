import RequestAuth.Credential
import RequestAuth.Outcome

namespace RequestAuth

open Http Secp256k1

theorem exists_of_signContext {identity : String} {context : SigningContext}
    {canonicalizer : Canonicalizer} {signer : Signer} {sig : SignatureHeaders}
    (h : signContext identity context canonicalizer signer = .ok sig) :
    ∃ payload signature, canonicalizer.canonicalize identity context = .ok payload ∧
      signer payload.digest = .ok signature ∧
      sig = ⟨payload.bodyHash, context.nonce, context.timeText, Hex.encode signature⟩ := by
  obtain ⟨payload, hp, h⟩ := exists_of_bind_eq_ok h
  obtain ⟨signature, hs, h⟩ := exists_of_bind_eq_ok h
  exact ⟨payload, signature, hp, hs, (Except.ok.inj h).symm⟩

namespace Credential

variable {c : Credential} {canonicalizer : Canonicalizer}

theorem exists_of_signedSet {context : SigningContext} {set : HeaderSet}
    (h : c.signedSet canonicalizer context = .ok set) :
    ∃ k sig, c.secret = .ok k ∧
      signContext c.identity context canonicalizer (.ofSecret k) = .ok sig ∧
      set = ⟨c.identityHeader, c.identity, some sig⟩ := by
  obtain ⟨k, hk, h⟩ := exists_of_bind_eq_ok h
  obtain ⟨sig, hs, h⟩ := exists_of_bind_eq_ok h
  exact ⟨k, sig, hk, hs, (Except.ok.inj h).symm⟩

/-- A credential that signs draws once, and nothing but the log tells afterwards whether a set came
of it. -/
theorem build_of_isSigning (hc : c.isSigning) (canonicalizer : Canonicalizer) (method : Method)
    (body : Bytes) (place : Option Nat) (host : Host) :
    ∃ log, c.build canonicalizer method body place host =
      ⟨c.signedSet canonicalizer (.ofParts method body (host.draw place).nonce host.now.millis),
        { (host.draw place).host with log }⟩ := by
  rw [build, if_pos hc]
  dsimp only
  split
  · next hs => exact ⟨_, by rw [hs]; rfl⟩
  · next hs => exact ⟨_, by rw [hs]⟩

theorem build_of_not_isSigning (hc : ¬ c.isSigning) (canonicalizer : Canonicalizer)
    (method : Method) (body : Bytes) (place : Option Nat) (host : Host) :
    c.build canonicalizer method body place host =
      ⟨.ok c.unsignedSet, host.record (c.unsignedEvent method)⟩ := by
  rw [build, if_neg hc]

theorem exists_secret_of_isSigning (hc : c.isSigning) : ∃ k, c.secret = .ok k := by
  cases c with
  | xpub node => cases hc
  | xpriv node signs => exact ⟨node.pair.secret, rfl⟩
  | accessKey pair => exact ⟨pair.secret, rfl⟩

section SignedSet

variable {k : Scalar} {context : SigningContext} {payload : CanonicalPayload}

theorem signedSet_of_canonicalize_error (hk : c.secret = .ok k) {failure : Failure}
    (hp : canonicalizer.canonicalize c.identity context = .error failure) :
    c.signedSet canonicalizer context = .error failure := by
  rw [signedSet, hk]
  simp only [signContext, hp, bind, Except.bind]

theorem signedSet_of_sign_none (hk : c.secret = .ok k)
    (hp : canonicalizer.canonicalize c.identity context = .ok payload)
    (hs : sign k payload.digest = none) :
    c.signedSet canonicalizer context = .error Signer.refusal := by
  rw [signedSet, hk]
  simp only [signContext, hp, Signer.ofSecret_of_sign_none hs, bind, Except.bind]

theorem signedSet_of_sign {sig : Signature} (hk : c.secret = .ok k)
    (hp : canonicalizer.canonicalize c.identity context = .ok payload)
    (hs : sign k payload.digest = some sig) :
    c.signedSet canonicalizer context =
      .ok ⟨c.identityHeader, c.identity, some ⟨payload.bodyHash, context.nonce, context.timeText,
        Hex.encode sig.toBytes⟩⟩ := by
  rw [signedSet, hk]
  simp only [signContext, hp, Signer.ofSecret_of_sign hs, bind, Except.bind, pure, Except.pure]

end SignedSet

section Build

variable {method : Method} {body : Bytes} {place : Option Nat} {host : Host}

theorem outcome_build (hc : c.isSigning) :
    (c.build canonicalizer method body place host).outcome =
      c.signedSet canonicalizer
        (.ofParts method body (host.draw place).nonce host.now.millis) := by
  obtain ⟨log, hb⟩ := build_of_isSigning hc canonicalizer method body place host
  exact congrArg Built.outcome hb

theorem outcome_build_of_not_isSigning (hc : ¬ c.isSigning) :
    (c.build canonicalizer method body place host).outcome = .ok c.unsignedSet := by
  rw [build_of_not_isSigning hc]

theorem exists_of_build {set : HeaderSet}
    (h : (c.build canonicalizer method body place host).outcome = .ok set) :
    ∃ signature, set = ⟨c.identityHeader, c.identity, signature⟩ ∧
      signature.map SignatureHeaders.nonce =
        if c.isSigning then some (host.draw place).nonce else none := by
  by_cases hc : c.isSigning
  · rw [outcome_build hc] at h
    obtain ⟨k, sig, -, hs, rfl⟩ := exists_of_signedSet h
    obtain ⟨payload, signature, -, -, rfl⟩ := exists_of_signContext hs
    exact ⟨_, rfl, by rw [if_pos hc]; rfl⟩
  · rw [outcome_build_of_not_isSigning hc] at h
    exact ⟨none, (Except.ok.inj h).symm, by rw [if_neg hc]; rfl⟩

theorem isSigning_of_build_error {failure : Failure}
    (h : (c.build canonicalizer method body place host).outcome = .error failure) :
    c.isSigning ∧
      (canonicalizer.canonicalize c.identity
          (.ofParts method body (host.draw place).nonce host.now.millis) = .error failure ∨
        failure = Signer.refusal) := by
  by_cases hc : c.isSigning
  · obtain ⟨k, hk⟩ := exists_secret_of_isSigning hc
    rw [outcome_build hc] at h
    refine ⟨hc, ?_⟩
    cases hp : canonicalizer.canonicalize c.identity
        (.ofParts method body (host.draw place).nonce host.now.millis) with
    | error own =>
      have ho := (signedSet_of_canonicalize_error hk hp).symm.trans h
      exact .inl (congrArg Except.error (Except.error.inj ho))
    | ok payload =>
      cases hs : sign k payload.digest with
      | none => exact .inr (Except.error.inj ((signedSet_of_sign_none hk hp hs).symm.trans h)).symm
      | some sig => cases (signedSet_of_sign hk hp hs).symm.trans h
  · rw [outcome_build_of_not_isSigning hc] at h
    cases h

end Build

end Credential

end RequestAuth
