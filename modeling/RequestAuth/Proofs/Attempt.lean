import RequestAuth.Proofs.Session

namespace RequestAuth

open Http

/-- A build of headers: whose they are, how they are made and for what. -/
structure Attempt where
  credential : Credential
  canonicalizer : Canonicalizer
  place : Option ℕ
  method : Method
  body : Bytes

namespace Attempt

def built (attempt : Attempt) (host : Host) : Built :=
  attempt.credential.build attempt.canonicalizer attempt.method attempt.body attempt.place host

def context (attempt : Attempt) (host : Host) : SigningContext :=
  .ofParts attempt.method attempt.body (host.draw attempt.place).nonce host.now.millis

end Attempt

def Client.attempt (client : Client) (method : Method) (body : Bytes) : Attempt :=
  ⟨client.credential, client.canonicalizer, client.source, method, body⟩

def Credential.attempt (credential : Credential) (method : Method) (body : Bytes) : Attempt :=
  ⟨credential, .standard, none, method, body⟩

namespace Authenticator

def attempt? : Authenticator → Request → Option Attempt
  | client c, request => some (c.attempt request.method request.body)
  | credential c, request => some (c.attempt request.method request.body)
  | shared inner, request => inner.attempt? request
  | custom _, _ => none

theorem exists_attempt_of_offer {authenticator : Authenticator} {request : Request} {host : Host}
    {set : HeaderSet} (h : authenticator.offer request host = some set) :
    ∃ attempt, authenticator.attempt? request = some attempt ∧
      (attempt.built host).outcome = .ok set := by
  induction authenticator with
  | client c => exact ⟨_, rfl, eq_ok_of_toOption h⟩
  | credential c => exact ⟨_, rfl, eq_ok_of_toOption h⟩
  | shared inner ih => exact ih h
  | custom stamp => cases h

end Authenticator

namespace Session

def attempt? (session : Session) : Step → Option Attempt
  | .build body => some (session.client.attempt .post (Bytes.ofText body))
  | .buildWithoutBody => some (session.client.attempt .post (Bytes.ofText ""))
  | .buildFor method body => some (session.client.attempt method body)
  | .credentialHeaders method body => some (session.client.credential.attempt method body)
  | .authenticate via => (session.authenticator via).attempt? session.request
  | _ => none

section Attempt

variable {session : Session} {step : Step} {set : HeaderSet} {failure : Failure}

theorem credential_of_attempt? {attempt : Attempt} (h : session.attempt? step = some attempt) :
    attempt.credential = session.client.credential := by
  cases step with
  | authenticate via =>
    cases via with
    | client | shared | credential => cases h; rfl
    | refusing failure => cases h
  | build | buildWithoutBody | buildFor | credentialHeaders => cases h; rfl
  | _ => cases h

theorem keep_eq_built {outcome : Except Failure HeaderSet}
    (h : (session.keep outcome).1 = .built set) : outcome = .ok set := by
  cases outcome with
  | error failure => cases h
  | ok own => cases h; rfl

theorem keep_eq_failed {outcome : Except Failure HeaderSet}
    (h : (session.keep outcome).1 = .failed failure) : outcome = .error failure := by
  cases outcome with
  | error own => cases h; rfl
  | ok set => cases h

theorem send_ne_built {outcome : Except Failure Request} :
    (session.send outcome).1 ≠ .built set := by
  cases outcome <;> nofun

theorem send_eq_failed {outcome : Except Failure Request}
    (h : (session.send outcome).1 = .failed failure) : outcome = .error failure := by
  cases outcome with
  | error own => cases h; rfl
  | ok request => cases h

theorem exists_attempt_of_built (h : (session.step step).1 = .built set) :
    ∃ attempt, session.attempt? step = some attempt ∧
      (attempt.built session.host).outcome = .ok set := by
  cases step with
  | authenticate via => exact absurd h send_ne_built
  | apply place =>
    rw [Session.step] at h
    split at h
    · cases h
    · exact absurd h send_ne_built
  | build | buildWithoutBody | buildFor | credentialHeaders => exact ⟨_, rfl, keep_eq_built h⟩
  | _ => cases h

theorem exists_attempt_of_done {via : Via} (h : (session.step (.authenticate via)).1 = .done) :
    ∃ attempt set, session.attempt? (.authenticate via) = some attempt ∧
      (attempt.built session.host).outcome = .ok set ∧
      (session.step (.authenticate via)).2.request = set.stamped session.request := by
  rcases session.effect (.authenticate via) with ⟨_, hs⟩ | ⟨set, ho, -, -, -, hr⟩ | ⟨-, ha, -, -⟩
  · cases hs
  · obtain ⟨attempt, hat, hb⟩ := Authenticator.exists_attempt_of_offer ho
    exact ⟨attempt, set, hat, hb, hr⟩
  · exact absurd h (ha trivial)

/-- What a step may fail of: the authenticator's refusal, the build, or a value that may not be
sent. -/
inductive Fails (session : Session) (step : Step) (failure : Failure) : Prop
  | refused (hs : step = .authenticate (.refusing failure))
  | unbuilt (attempt : Attempt) (ha : session.attempt? step = some attempt)
      (hb : (attempt.built session.host).outcome = .error failure)
  | unsendable (set : HeaderSet) (ha : set.applyTo session.request = .error failure)

theorem fails_of_bind_applyTo {attempt : Attempt} (ha : session.attempt? step = some attempt)
    (h : (attempt.built session.host).outcome >>= (·.applyTo session.request) = .error failure) :
    session.Fails step failure := by
  cases hb : (attempt.built session.host).outcome with
  | error own =>
    rw [hb] at h
    cases h
    exact .unbuilt attempt ha hb
  | ok set =>
    rw [hb] at h
    exact .unsendable set h

theorem fails_of_failed (h : (session.step step).1 = .failed failure) :
    session.Fails step failure := by
  cases step with
  | authenticate via =>
    cases via with
    | client | shared => exact fails_of_bind_applyTo rfl (send_eq_failed h)
    | credential => exact fails_of_bind_applyTo rfl (send_eq_failed h)
    | refusing own =>
      cases send_eq_failed h
      exact .refused rfl
  | apply place =>
    rw [Session.step] at h
    split at h
    · cases h
    · next set _ => exact .unsendable set (send_eq_failed h)
  | build | buildWithoutBody | buildFor | credentialHeaders =>
    exact .unbuilt _ rfl (keep_eq_failed h)
  | _ => cases h

end Attempt

end Session

end RequestAuth
