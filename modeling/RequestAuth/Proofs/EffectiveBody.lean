import RequestAuth.Proofs.Authenticator

namespace RequestAuth

open Http

namespace Http

theorem Method.effectiveBody_eq (method : Method) (body : Bytes) :
    method.effectiveBody body =
      if method.text ∈ ["GET", "HEAD", "OPTIONS", "TRACE"] then [] else body :=
  ite_not (method.text ∈ Method.bodiless) body []

theorem Method.effectiveBody_nil (method : Method) : method.effectiveBody ([] : Bytes) = [] := by
  rw [Method.effectiveBody_eq, ite_self]

/-- Two requests have the same body as far as their methods make anything of it. -/
def Request.SameEffect (a b : Request) : Prop :=
  a.method.effectiveBody a.body = b.method.effectiveBody b.body

end Http

/-- What comes of a build by the body that counts, the nonce that is drawn and the time. -/
def Credential.answer (c : Credential) (canonicalizer : Canonicalizer) (context : SigningContext) :
    Except Failure HeaderSet :=
  if c.isSigning then c.signedSet canonicalizer context else .ok c.unsignedSet

theorem Credential.outcome_build_eq_answer (c : Credential) (canonicalizer : Canonicalizer)
    (method : Method) (body : Bytes) (place : Option ℕ) (host : Host) :
    (c.build canonicalizer method body place host).outcome =
      c.answer canonicalizer
        ⟨method.effectiveBody body, (host.draw place).nonce, host.now.millis⟩ := by
  by_cases hc : c.isSigning
  · rw [outcome_build hc, answer, if_pos hc]
    rfl
  · rw [outcome_build_of_not_isSigning hc, answer, if_neg hc]

namespace Client

/-- Two clients of one credential and one layout are about to draw the same nonce at the same
time. -/
structure SameTurn (a b : Client) (host host' : Host) : Prop where
  credential : a.credential = b.credential
  canonicalizer : a.canonicalizer = b.canonicalizer
  nonce : (host.draw a.source).nonce = (host'.draw b.source).nonce
  time : host.now.millis = host'.now.millis

theorem SameTurn.refl (client : Client) (host : Host) : client.SameTurn client host host :=
  ⟨rfl, rfl, rfl, rfl⟩

theorem SameTurn.outcome_eq {client client' : Client} {host host' : Host}
    (h : client.SameTurn client' host host') {method method' : Method} {body body' : Bytes}
    (hb : method.effectiveBody body = method'.effectiveBody body') :
    (client.buildFor method body host).outcome =
      (client'.buildFor method' body' host').outcome := by
  simp only [buildFor, Credential.outcome_build_eq_answer, h.credential, h.canonicalizer, h.nonce,
    h.time, hb]

end Client

namespace HeaderSet

theorem map_values_applyTo (set : HeaderSet) (request request' : Request) :
    (fun stamped (h : AuthHeader) ↦ stamped.headers.values h.name) <$> set.applyTo request =
      (fun stamped (h : AuthHeader) ↦ stamped.headers.values h.name) <$> set.applyTo request' := by
  rw [applyTo, applyTo]
  cases set.toHeaders with
  | error failure => rfl
  | ok fresh =>
    refine congrArg Except.ok (funext fun h ↦ ?_)
    have hs (r : Request) : (Headers.mk (strip r.headers).entries).values h.name = [] :=
      values_strip_auth r.headers h
    simp only [Headers.values_entries_append, hs]

end HeaderSet

namespace Authenticator

def client? : Authenticator → Option Client
  | client c => some c
  | credential c => some (.ofCredential c)
  | shared inner => inner.client?
  | custom _ => none

/-- What an authenticator writes on a request, by the names of the headers. -/
def written (authenticator : Authenticator) (request : Request) (host : Host) :
    Except Failure (AuthHeader → List String) :=
  (fun stamped h ↦ stamped.headers.values h.name) <$>
    (authenticator.authenticate request host).outcome

theorem outcome_authenticate {authenticator : Authenticator} {client : Client}
    (h : authenticator.client? = some client) (request : Request) (host : Host) :
    (authenticator.authenticate request host).outcome =
      (client.buildFor request.method request.body host).outcome >>= (·.applyTo request) := by
  induction authenticator with
  | client c =>
    cases h
    rfl
  | credential c =>
    cases h
    rfl
  | shared inner ih => exact ih h
  | custom stamp => cases h

theorem written_eq {a b : Authenticator} {client client' : Client} {host host' : Host}
    (ha : a.client? = some client) (hb : b.client? = some client')
    (ht : client.SameTurn client' host host') {request request' : Request}
    (hr : request.SameEffect request') : a.written request host = b.written request' host' := by
  rw [written, written, outcome_authenticate ha, outcome_authenticate hb, ht.outcome_eq hr]
  cases (client'.buildFor request'.method request'.body host').outcome with
  | error failure => rfl
  | ok set => exact set.map_values_applyTo request request'

end Authenticator

/-- Of a method and a body a build heeds only the effective body, which four methods leave empty. So
does what an authenticator writes on a request. -/
theorem Client.outcome_depends_on_effective_body {client client' : Client} {host host' : Host}
    (ht : client.SameTurn client' host host') :
    (∀ (method : Method) (body : Bytes), method.effectiveBody body =
      if method.text ∈ ["GET", "HEAD", "OPTIONS", "TRACE"] then [] else body) ∧
    (∀ (method method' : Method) (body body' : Bytes),
      method.effectiveBody body = method'.effectiveBody body' →
        (client.buildFor method body host).outcome =
          (client'.buildFor method' body' host').outcome) ∧
    (∀ (method : Method) (body : Bytes), method.text ∈ ["GET", "HEAD", "OPTIONS", "TRACE"] →
      (client.buildFor method body host).outcome = (client'.buildWithoutBody host').outcome ∧
        (client.buildFor method body host).outcome = (client'.build "" host').outcome) ∧
    ∀ (a b : Authenticator) (request request' : Request), a.client? = some client →
      b.client? = some client' → request.SameEffect request' →
        a.written request host = b.written request' host' := by
  refine ⟨Method.effectiveBody_eq, fun _ _ _ _ ↦ ht.outcome_eq, fun method body hm ↦ ?_,
    fun _ _ _ _ ha hb ↦ Authenticator.written_eq ha hb ht⟩
  have hempty : method.effectiveBody body = Method.post.effectiveBody (Bytes.ofText "") := by
    rw [Method.effectiveBody_eq, if_pos hm]
    exact (Method.effectiveBody_nil .post).symm
  exact ⟨ht.outcome_eq hempty, ht.outcome_eq hempty⟩

theorem Client.outcome_depends_on_effective_body_letter_case :
    let client : Client := .ofCredential (.accessKey (.ofScalar ⟨1, by decide, by decide⟩))
    let host : Host := .start ⟨1700000000, 0⟩ (fun _ ↦ .ofNat 24 7)
    let method (text : String) (h : IsToken text) : Method := ⟨text, h⟩
    client.SameTurn client host host ∧
      (client.buildFor (method "get" (by decide +kernel)) [1, 2, 3] host).outcome =
        (client.buildFor .post [1, 2, 3] host).outcome ∧
      (client.buildFor (method "HEAD" (by decide +kernel)) [1, 2, 3] host).outcome =
        (client.buildFor (method "TRACE" (by decide +kernel)) [4] host).outcome := by
  intro client host method
  have ht : client.SameTurn client host host := .refl client host
  obtain ⟨-, hb, -, -⟩ := Client.outcome_depends_on_effective_body ht
  exact ⟨ht, hb _ _ _ _ (by decide), hb _ _ _ _ (by decide)⟩

end RequestAuth
