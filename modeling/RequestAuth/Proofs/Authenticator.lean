import RequestAuth.Authenticator
import RequestAuth.Proofs.Credential
import RequestAuth.Proofs.HeaderSet

namespace RequestAuth

open Http

namespace Client

def opened (host : Host) (resolved : Except Failure Credential) : Except Failure Client × Host :=
  (ofCredential <$> resolved,
    match resolved with
    | .ok credential => host.record (resolvedEvent credential)
    | .error _ => host)

theorem ofConfiguration_some (configuration : Configuration) (host : Host) :
    ofConfiguration (some configuration) host = opened host (resolve configuration) := by
  rw [ofConfiguration]
  cases resolve configuration <;> rfl

end Client

namespace Authenticator

def offer : Authenticator → Request → Host → Option HeaderSet
  | client c, request, host => (c.buildFor request.method request.body host).outcome.toOption
  | credential c, request, host =>
    (c.buildPlain request.method request.body host).outcome.toOption
  | shared inner, request, host => inner.offer request host
  | custom _, _, _ => none

/-- The authenticator is a client, a credential or a shared one of these. -/
def Builds : Authenticator → Prop
  | client _ | credential _ => True
  | shared inner => inner.Builds
  | custom _ => False

theorem exists_ok_of_bind_applyTo {offer : Except Failure HeaderSet} {request stamped : Request}
    (h : offer >>= (·.applyTo request) = .ok stamped) :
    ∃ set, offer = .ok set ∧ set.Sendable ∧ stamped = set.stamped request := by
  obtain ⟨set, ho, ha⟩ := exists_of_bind_eq_ok h
  exact ⟨set, ho, HeaderSet.applyTo_eq_ok_iff.1 ha⟩

variable {authenticator : Authenticator} {request stamped : Request} {host : Host}

theorem exists_offer_of_authenticate (hb : authenticator.Builds)
    (h : (authenticator.authenticate request host).outcome = .ok stamped) :
    ∃ set, authenticator.offer request host = some set ∧ set.Sendable ∧
      stamped = set.stamped request := by
  induction authenticator with
  | client c =>
    obtain ⟨set, ho, hs⟩ := exists_ok_of_bind_applyTo h
    exact ⟨set, by rw [offer, ho, Except.toOption], hs⟩
  | credential c =>
    obtain ⟨set, ho, hs⟩ := exists_ok_of_bind_applyTo h
    exact ⟨set, by rw [offer, ho, Except.toOption], hs⟩
  | shared inner ih => exact ih hb h
  | custom stamp => exact hb.elim

theorem sameOtherwise_of_authenticate (hb : authenticator.Builds)
    (h : (authenticator.authenticate request host).outcome = .ok stamped) :
    stamped.SameOtherwise request := by
  obtain ⟨set, -, -, rfl⟩ := exists_offer_of_authenticate hb h
  exact set.sameOtherwise_stamped request

end Authenticator

end RequestAuth
