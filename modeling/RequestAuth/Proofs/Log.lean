import RequestAuth.Proofs.NonceDraw
import RequestAuth.Proofs.Relay

namespace RequestAuth

open Http

namespace Credential

def builtEvent (c : Credential) (canonicalizer : Canonicalizer) (method : Method) : Event :=
  if c.isSigning then c.signedEvent method canonicalizer else c.unsignedEvent method

theorem log_build (c : Credential) (canonicalizer : Canonicalizer) (method : Method)
    (body : Bytes) (place : Option ℕ) (host : Host) :
    let built := c.build canonicalizer method body place host
    built.host.log =
      host.log ++
        (built.outcome.toOption.map (fun _ ↦ c.builtEvent canonicalizer method)).toList := by
  by_cases hc : c.isSigning
  · rw [build, if_pos hc, builtEvent, if_pos hc]
    dsimp only
    split
    · exact congrArg (· ++ _) (host.log_draw place)
    · exact (host.log_draw place).trans (List.append_nil _).symm
  · rw [build_of_not_isSigning hc, builtEvent, if_neg hc]
    rfl

end Credential

namespace Authenticator

def events : Authenticator → Request → Host → List Event
  | client c, request, host => ((offer (client c) request host).map
      (fun _ ↦ c.credential.builtEvent c.canonicalizer request.method)).toList
  | credential c, request, host => ((offer (credential c) request host).map
      (fun _ ↦ c.builtEvent .standard request.method)).toList
  | shared inner, request, host => inner.events request host
  | custom _, _, _ => []

theorem log_authenticate (authenticator : Authenticator) (request : Request) (host : Host) :
    (authenticator.authenticate request host).host.log =
      host.log ++ authenticator.events request host := by
  induction authenticator with
  | client c =>
    exact c.credential.log_build c.canonicalizer request.method request.body c.source host
  | credential c => exact c.log_build .standard request.method request.body none host
  | shared inner ih => exact ih
  | custom stamp => exact (List.append_nil _).symm

end Authenticator

namespace Relay

variable {ρ ε : Type}

def refusal (request : Request) : Except Failure Request → List Event
  | .ok _ => []
  | .error failure => [refusalEvent request failure]

def events (relay : Relay) (e : Exchange ρ ε) : List Event :=
  match e.readiness with
  | .ready => (relay.taker e).events e.request relay.host ++ refusal e.request (relay.verdict e)
  | _ => []

def eventsOfRun (relay : Relay) : List (Exchange ρ ε) → List Event
  | [] => []
  | first :: rest => relay.events first ++ (relay.exchange first).2.eventsOfRun rest

theorem log_exchange (relay : Relay) (e : Exchange ρ ε) :
    (relay.exchange e).2.host.log = relay.host.log ++ relay.events e := by
  have ha := (relay.taker e).log_authenticate e.request relay.host
  rw [events]
  cases hr : e.readiness with
  | pending =>
    rw [exchange_pending hr, List.append_nil]
    rfl
  | failing error =>
    rw [exchange_failing hr, List.append_nil]
    rfl
  | ready =>
    rw [exchange_ready hr, ← List.append_assoc, ← ha]
    cases hv : relay.verdict e with
    | ok stamped =>
      rw [call_of_passed hv]
      exact (List.append_nil _).symm
    | error failure =>
      rw [call_of_refused hv]
      rfl

theorem log_run (relay : Relay) (es : List (Exchange ρ ε)) :
    (relay.run es).2.host.log = relay.host.log ++ relay.eventsOfRun es := by
  induction es generalizing relay with
  | nil => exact (List.append_nil _).symm
  | cons first rest ih =>
    refine (ih (relay.exchange first).2).trans ?_
    rw [log_exchange, eventsOfRun, List.append_assoc]

end Relay

end RequestAuth
