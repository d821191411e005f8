import RequestAuth.Authenticator
import RequestAuth.Copies

namespace RequestAuth

open Http

/-- A service that authenticates each request and hands it on to an inner service, and copies of it,
with all the requests that the inner service has been given, in order. -/
structure Relay where
  services : Copies Authenticator
  host : Host
  reached : List Request

namespace Relay

variable {ρ ε : Type}

inductive Readiness (ε : Type)
  | ready
  | pending
  | failing (error : ε)

structure Exchange (ρ ε : Type) where
  request : Request
  readiness : Readiness ε
  answer : Except ε ρ
  cloned : Bool
  /-- The place of the service set aside that the caller goes on with instead. -/
  turn : Option Nat
  dropped : Bool

inductive CallError (ε : Type)
  | authentication (failure : Failure)
  | inner (error : ε)

inductive Pending (ρ ε : Type)
  | refused (failure : Failure)
  | forwarded (answer : Except ε ρ)

def Pending.result : Pending ρ ε → Except (CallError ε) ρ
  | refused failure => .error (.authentication failure)
  | forwarded answer => answer.mapError .inner

inductive Outcome (ρ ε : Type)
  | pending
  | unready (error : ε)
  /-- How many requests had reached the inner service by the time the call returned, and the
  response, unless it was dropped. -/
  | called (reached : Nat) (result : Option (Except (CallError ε) ρ))

def start (authenticator : Authenticator) (host : Host) : Relay := ⟨.one authenticator, host, []⟩

def authenticator (relay : Relay) : Authenticator := relay.services.current

def Exchange.arrange {α : Type} (e : Exchange ρ ε) (services : Copies α) : Copies α :=
  let services := if e.cloned then services.copy else services
  match e.turn with
  | none => services
  | some place => services.turnTo place

def refusalEvent (request : Request) (failure : Failure) : Event :=
  ⟨.warn, "request authentication failed",
    [("method", request.method.text), ("uri", request.uri.text),
      ("configuration", Text.flag (failure.phase = .construction)), ("error", failure.message)]⟩

/-- Authenticates a request and, if that succeeds, hands it on before returning. -/
def call (relay : Relay) (request : Request) (answer : Except ε ρ) : Pending ρ ε × Relay :=
  let result := relay.authenticator.authenticate request relay.host
  match result.outcome with
  | .ok stamped =>
    (.forwarded answer,
      { relay with host := result.host, reached := relay.reached ++ [stamped] })
  | .error failure =>
    (.refused failure, { relay with host := result.host.record (refusalEvent request failure) })

def exchange (relay : Relay) (e : Exchange ρ ε) : Outcome ρ ε × Relay :=
  let relay := { relay with services := e.arrange relay.services }
  match e.readiness with
  | .pending => (.pending, relay)
  | .failing error => (.unready error, relay)
  | .ready =>
    let (pending, relay) := relay.call e.request e.answer
    (.called relay.reached.length (if e.dropped then none else some pending.result), relay)

def run (relay : Relay) : List (Exchange ρ ε) → List (Outcome ρ ε) × Relay
  | [] => ([], relay)
  | first :: rest =>
    let (outcome, relay) := relay.exchange first
    let (outcomes, relay) := relay.run rest
    (outcome :: outcomes, relay)

end Relay

end RequestAuth
