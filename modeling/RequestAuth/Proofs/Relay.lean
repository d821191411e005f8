import RequestAuth.Relay
import RequestAuth.Proofs.Authenticator

namespace RequestAuth

open Http

namespace Relay

variable {ρ ε : Type}

def before (relay : Relay) (es : List (Exchange ρ ε)) (i : ℕ) : Relay := (relay.run (es.take i)).2

def readied (relay : Relay) (e : Exchange ρ ε) : Relay :=
  { relay with services := e.arrange relay.services }

def taker (relay : Relay) (e : Exchange ρ ε) : Authenticator := (e.arrange relay.services).current

def verdict (relay : Relay) (e : Exchange ρ ε) : Except Failure Request :=
  ((relay.taker e).authenticate e.request relay.host).outcome

def forwarded (relay : Relay) (e : Exchange ρ ε) : Option Request :=
  match e.readiness with
  | .ready => (relay.verdict e).toOption
  | _ => none

def forwardedAt (relay : Relay) (es : List (Exchange ρ ε)) (i : ℕ) : Option Request :=
  es[i]?.bind (relay.before es i).forwarded

def Exchange.heard (e : Exchange ρ ε) (result : Except (CallError ε) ρ) :
    Option (Except (CallError ε) ρ) :=
  if e.dropped then none else some result

/-- One exchange took the relay from `relay` to `after` and gave the caller `outcome`. The count
in the outcome was read when the call returned, before anybody asked for the response. -/
structure Handles (relay : Relay) (e : Exchange ρ ε) (outcome : Outcome ρ ε) (after : Relay) :
    Prop where
  pending : e.readiness = .pending → outcome = .pending ∧ after = relay.readied e
  failing : ∀ error, e.readiness = .failing error →
    outcome = .unready error ∧ after = relay.readied e
  refused : ∀ failure, e.readiness = .ready → relay.verdict e = .error failure →
    outcome = .called relay.reached.length (e.heard (.error (.authentication failure))) ∧
      after.reached = relay.reached
  passed : ∀ stamped, e.readiness = .ready → relay.verdict e = .ok stamped →
    outcome = .called (relay.reached.length + 1) (e.heard (e.answer.mapError .inner)) ∧
      after.reached = relay.reached ++ [stamped]

section Exchange

variable {relay : Relay} {e : Exchange ρ ε}

theorem exchange_pending (h : e.readiness = .pending) :
    relay.exchange e = (.pending, relay.readied e) := by
  simp only [exchange, h, readied]

theorem exchange_failing {error : ε} (h : e.readiness = .failing error) :
    relay.exchange e = (.unready error, relay.readied e) := by
  simp only [exchange, h, readied]

theorem exchange_ready (h : e.readiness = .ready) :
    relay.exchange e =
      (.called ((relay.readied e).call e.request e.answer).2.reached.length
        (e.heard ((relay.readied e).call e.request e.answer).1.result),
        ((relay.readied e).call e.request e.answer).2) := by
  simp only [exchange, h, Exchange.heard, readied]

theorem call_of_refused {failure : Failure} (h : relay.verdict e = .error failure) :
    (relay.readied e).call e.request e.answer =
      (.refused failure,
        { relay.readied e with
          host := ((relay.taker e).authenticate e.request relay.host).host.record
            (refusalEvent e.request failure) }) := by
  have ho : ((relay.readied e).authenticator.authenticate e.request
      (relay.readied e).host).outcome = .error failure := h
  rw [call, ho]
  rfl

theorem call_of_passed {stamped : Request} (h : relay.verdict e = .ok stamped) :
    (relay.readied e).call e.request e.answer =
      (.forwarded e.answer,
        { relay.readied e with
          host := ((relay.taker e).authenticate e.request relay.host).host
          reached := relay.reached ++ [stamped] }) := by
  have ho : ((relay.readied e).authenticator.authenticate e.request
      (relay.readied e).host).outcome = .ok stamped := h
  rw [call, ho]
  rfl

theorem services_exchange (relay : Relay) (e : Exchange ρ ε) :
    (relay.exchange e).2.services = e.arrange relay.services := by
  cases hr : e.readiness with
  | pending => rw [exchange_pending hr, readied]
  | failing error => rw [exchange_failing hr, readied]
  | ready =>
    rw [exchange_ready hr]
    cases hv : relay.verdict e with
    | error failure => rw [call_of_refused hv, readied]
    | ok stamped => rw [call_of_passed hv, readied]

theorem map_arrange {α β : Type} (f : α → β) (e : Exchange ρ ε) (services : Copies α) :
    (e.arrange services).map f = e.arrange (services.map f) := by
  have hc : (if e.cloned then services.copy else services).map f =
      if e.cloned then (services.map f).copy else services.map f := by
    split <;> rfl
  rw [Exchange.arrange, Exchange.arrange, ← hc]
  cases e.turn with
  | none => rfl
  | some place => exact Copies.map_turnTo f _ place

theorem mem_of_mem_arrange {α : Type} {services : Copies α} {a : α}
    (h : a ∈ (e.arrange services).toList) : a ∈ services.toList := by
  have hc : a ∈ (if e.cloned then services.copy else services).toList → a ∈ services.toList := by
    split
    · exact Copies.mem_of_mem_copy
    · exact id
  rw [Exchange.arrange] at h
  cases ht : e.turn with
  | none =>
    rw [ht] at h
    exact hc h
  | some place =>
    rw [ht] at h
    exact hc (Copies.mem_of_mem_turnTo h)

theorem taker_mem (relay : Relay) (e : Exchange ρ ε) : relay.taker e ∈ relay.services.toList :=
  mem_of_mem_arrange List.mem_cons_self

end Exchange

theorem handles_exchange (relay : Relay) (e : Exchange ρ ε) :
    relay.Handles e (relay.exchange e).1 (relay.exchange e).2 := by
  constructor
  · intro h
    rw [exchange_pending h]
    exact ⟨rfl, rfl⟩
  · intro error h
    rw [exchange_failing h]
    exact ⟨rfl, rfl⟩
  · intro failure h hv
    rw [exchange_ready h, call_of_refused hv]
    exact ⟨rfl, rfl⟩
  · intro stamped h hv
    rw [exchange_ready h, call_of_passed hv]
    exact ⟨by simp [Pending.result], rfl⟩

theorem reached_exchange (relay : Relay) (e : Exchange ρ ε) :
    (relay.exchange e).2.reached = relay.reached ++ (relay.forwarded e).toList := by
  have h := relay.handles_exchange e
  rw [forwarded]
  cases hr : e.readiness with
  | pending => simp [(h.pending hr).2, readied]
  | failing error => simp [(h.failing error hr).2, readied]
  | ready =>
    cases hv : relay.verdict e with
    | error failure => simp [(h.refused failure hr hv).2, Except.toOption]
    | ok stamped => simp [(h.passed stamped hr hv).2, Except.toOption]

theorem before_succ (relay : Relay) (first : Exchange ρ ε) (rest : List (Exchange ρ ε)) (i : ℕ) :
    relay.before (first :: rest) (i + 1) = (relay.exchange first).2.before rest i := rfl

theorem mem_of_mem_before {relay : Relay} {es : List (Exchange ρ ε)} {i : ℕ} {a : Authenticator}
    (h : a ∈ (relay.before es i).services.toList) : a ∈ relay.services.toList := by
  induction es generalizing relay i with
  | nil => rwa [before, List.take_nil] at h
  | cons first rest ih =>
    cases i with
    | zero => exact h
    | succ i =>
      have hm := ih (before_succ relay first rest i ▸ h)
      rw [services_exchange] at hm
      exact mem_of_mem_arrange hm

theorem forwardedAt_zero (relay : Relay) (first : Exchange ρ ε) (rest : List (Exchange ρ ε)) :
    relay.forwardedAt (first :: rest) 0 = relay.forwarded first := rfl

theorem reached_run (relay : Relay) (es : List (Exchange ρ ε)) :
    (relay.run es).2.reached =
      relay.reached ++ (List.range es.length).filterMap (relay.forwardedAt es) := by
  induction es generalizing relay with
  | nil => simp [run]
  | cons first rest ih =>
    have hr : (relay.run (first :: rest)).2 = ((relay.exchange first).2.run rest).2 := rfl
    rw [hr, ih, reached_exchange, List.length_cons, List.range_succ_eq_map, List.append_assoc]
    congr 1
    rw [List.filterMap_cons, List.filterMap_map]
    have hs : relay.forwardedAt (first :: rest) ∘ Nat.succ =
        (relay.exchange first).2.forwardedAt rest := rfl
    rw [hs, forwardedAt_zero]
    cases relay.forwarded first <;> rfl

theorem length_run (relay : Relay) (es : List (Exchange ρ ε)) :
    (relay.run es).1.length = es.length := by
  induction es generalizing relay with
  | nil => rfl
  | cons first rest ih => exact congrArg (· + 1) (ih (relay.exchange first).2)

theorem handles_run (relay : Relay) (es : List (Exchange ρ ε)) (i : ℕ) (e : Exchange ρ ε)
    (he : es[i]? = some e) : ∃ outcome, (relay.run es).1[i]? = some outcome ∧
      (relay.before es i).Handles e outcome (relay.before es (i + 1)) := by
  induction es generalizing relay i with
  | nil => simp at he
  | cons first rest ih =>
    cases i with
    | zero =>
      obtain rfl : first = e := by simpa using he
      exact ⟨(relay.exchange first).1, rfl, relay.handles_exchange first⟩
    | succ i => exact ih (relay.exchange first).2 i (by simpa using he)

theorem verdict_of_forwardedAt {relay : Relay} {es : List (Exchange ρ ε)} {i : ℕ}
    {e : Exchange ρ ε} {stamped : Request} (he : es[i]? = some e)
    (h : relay.forwardedAt es i = some stamped) : (relay.before es i).verdict e = .ok stamped := by
  rw [forwardedAt, he, Option.bind_some, forwarded] at h
  split at h
  · exact eq_ok_of_toOption h
  · cases h

/-- In every run the inner service gets the requests that were authenticated, in order and before
the calls return. Each is what a copy of the service made of the caller's request, and one that a
client or a credential has authenticated is the caller's with the headers of a set that was built for
it as the only authenticating ones. -/
theorem run_forwards_authenticated (relay : Relay) (es : List (Exchange ρ ε)) :
    (relay.run es).2.reached =
        relay.reached ++ (List.range es.length).filterMap (relay.forwardedAt es) ∧
      (relay.run es).1.length = es.length ∧
      ∀ i e, es[i]? = some e →
        (∃ outcome, (relay.run es).1[i]? = some outcome ∧
          (relay.before es i).Handles e outcome (relay.before es (i + 1))) ∧
        ∀ stamped, relay.forwardedAt es i = some stamped →
          ∃ authenticator ∈ relay.services.toList,
            (authenticator.authenticate e.request (relay.before es i).host).outcome =
              .ok stamped ∧
            (authenticator.Builds → stamped.SameOtherwise e.request ∧ ∃ set : HeaderSet,
              authenticator.offer e.request (relay.before es i).host = some set ∧
              set.OnlyOn stamped.headers) := by
  refine ⟨relay.reached_run es, relay.length_run es, fun i e he ↦
    ⟨relay.handles_run es i e he, fun stamped hs ↦ ?_⟩⟩
  have hv := verdict_of_forwardedAt he hs
  refine ⟨(relay.before es i).taker e, mem_of_mem_before (taker_mem _ e), hv, fun hb ↦
    ⟨Authenticator.sameOtherwise_of_authenticate hb hv, ?_⟩⟩
  obtain ⟨set, ho, -, rfl⟩ := Authenticator.exists_offer_of_authenticate hb hv
  exact ⟨set, ho, set.onlyOn_stamped e.request⟩

/-- An authenticator from outside may send all requests off as posts, and a caller who drops the
response does not hear of a refusal. -/
theorem run_forwards_rewritten :
    let e : Exchange Unit Unit := ⟨.blank, .ready, .ok (), false, none, true⟩
    let host : Host := .start ⟨0, 0⟩ (fun _ ↦ .ofNat 24 0)
    let rewriting := start (.custom (fun _ request ↦ .ok { request with method := .post })) host
    let refusing := start (.refusing (.signing "hardware wallet unplugged")) host
    e.request.method = .get ∧ (rewriting.run [e]).2.reached.map Request.method = [.post] ∧
      (refusing.run [e]).1 = [.called 0 none] := by
  intro e host rewriting refusing
  exact ⟨rfl, rfl, rfl⟩

end Relay

end RequestAuth
