import RequestAuth.Proofs.Attempt
import RequestAuth.Proofs.NonceSupply
import RequestAuth.Proofs.Relay

namespace RequestAuth

open Http Supply

/-- What counts about whoever makes headers: whether they sign and from where they draw. -/
structure Holder where
  signs : Bool
  place : Option ℕ

def Holder.use (holder : Holder) : Use := if holder.signs then .draw holder.place else .rest

def Client.holder (client : Client) : Holder := ⟨client.credential.isSigning, client.source⟩

def Credential.holder (c : Credential) : Holder := ⟨c.isSigning, none⟩

theorem Credential.supply_build (c : Credential) (canonicalizer : Canonicalizer) (method : Method)
    (body : Bytes) (place : Option ℕ) (host : Host) :
    (c.build canonicalizer method body place host).host.supply =
      (host.served (Holder.mk c.isSigning place).use).supply := by
  by_cases hc : c.isSigning
  · obtain ⟨log, hb⟩ := build_of_isSigning hc canonicalizer method body place host
    rw [hb, Holder.use, if_pos hc]
    rfl
  · rw [build_of_not_isSigning hc, Holder.use, if_neg hc]
    rfl

namespace Attempt

def holder (attempt : Attempt) : Holder := ⟨attempt.credential.isSigning, attempt.place⟩

theorem map_nonce_of_built {attempt : Attempt} {host : Host} {set : HeaderSet}
    (h : (attempt.built host).outcome = .ok set) :
    set.signature.map SignatureHeaders.nonce = host.nonce? attempt.holder.use := by
  obtain ⟨signature, rfl, hn⟩ := Credential.exists_of_build h
  rw [hn, Holder.use, holder]
  split <;> rfl

end Attempt

namespace Authenticator

def use : Authenticator → Use
  | client c => c.holder.use
  | credential c => c.holder.use
  | shared inner => inner.use
  | custom _ => .rest

theorem supply_authenticate (authenticator : Authenticator) (request : Request) (host : Host) :
    (authenticator.authenticate request host).host.supply =
      (host.served authenticator.use).supply := by
  induction authenticator with
  | client c => exact c.credential.supply_build _ _ _ _ _
  | credential c => exact c.supply_build _ _ _ _ _
  | shared inner ih => exact ih
  | custom stamp => rfl

theorem use_of_attempt? {authenticator : Authenticator} {request : Request} {attempt : Attempt}
    (h : authenticator.attempt? request = some attempt) :
    attempt.holder.use = authenticator.use := by
  induction authenticator with
  | client c => cases h; rfl
  | credential c => cases h; rfl
  | shared inner ih => exact ih h
  | custom stamp => cases h

end Authenticator

namespace Session

/-- Who holds which source after a step: a clone or a shared reference draws from where the original
does. -/
def Step.hand (holders : Copies Holder) : Step → Copies Holder
  | .copy => holders.copy
  | .turnTo place => holders.turnTo place
  | .useSource place => holders.modify (fun holder ↦ { holder with place })
  | _ => holders

def Step.use (holder : Holder) : Step → Use
  | .build _ | .buildWithoutBody | .buildFor _ _ | .authenticate .client | .authenticate .shared =>
    holder.use
  | .credentialHeaders _ _ | .authenticate .credential => { holder with place := none }.use
  | .addSource source => .add source
  | _ => .rest

def holders (session : Session) (steps : List Step) (i : ℕ) : Copies Holder :=
  (steps.take i).foldl Step.hand (session.clients.map Client.holder)

def before (session : Session) (steps : List Step) (i : ℕ) : Session :=
  (session.run (steps.take i)).2

def history (session : Session) (steps : List Step) : History :=
  .ofRun steps (fun i ↦ (session.before steps i).host)
    (fun i ↦ Step.use (session.holders steps i).current)

section Step

variable {session : Session} {step : Step} {set : HeaderSet}

theorem holders_step (session : Session) (step : Step) :
    (session.step step).2.clients.map Client.holder =
      step.hand (session.clients.map Client.holder) := by
  rw [clients_step]
  cases step with
  | turnTo place => exact Copies.map_turnTo _ _ _
  | _ => rfl

theorem holders_run (session : Session) (steps : List Step) :
    (session.run steps).2.clients.map Client.holder =
      steps.foldl Step.hand (session.clients.map Client.holder) := by
  induction steps generalizing session with
  | nil => rfl
  | cons first rest ih =>
    rw [List.foldl_cons, ← holders_step]
    exact ih (session.step first).2

theorem supply_keep (session : Session) (outcome : Except Failure HeaderSet) :
    (session.keep outcome).2.host.supply = session.host.supply := by
  cases outcome <;> rfl

theorem supply_send (session : Session) (outcome : Except Failure Request) :
    (session.send outcome).2.host.supply = session.host.supply := by
  cases outcome <;> rfl

theorem supply_step (session : Session) (step : Step) :
    (session.step step).2.host.supply =
      (session.host.served (step.use session.client.holder)).supply := by
  cases step with
  | build | buildWithoutBody | buildFor =>
    exact (supply_keep _ _).trans (session.client.credential.supply_build _ _ _ _ _)
  | credentialHeaders =>
    exact (supply_keep _ _).trans (session.client.credential.supply_build _ _ _ _ _)
  | authenticate via =>
    refine (supply_send _ _).trans
      (((session.authenticator via).supply_authenticate _ _).trans ?_)
    cases via <;> rfl
  | apply place =>
    rw [Session.step]
    split
    · rfl
    · exact supply_send _ _
  | _ => rfl

theorem use_of_attempt? {attempt : Attempt} (h : session.attempt? step = some attempt) :
    attempt.holder.use = step.use session.client.holder := by
  cases step with
  | build | buildWithoutBody | buildFor | credentialHeaders => cases h; rfl
  | authenticate via =>
    refine (Authenticator.use_of_attempt? h).trans ?_
    cases via <;> rfl
  | _ => cases h

theorem map_nonce_of_built (h : (session.step step).1 = .built set) :
    set.signature.map SignatureHeaders.nonce =
      session.host.nonce? (step.use session.client.holder) := by
  obtain ⟨attempt, ha, hb⟩ := exists_attempt_of_built h
  rw [Attempt.map_nonce_of_built hb, use_of_attempt? ha]

theorem values_nonce_of_done {via : Via} (h : (session.step (.authenticate via)).1 = .done) :
    (session.step (.authenticate via)).2.request.headers.values AuthHeader.nonce.name =
      (session.host.nonce? ((Step.authenticate via).use session.client.holder)).toList := by
  obtain ⟨attempt, set, ha, hb, hr⟩ := exists_attempt_of_done h
  rw [hr, HeaderSet.values_nonce_stamped, Attempt.map_nonce_of_built hb, use_of_attempt? ha]

end Step

theorem run_append (session : Session) (steps more : List Step) :
    (session.run (steps ++ more)).2 = ((session.run steps).2.run more).2 := by
  induction steps generalizing session with
  | nil => rfl
  | cons first rest ih => exact ih (session.step first).2

theorem before_succ (session : Session) {steps : List Step} {i : ℕ} {step : Step}
    (h : steps[i]? = some step) :
    session.before steps (i + 1) = ((session.before steps i).step step).2 := by
  rw [before, List.take_add_one, h, run_append]
  rfl

theorem holder_before (session : Session) (steps : List Step) (i : ℕ) :
    (session.holders steps i).current = (session.before steps i).client.holder :=
  (congrArg Copies.current (session.holders_run (steps.take i))).symm

/-- What a step tells of a nonce: the one in the set that it answers with, or the one on the request
that it has authenticated. -/
def Shows (session : Session) (steps : List Step) (i : ℕ) (nonce : Option String) : Prop :=
  ∃ step, steps[i]? = some step ∧
    ((∃ set : HeaderSet, ((session.before steps i).step step).1 = .built set ∧
        nonce = set.signature.map SignatureHeaders.nonce) ∨
      ∃ via, step = .authenticate via ∧ ((session.before steps i).step step).1 = .done ∧
        (session.before steps (i + 1)).request.headers.values AuthHeader.nonce.name = nonce.toList)

theorem nonce?_of_shows {session : Session} {steps : List Step} {i : ℕ} {nonce : Option String}
    (h : session.Shows steps i nonce) :
    ∃ step, steps[i]? = some step ∧
      nonce = (session.before steps i).host.nonce?
        (step.use (session.before steps i).client.holder) := by
  obtain ⟨step, hi, hs⟩ := h
  refine ⟨step, hi, ?_⟩
  rcases hs with ⟨set, ha, rfl⟩ | ⟨via, rfl, ha, hv⟩
  · exact map_nonce_of_built ha
  · rw [before_succ session hi, values_nonce_of_done ha] at hv
    exact (eq_of_toList_eq hv).symm

theorem accounts_history (session : Session) (steps : List Step) :
    (session.history steps).Accounts (session.Shows steps) := by
  refine History.accounts_ofRun (fun i step hi ↦ ?_) (fun i hi ↦ ?_) (fun i nonce hn ↦ ?_)
  · rw [before_succ session hi, supply_step, holder_before]
  · rw [before, List.take_add_one, hi, Option.toList_none, List.append_nil, before]
  · rw [holder_before]
    exact nonce?_of_shows hn

end Session

namespace Relay

variable {ρ ε : Type}

def uses (relay : Relay) (es : List (Exchange ρ ε)) (i : ℕ) : Copies Use :=
  (es.take i).foldl (fun uses e ↦ e.arrange uses) (relay.services.map Authenticator.use)

/-- Only the service that a caller turns to draws, and only if the inner service is ready. -/
def Exchange.use (e : Exchange ρ ε) (uses : Copies Use) : Use :=
  match e.readiness with
  | .ready => (e.arrange uses).current
  | .pending | .failing _ => .rest

def history (relay : Relay) (es : List (Exchange ρ ε)) : History :=
  .ofRun es (fun i ↦ (relay.before es i).host) (fun i e ↦ e.use (relay.uses es i))

section Exchange

variable {relay : Relay} {e : Exchange ρ ε}

theorem use_eq (relay : Relay) (h : e.readiness = .ready) :
    e.use (relay.services.map Authenticator.use) = (relay.taker e).use := by
  rw [Exchange.use, h, ← map_arrange]
  rfl

theorem supply_exchange (relay : Relay) (e : Exchange ρ ε) :
    (relay.exchange e).2.host.supply =
      (relay.host.served (e.use (relay.services.map Authenticator.use))).supply := by
  cases hr : e.readiness with
  | pending => rw [exchange_pending hr, Exchange.use, hr]; rfl
  | failing error => rw [exchange_failing hr, Exchange.use, hr]; rfl
  | ready =>
    rw [use_eq relay hr, ← (relay.taker e).supply_authenticate e.request, exchange_ready hr]
    cases hv : relay.verdict e with
    | error failure => rw [call_of_refused hv]; rfl
    | ok stamped => rw [call_of_passed hv]

theorem ready_of_forwarded {stamped : Request} (h : relay.forwarded e = some stamped) :
    e.readiness = .ready := by
  rw [forwarded] at h
  split at h
  · assumption
  · cases h

end Exchange

theorem uses_run (relay : Relay) (es : List (Exchange ρ ε)) :
    (relay.run es).2.services.map Authenticator.use =
      es.foldl (fun uses e ↦ e.arrange uses) (relay.services.map Authenticator.use) := by
  induction es generalizing relay with
  | nil => rfl
  | cons first rest ih =>
    rw [List.foldl_cons, ← map_arrange, ← services_exchange]
    exact ih (relay.exchange first).2

theorem uses_before (relay : Relay) (es : List (Exchange ρ ε)) (i : ℕ) :
    relay.uses es i = (relay.before es i).services.map Authenticator.use :=
  (relay.uses_run (es.take i)).symm

theorem run_append (relay : Relay) (es more : List (Exchange ρ ε)) :
    (relay.run (es ++ more)).2 = ((relay.run es).2.run more).2 := by
  induction es generalizing relay with
  | nil => rfl
  | cons first rest ih => exact ih (relay.exchange first).2

theorem before_add_one (relay : Relay) {es : List (Exchange ρ ε)} {i : ℕ} {e : Exchange ρ ε}
    (h : es[i]? = some e) : relay.before es (i + 1) = ((relay.before es i).exchange e).2 := by
  rw [before, List.take_add_one, h, run_append]
  rfl

/-- The nonce on the request that the inner service gets of an exchange, if a client or a credential
put it there. -/
def Shows (relay : Relay) (es : List (Exchange ρ ε)) (i : ℕ) (nonce : Option String) : Prop :=
  ∃ e stamped, es[i]? = some e ∧ ((relay.before es i).taker e).Builds ∧
    relay.forwardedAt es i = some stamped ∧
    stamped.headers.values AuthHeader.nonce.name = nonce.toList

theorem nonce?_of_shows {relay : Relay} {es : List (Exchange ρ ε)} {i : ℕ}
    {nonce : Option String} (h : relay.Shows es i nonce) :
    ∃ e, es[i]? = some e ∧
      nonce = (relay.before es i).host.nonce?
        (e.use ((relay.before es i).services.map Authenticator.use)) := by
  obtain ⟨e, stamped, hi, hb, hf, hv⟩ := h
  refine ⟨e, hi, ?_⟩
  have hr : e.readiness = .ready := by
    rw [forwardedAt, hi, Option.bind_some] at hf
    exact ready_of_forwarded hf
  obtain ⟨set, ho, -, rfl⟩ :=
    Authenticator.exists_offer_of_authenticate hb (verdict_of_forwardedAt hi hf)
  obtain ⟨attempt, ha, hset⟩ := Authenticator.exists_attempt_of_offer ho
  rw [HeaderSet.values_nonce_stamped, Attempt.map_nonce_of_built hset,
    Authenticator.use_of_attempt? ha] at hv
  rw [use_eq _ hr]
  exact (eq_of_toList_eq hv).symm

theorem accounts_history (relay : Relay) (es : List (Exchange ρ ε)) :
    (relay.history es).Accounts (relay.Shows es) := by
  refine History.accounts_ofRun (fun i e hi ↦ ?_) (fun i hi ↦ ?_) (fun i nonce hn ↦ ?_)
  · rw [before_add_one relay hi, supply_exchange, uses_before]
  · rw [before, List.take_add_one, hi, Option.toList_none, List.append_nil, before]
  · rw [uses_before]
    exact nonce?_of_shows hn

end Relay

theorem Client.supply_ofConfiguration (configuration : Option Configuration) (host : Host) :
    (ofConfiguration configuration host).2.supply = host.supply ∧
      ∀ client, (ofConfiguration configuration host).1 = .ok client → client.source = none := by
  cases configuration with
  | none => exact ⟨rfl, nofun⟩
  | some configuration =>
    rw [ofConfiguration_some]
    refine ⟨?_, fun client h ↦ ?_⟩
    · cases resolve configuration <;> rfl
    · obtain ⟨credential, -, rfl⟩ := exists_of_map_eq_ok h
      rfl

/-- In every session and in every run of a relay each attempt to sign draws one nonce from the source
in force, whatever becomes of it, and nothing else draws any. So a set or a request shows its source's
output after those of all earlier attempts on it, through whichever client or copy they were made.
Clients are made without a draw. -/
theorem draws_accounted_for {ρ ε : Type} :
    (∀ (session : Session) (steps : List Session.Step),
      (session.history steps).Accounts (session.Shows steps)) ∧
    (∀ (relay : Relay) (es : List (Relay.Exchange ρ ε)),
      (relay.history es).Accounts (relay.Shows es)) ∧
    ∀ (configuration : Option Configuration) (host : Host),
      (Client.ofConfiguration configuration host).2.supply = host.supply ∧
        ∀ client, (Client.ofConfiguration configuration host).1 = .ok client →
          client.source = none :=
  ⟨Session.accounts_history, Relay.accounts_history, Client.supply_ofConfiguration⟩

end RequestAuth
