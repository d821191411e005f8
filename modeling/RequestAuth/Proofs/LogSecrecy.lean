import RequestAuth.Proofs.AuthenticationFailure
import RequestAuth.Proofs.Log
import RequestAuth.Proofs.Resolution

namespace RequestAuth

open Http

namespace Failure

/-- A failure's message gives its phase away within eleven letters. -/
def phaseOf (message : String) : Phase :=
  if message.toList.take 11 ∈
      ["extended ke".toList, "failed to s".toList, "invalid val".toList] then .request
  else .construction

theorem phaseOf_append (phase : Phase) {text : String}
    (h : 11 ≤ text.toList.length ∧ phaseOf text = phase) (rest : String) :
    phaseOf (text ++ rest) = phase := by
  rw [← h.2, phaseOf, phaseOf, String.toList_append, List.take_append_of_le_length h.1]

theorem phaseOf_message (failure : Failure) : phaseOf failure.message = failure.phase := by
  cases failure with
  | noExtendedKey | noPrivateKey | noConfiguration | noKeys | publicKeyOnly => decide +kernel
  | badExtendedKey reason | badConfiguration reason =>
    exact phaseOf_append .construction (by decide +kernel) reason
  | signing reason => exact phaseOf_append .request (by decide +kernel) reason
  | badPrivateKey wif hex =>
    change phaseOf ("invalid private key encoding: not WIF (" ++ wif ++ "), not hex (" ++ hex ++
      ")") = .construction
    rw [String.append_assoc, String.append_assoc, String.append_assoc]
    exact phaseOf_append .construction (by decide +kernel) _
  | badHeader name reason =>
    change phaseOf ("invalid value for header " ++ name ++ ": " ++ reason) = .request
    rw [String.append_assoc, String.append_assoc]
    exact phaseOf_append .request (by decide +kernel) _

theorem phase_eq_of_message_eq {a b : Failure} (h : a.message = b.message) : a.phase = b.phase := by
  rw [← phaseOf_message, h, phaseOf_message]

end Failure

/-- What a failure to put headers on a request is owed to. -/
inductive Stage
  | canonicalizer
  | signer
  | encoding
  | authenticator
  deriving DecidableEq

/-- How a step ended, as far as its caller may tell anybody. -/
inductive Ending
  | idle
  | success
  | failed (stage : Stage) (message : String)
  deriving DecidableEq

namespace Ending

def of {α : Type} (stage : Stage) : Except Failure α → Ending
  | .ok _ => .success
  | .error failure => .failed stage failure.message

def Unbuilt : Ending → Prop
  | failed .canonicalizer _ | failed .signer _ => True
  | _ => False

theorem of_ne_idle {α : Type} (stage : Stage) (outcome : Except Failure α) :
    of stage outcome ≠ idle := by
  cases outcome <;> nofun

end Ending

structure Credential.Alike (c c' : Credential) : Prop where
  kind : c.kind = c'.kind
  isSigning : c.isSigning = c'.isSigning

/-- What a log tells of whoever makes headers. -/
structure Guise where
  kind : CredentialKind
  signs : Bool
  layout : String

def Client.guise (client : Client) : Guise :=
  ⟨client.credential.kind, client.credential.isSigning, client.canonicalizer.name⟩

def Credential.guise (c : Credential) : Guise := ⟨c.kind, c.isSigning, Canonicalizer.standard.name⟩

theorem Credential.Alike.guise_eq {c c' : Credential} (h : c.Alike c') : c.guise = c'.guise := by
  rw [guise, guise, h.kind, h.isSigning]

namespace Attempt

def told (attempt : Attempt) : Guise × Method :=
  (⟨attempt.credential.kind, attempt.credential.isSigning, attempt.canonicalizer.name⟩,
    attempt.method)

def stage (attempt : Attempt) (host : Host) : Stage :=
  match (attempt.built host).outcome, attempt.canonical host with
  | .ok _, _ => .encoding
  | .error _, .error _ => .canonicalizer
  | .error _, .ok _ => .signer

def events (attempt : Attempt) (host : Host) : List Event :=
  ((attempt.built host).outcome.toOption.map
    (fun _ ↦ attempt.credential.builtEvent attempt.canonicalizer attempt.method)).toList

theorem log_built (attempt : Attempt) (host : Host) :
    (attempt.built host).host.log = host.log ++ attempt.events host :=
  attempt.credential.log_build attempt.canonicalizer attempt.method attempt.body attempt.place host

theorem builtEvent_eq {a b : Attempt} (h : a.told = b.told) :
    a.credential.builtEvent a.canonicalizer a.method =
      b.credential.builtEvent b.canonicalizer b.method := by
  obtain ⟨hg, hm⟩ := Prod.mk.inj h
  obtain ⟨hk, hs, hn⟩ := Guise.mk.inj hg
  simp only [Credential.builtEvent, Credential.signedEvent, Credential.unsignedEvent, hk, hs, hn,
    hm]

theorem events_eq {a b : Attempt} {host host' : Host} (h : a.told = b.told)
    (hb : (∃ failure, (a.built host).outcome = .error failure) ↔
      ∃ failure, (b.built host').outcome = .error failure) : a.events host = b.events host' := by
  rw [events, events, builtEvent_eq h]
  cases ha : (a.built host).outcome with
  | error failure =>
    obtain ⟨failure', hb'⟩ := hb.1 ⟨failure, ha⟩
    rw [hb']
    rfl
  | ok set =>
    cases hb' : (b.built host').outcome with
    | error failure =>
      obtain ⟨failure', ha'⟩ := hb.2 ⟨failure, hb'⟩
      cases ha.symm.trans ha'
    | ok set' => rfl

theorem elim_events_eq {a? b? : Option Attempt} {host host' : Host}
    (h : a?.map told = b?.map told)
    (hb : ∀ a b, a? = some a → b? = some b →
      ((∃ failure, (a.built host).outcome = .error failure) ↔
        ∃ failure, (b.built host').outcome = .error failure)) :
    a?.elim [] (fun a ↦ a.events host) = b?.elim [] (fun b ↦ b.events host') := by
  cases a? with
  | none =>
    cases b? with
    | none => rfl
    | some b => cases h
  | some a =>
    cases b? with
    | none => cases h
    | some b => exact events_eq (Option.some.inj h) (hb a b rfl rfl)

theorem unbuilt_iff {attempt : Attempt} {host : Host} {ending : Ending}
    (hf : ∀ failure, (attempt.built host).outcome = .error failure →
      ending = .failed (attempt.stage host) failure.message)
    (hs : ∀ stage message, ending = .failed stage message → stage = attempt.stage host) :
    ending.Unbuilt ↔ ∃ failure, (attempt.built host).outcome = .error failure := by
  constructor
  · intro h
    cases ho : (attempt.built host).outcome with
    | error failure => exact ⟨failure, rfl⟩
    | ok set =>
      have hl : attempt.stage host = .encoding := by rw [stage, ho]
      cases ending with
      | idle | success => exact h.elim
      | failed stage message =>
        rw [hs stage message rfl, hl] at h
        exact h.elim
  · rintro ⟨failure, ho⟩
    rw [hf failure ho, stage, ho]
    cases attempt.canonical host <;> trivial

end Attempt

namespace Authenticator

def guise : Authenticator → Option Guise
  | client c => some c.guise
  | credential c => some c.guise
  | shared inner => inner.guise
  | custom _ => none

def stage (authenticator : Authenticator) (request : Request) (host : Host) : Stage :=
  match authenticator.attempt? request with
  | some attempt => attempt.stage host
  | none => .authenticator

theorem events_eq (authenticator : Authenticator) (request : Request) (host : Host) :
    authenticator.events request host =
      (authenticator.attempt? request).elim [] (fun attempt ↦ attempt.events host) := by
  induction authenticator with
  | shared inner ih => exact ih
  | _ => rfl

theorem map_told_attempt? (authenticator : Authenticator) (request : Request) :
    (authenticator.attempt? request).map Attempt.told =
      authenticator.guise.map (·, request.method) := by
  induction authenticator with
  | shared inner ih => exact ih
  | _ => rfl

theorem authenticate_of_attempt {authenticator : Authenticator} {request : Request}
    {attempt : Attempt} {host : Host} {failure : Failure}
    (ha : authenticator.attempt? request = some attempt)
    (hb : (attempt.built host).outcome = .error failure) :
    (authenticator.authenticate request host).outcome = .error failure := by
  induction authenticator with
  | client | credential =>
    cases ha
    exact congrArg (· >>= _) hb
  | shared inner ih => exact ih ha
  | custom => cases ha

end Authenticator

namespace Session

def events (session : Session) (step : Step) : List Event :=
  (session.attempt? step).elim [] (fun attempt ↦ attempt.events session.host)

def stage (session : Session) (step : Step) : Stage :=
  match session.attempt? step, step with
  | some attempt, _ => attempt.stage session.host
  | none, .apply _ => .encoding
  | none, _ => .authenticator

def ending (session : Session) (step : Step) : Ending :=
  match (session.step step).1 with
  | .built _ | .done => .success
  | .failed failure => .failed (session.stage step) failure.message
  | .noSet => .idle

def endings (session : Session) : List Step → List Ending
  | [] => []
  | first :: rest => session.ending first :: (session.step first).2.endings rest

/-- The steps do the same, with the same methods, addresses and names of layouts. Bodies, headers,
sources of nonces, clocks and what a layout computes may differ. -/
inductive Step.Alike : Step → Step → Prop
  | build (body body' : String) : Alike (.build body) (.build body')
  | buildWithoutBody : Alike .buildWithoutBody .buildWithoutBody
  | buildFor (method : Method) (body body' : Bytes) :
      Alike (.buildFor method body) (.buildFor method body')
  | credentialHeaders (method : Method) (body body' : Bytes) :
      Alike (.credentialHeaders method body) (.credentialHeaders method body')
  | replaceRequest {request request' : Request} (hm : request.method = request'.method)
      (hu : request.uri = request'.uri) : Alike (.replaceRequest request) (.replaceRequest request')
  | client : Alike (.authenticate .client) (.authenticate .client)
  | shared : Alike (.authenticate .shared) (.authenticate .shared)
  | credential : Alike (.authenticate .credential) (.authenticate .credential)
  | refusing (failure failure' : Failure) :
      Alike (.authenticate (.refusing failure)) (.authenticate (.refusing failure'))
  | apply (place place' : ℕ) : Alike (.apply place) (.apply place')
  | copy : Alike .copy .copy
  | turnTo (place : ℕ) : Alike (.turnTo place) (.turnTo place)
  | addSource (source source' : NonceSource) : Alike (.addSource source) (.addSource source')
  | useSource (place place' : Option ℕ) : Alike (.useSource place) (.useSource place')
  | useCanonicalizer {canonicalizer canonicalizer' : Canonicalizer}
      (h : canonicalizer.name = canonicalizer'.name) :
      Alike (.useCanonicalizer canonicalizer) (.useCanonicalizer canonicalizer')
  | setClock (now now' : Instant) : Alike (.setClock now) (.setClock now')

/-- What a log may depend on is the same in both sessions, and so are the logs up to now. -/
structure Alike (a b : Session) : Prop where
  clients : a.clients.map Client.guise = b.clients.map Client.guise
  method : a.request.method = b.request.method
  log : a.host.log = b.host.log

theorem log_keep (session : Session) (outcome : Except Failure HeaderSet) :
    (session.keep outcome).2.host.log = session.host.log := by
  cases outcome <;> rfl

theorem log_send (session : Session) (outcome : Except Failure Request) :
    (session.send outcome).2.host.log = session.host.log := by
  cases outcome <;> rfl

theorem log_step (session : Session) (step : Step) :
    (session.step step).2.host.log = session.host.log ++ session.events step := by
  cases step with
  | build | buildWithoutBody | buildFor =>
    exact (log_keep _ _).trans (Attempt.log_built (session.client.attempt _ _) _)
  | credentialHeaders method body =>
    exact (log_keep _ _).trans (Attempt.log_built (session.client.credential.attempt method body) _)
  | authenticate via =>
    refine (log_send _ _).trans ?_
    rw [events, attempt?, ← Authenticator.events_eq]
    exact (session.authenticator via).log_authenticate session.request session.host
  | apply place =>
    rw [Session.step]
    split
    · exact (List.append_nil _).symm
    · exact (log_send _ _).trans (List.append_nil _).symm
  | _ => exact (List.append_nil _).symm

def Step.dress (guises : Copies Guise) : Step → Copies Guise
  | .copy => guises.copy
  | .turnTo place => guises.turnTo place
  | .useCanonicalizer canonicalizer =>
    guises.modify (fun guise ↦ { guise with layout := canonicalizer.name })
  | _ => guises

theorem guises_step (session : Session) (step : Step) :
    (session.step step).2.clients.map Client.guise =
      step.dress (session.clients.map Client.guise) := by
  rw [clients_step]
  cases step with
  | turnTo place => exact Copies.map_turnTo _ _ _
  | _ => rfl

theorem Step.Alike.dress_eq {s t : Step} (h : s.Alike t) (guises : Copies Guise) :
    s.dress guises = t.dress guises := by
  cases h with
  | useCanonicalizer hn => rw [dress, dress, hn]
  | _ => rfl

theorem method_step (session : Session) (step : Step) :
    (session.step step).2.request.method =
      match step with
      | .replaceRequest request => request.method
      | _ => session.request.method := by
  have hk (hs : ∀ request, step ≠ .replaceRequest request) :
      (session.step step).2.request.method = session.request.method := by
    rcases session.effect step with ⟨request, h⟩ | ⟨set, -, -, -, -, hr⟩ | ⟨-, -, -, hr⟩
    · exact absurd h (hs request)
    · rw [hr]
      exact (set.sameOtherwise_stamped session.request).method
    · rw [hr]
  cases step with
  | replaceRequest request => rfl
  | _ => exact hk nofun

section Alike

variable {a b : Session} {s t : Step}

theorem Alike.guise_eq (h : a.Alike b) : a.client.guise = b.client.guise :=
  congrArg Copies.current h.clients

theorem Alike.map_told_attempt? (h : a.Alike b) (hs : s.Alike t) :
    (a.attempt? s).map Attempt.told = (b.attempt? t).map Attempt.told := by
  have hg := h.guise_eq
  obtain ⟨hk, hsign, -⟩ := Guise.mk.inj hg
  have hc : a.client.credential.guise = b.client.credential.guise :=
    Credential.Alike.guise_eq ⟨hk, hsign⟩
  cases hs with
  | build | buildWithoutBody | buildFor => exact congrArg (fun guise ↦ some (guise, _)) hg
  | credentialHeaders => exact congrArg (fun guise ↦ some (guise, _)) hc
  | client | shared =>
    simp only [attempt?, Authenticator.map_told_attempt?, authenticator, Authenticator.guise, hg,
      h.method]
  | credential =>
    simp only [attempt?, Authenticator.map_told_attempt?, authenticator, Authenticator.guise, hc,
      h.method]
  | _ => rfl

theorem unbuilt_ending_iff {session : Session} {step : Step} {attempt : Attempt}
    (ha : session.attempt? step = some attempt) :
    (session.ending step).Unbuilt ↔
      ∃ failure, (attempt.built session.host).outcome = .error failure := by
  have hstage : session.stage step = attempt.stage session.host := by
    simp only [stage, ha]
  apply Attempt.unbuilt_iff
  · intro failure hb
    rw [ending, failed_of_attempt ha hb, hstage]
  · intro own message h
    rw [ending] at h
    split at h
    · cases h
    · cases h
    · cases h
      exact hstage
    · cases h

theorem Alike.events_eq (h : a.Alike b) (hs : s.Alike t) (he : a.ending s = b.ending t) :
    a.events s = b.events t := by
  refine Attempt.elim_events_eq (h.map_told_attempt? hs) (fun attempt own ha hb ↦ ?_)
  rw [← unbuilt_ending_iff ha, ← unbuilt_ending_iff hb, he]

theorem Alike.step (h : a.Alike b) (hs : s.Alike t) (he : a.ending s = b.ending t) :
    (a.step s).2.Alike (b.step t).2 where
  clients := by rw [guises_step, guises_step, h.clients, hs.dress_eq]
  method := by
    rw [method_step, method_step]
    cases hs with
    | replaceRequest hm hu => exact hm
    | _ => exact h.method
  log := by rw [log_step, log_step, h.log, h.events_eq hs he]

end Alike

theorem log_run_eq {a b : Session} {steps steps' : List Step} (h : a.Alike b)
    (hs : List.Forall₂ Step.Alike steps steps') (he : a.endings steps = b.endings steps') :
    (a.run steps).2.host.log = (b.run steps').2.host.log := by
  induction hs generalizing a b with
  | nil => exact h.log
  | cons hst _ ih =>
    obtain ⟨hfirst, hrest⟩ := List.cons.inj he
    exact ih (h.step hst hfirst) hrest

end Session

namespace Relay

variable {ρ ε : Type}

def ending (relay : Relay) (e : Exchange ρ ε) : Ending :=
  match e.readiness with
  | .ready => .of ((relay.taker e).stage e.request relay.host) (relay.verdict e)
  | _ => .idle

def endings (relay : Relay) : List (Exchange ρ ε) → List Ending
  | [] => []
  | first :: rest => relay.ending first :: (relay.exchange first).2.endings rest

structure Exchange.Alike (e e' : Exchange ρ ε) : Prop where
  method : e.request.method = e'.request.method
  uri : e.request.uri = e'.request.uri
  cloned : e.cloned = e'.cloned
  turn : e.turn = e'.turn

structure Alike (a b : Relay) : Prop where
  services : a.services.map Authenticator.guise = b.services.map Authenticator.guise
  log : a.host.log = b.host.log

section Exchange

variable {relay : Relay} {e e' : Exchange ρ ε}

theorem ending_of_ready (hr : e.readiness = .ready) :
    relay.ending e = .of ((relay.taker e).stage e.request relay.host) (relay.verdict e) := by
  rw [ending, hr]

theorem ending_eq_idle_iff : relay.ending e = .idle ↔ e.readiness ≠ .ready := by
  rw [ending]
  cases e.readiness with
  | ready => exact iff_of_false (Ending.of_ne_idle _ _) (fun h ↦ h rfl)
  | pending => exact iff_of_true rfl nofun
  | failing error => exact iff_of_true rfl nofun

theorem events_of_ready (hr : e.readiness = .ready) :
    relay.events e =
      (relay.taker e).events e.request relay.host ++ refusal e.request (relay.verdict e) := by
  rw [events, hr]

theorem events_of_not_ready (hr : e.readiness ≠ .ready) : relay.events e = [] := by
  rw [events]
  split
  · next h => exact absurd h hr
  · rfl

theorem unbuilt_ending_iff {attempt : Attempt} (hr : e.readiness = .ready)
    (ha : (relay.taker e).attempt? e.request = some attempt) :
    (relay.ending e).Unbuilt ↔
      ∃ failure, (attempt.built relay.host).outcome = .error failure := by
  have hstage : (relay.taker e).stage e.request relay.host = attempt.stage relay.host := by
    simp only [Authenticator.stage, ha]
  rw [ending_of_ready hr, hstage]
  apply Attempt.unbuilt_iff
  · intro failure hb
    have hv : relay.verdict e = .error failure := Authenticator.authenticate_of_attempt ha hb
    rw [hv]
    rfl
  · intro own message h
    cases hv : relay.verdict e with
    | error failure =>
      rw [hv] at h
      cases h
      rfl
    | ok stamped =>
      rw [hv] at h
      cases h

theorem Exchange.Alike.refusal_eq (he : e.Alike e') {stage stage' : Stage}
    {verdict verdict' : Except Failure Request}
    (h : Ending.of stage verdict = Ending.of stage' verdict') :
    refusal e.request verdict = refusal e'.request verdict' := by
  cases verdict with
  | ok stamped =>
    cases verdict' with
    | ok stamped' => rfl
    | error failure' => cases h
  | error failure =>
    cases verdict' with
    | ok stamped' => cases h
    | error failure' =>
      obtain ⟨-, hm⟩ := Ending.failed.inj h
      simp only [refusal, refusalEvent, he.method, he.uri, hm,
        Failure.phase_eq_of_message_eq hm]

end Exchange

section Alike

variable {a b : Relay} {e e' : Exchange ρ ε}

theorem Exchange.Alike.arrange_eq (he : e.Alike e') {α : Type} (services : Copies α) :
    e.arrange services = e'.arrange services := by
  rw [Exchange.arrange, Exchange.arrange, he.cloned, he.turn]

theorem Alike.guise_taker_eq (h : a.Alike b) (he : e.Alike e') :
    (a.taker e).guise = (b.taker e').guise := by
  have hs : (e.arrange a.services).map Authenticator.guise =
      (e'.arrange b.services).map Authenticator.guise := by
    rw [map_arrange, map_arrange, h.services, he.arrange_eq]
  exact congrArg Copies.current hs

theorem ready_congr (hend : a.ending e = b.ending e') :
    e.readiness = .ready ↔ e'.readiness = .ready := by
  rw [← not_iff_not, ← ne_eq, ← ne_eq, ← ending_eq_idle_iff, ← ending_eq_idle_iff, hend]

theorem Alike.events_eq (h : a.Alike b) (he : e.Alike e') (hend : a.ending e = b.ending e') :
    a.events e = b.events e' := by
  by_cases hr : e.readiness = .ready
  · have hr' := (ready_congr hend).1 hr
    rw [events_of_ready hr, events_of_ready hr', Authenticator.events_eq, Authenticator.events_eq]
    congr 1
    · have ht : ((a.taker e).attempt? e.request).map Attempt.told =
          ((b.taker e').attempt? e'.request).map Attempt.told := by
        rw [Authenticator.map_told_attempt?, Authenticator.map_told_attempt?,
          h.guise_taker_eq he, he.method]
      refine Attempt.elim_events_eq ht (fun attempt own ha hb ↦ ?_)
      rw [← unbuilt_ending_iff hr ha, ← unbuilt_ending_iff hr' hb, hend]
    · rw [ending_of_ready hr, ending_of_ready hr'] at hend
      exact he.refusal_eq hend
  · rw [events_of_not_ready hr, events_of_not_ready (mt (ready_congr hend).2 hr)]

theorem Alike.exchange (h : a.Alike b) (he : e.Alike e') (hend : a.ending e = b.ending e') :
    (a.exchange e).2.Alike (b.exchange e').2 where
  services := by
    rw [services_exchange, services_exchange, map_arrange, map_arrange, h.services, he.arrange_eq]
  log := by rw [log_exchange, log_exchange, h.log, h.events_eq he hend]

end Alike

theorem log_run_eq {a b : Relay} {es es' : List (Exchange ρ ε)} (h : a.Alike b)
    (hs : List.Forall₂ Exchange.Alike es es') (he : a.endings es = b.endings es') :
    (a.run es).2.host.log = (b.run es').2.host.log := by
  induction hs generalizing a b with
  | nil => exact h.log
  | cons hfst _ ih =>
    obtain ⟨hfirst, hrest⟩ := List.cons.inj he
    exact ih (h.exchange hfst hfirst) hrest

end Relay

namespace Client

inductive Origin
  | configuration (given : Option Configuration)
  | credential (credential : Credential)

namespace Origin

def make (origin : Origin) (host : Host) : Except Failure Client × Host :=
  match origin with
  | configuration given => ofConfiguration given host
  | credential c => (.ok (ofCredential c), host)

inductive SameWay : Origin → Origin → Prop
  | configuration (given given' : Option Configuration) :
      SameWay (.configuration given) (.configuration given')
  | credential (c c' : Credential) : SameWay (.credential c) (.credential c')

/-- The log once the client, if it could be made, has done its work. -/
def logAfter (origin : Origin) (host : Host) (work : Client → Host → Host) : List Event :=
  match origin.make host with
  | (.ok client, opened) => (work client opened).log
  | (.error _, opened) => opened.log

variable {a b : Origin} {host host' opened opened' : Host} {client client' : Client}

theorem exists_of_ofConfiguration {given : Option Configuration}
    (h : ofConfiguration given host = (.ok client, opened)) :
    client = ofCredential client.credential ∧
      opened.log = host.log ++ [resolvedEvent client.credential] := by
  cases given with
  | none => cases h
  | some configuration =>
    rw [ofConfiguration_some] at h
    cases hr : resolve configuration with
    | error failure =>
      rw [hr] at h
      cases h
    | ok credential =>
      rw [hr] at h
      cases h
      exact ⟨rfl, rfl⟩

theorem SameWay.alike (h : a.SameWay b) (hl : host.log = host'.log)
    (ha : a.make host = (.ok client, opened)) (hb : b.make host' = (.ok client', opened'))
    (hc : client.credential.Alike client'.credential) :
    client.guise = client'.guise ∧ opened.log = opened'.log := by
  cases h with
  | configuration given given' =>
    obtain ⟨he, hlog⟩ := exists_of_ofConfiguration ha
    obtain ⟨he', hlog'⟩ := exists_of_ofConfiguration hb
    refine ⟨?_, ?_⟩
    · rw [he, he']
      exact hc.guise_eq
    · simp only [hlog, hlog', hl, resolvedEvent, hc.kind, hc.isSigning]
  | credential c c' =>
    cases ha
    cases hb
    exact ⟨hc.guise_eq, hl⟩

theorem log_make_of_error {failure : Failure} (h : (a.make host).1 = .error failure) :
    (a.make host).2.log = host.log := by
  cases a with
  | credential c => cases h
  | configuration given =>
    cases given with
    | none => rfl
    | some configuration =>
      rw [make, ofConfiguration_some] at h ⊢
      cases hr : resolve configuration with
      | error own => rfl
      | ok credential =>
        rw [hr] at h
        cases h

theorem logAfter_of_error {failure : Failure} (h : (a.make host).1 = .error failure)
    (work : Client → Host → Host) : a.logAfter host work = host.log := by
  rw [← log_make_of_error h, logAfter]
  split
  · next hm =>
    rw [hm] at h
    cases h
  · next hm => rw [hm]

end Origin

end Client

/-- Two configurations that agree on all that is not secret, and on which secrets there are. -/
structure Configuration.Alike (a b : Configuration) : Prop where
  xpriv : a.xpriv.isSome = b.xpriv.isSome
  xpub : a.xpub = b.xpub
  accessKey : a.accessKey.isSome = b.accessKey.isSome
  signRequest : a.signRequest = b.signRequest

theorem map_const_eq {α β : Type} {x? y? : Option α} (h : x?.isSome = y?.isSome) (c : β) :
    x?.map (fun _ ↦ c) = y?.map (fun _ ↦ c) := by
  cases x? with
  | none =>
    cases y? with
    | none => rfl
    | some y => cases h
  | some x =>
    cases y? with
    | none => cases h
    | some y => rfl

theorem Configuration.Alike.describe_eq {a b : Configuration} (h : a.Alike b) :
    a.describe = b.describe := by
  simp only [describe, map_const_eq h.xpriv, map_const_eq h.accessKey, h.xpub, h.signRequest]

/-- Whoever reads the log learns the kinds of the credentials, what the requests were for and how
each step ended, but nothing of the keys, headers, bodies, nonces, times and signatures. -/
theorem Client.log_keeps_secrets {ρ ε : Type} :
    (∀ (a b : Origin) (host host' opened opened' : Host) (client client' : Client),
      a.SameWay b → host.log = host'.log → a.make host = (.ok client, opened) →
      b.make host' = (.ok client', opened') → client.credential.Alike client'.credential →
      (∀ steps steps' : List Session.Step, List.Forall₂ Session.Step.Alike steps steps' →
        let session := Session.start client opened
        let session' := Session.start client' opened'
        session.endings steps = session'.endings steps' →
        (session.run steps).2.host.log = (session'.run steps').2.host.log) ∧
      ∀ (sources sources' : List NonceSource) (place place' : Option ℕ)
        (canonicalizer canonicalizer' : Canonicalizer) (es es' : List (Relay.Exchange ρ ε)),
        canonicalizer.name = canonicalizer'.name → List.Forall₂ Relay.Exchange.Alike es es' →
        let relay := Relay.start
          (.client ((client.withSource place).withCanonicalizer canonicalizer))
          { opened with sources }
        let relay' := Relay.start
          (.client ((client'.withSource place').withCanonicalizer canonicalizer'))
          { opened' with sources := sources' }
        relay.endings es = relay'.endings es' →
        (relay.run es).2.host.log = (relay'.run es').2.host.log) ∧
    (∀ (relay relay' : Relay) (es es' : List (Relay.Exchange ρ ε)), relay.Alike relay' →
      List.Forall₂ Relay.Exchange.Alike es es' → relay.endings es = relay'.endings es' →
      (relay.run es).2.host.log = (relay'.run es').2.host.log) ∧
    (∀ (origin : Origin) (host : Host) (failure : Failure),
      (origin.make host).1 = .error failure → ∀ work, origin.logAfter host work = host.log) ∧
    ∀ configuration configuration' : Configuration, configuration.Alike configuration' →
      configuration.describe = configuration'.describe := by
  refine ⟨?_, fun _ _ _ _ ↦ Relay.log_run_eq, fun _ _ _ ↦ Origin.logAfter_of_error,
    fun _ _ ↦ Configuration.Alike.describe_eq⟩
  intro a b host host' opened opened' client client' hway hl ha hb hc
  obtain ⟨hclient, hopened⟩ := hway.alike hl ha hb hc
  refine ⟨?_, ?_⟩
  · exact fun _ _ ↦ Session.log_run_eq ⟨congrArg Copies.one hclient, rfl, hopened⟩
  · intro sources sources' place place' canonicalizer canonicalizer' es es' hn
    refine Relay.log_run_eq ⟨congrArg (fun guise ↦ Copies.one (some guise)) ?_, hopened⟩
    have hguise (own : Client) (layout : Canonicalizer) (at? : Option ℕ) :
        ((own.withSource at?).withCanonicalizer layout).guise =
          ⟨own.credential.kind, own.credential.isSigning, layout.name⟩ := rfl
    rw [hguise, hguise, hc.kind, hc.isSigning, hn]

theorem Session.endings_build {c : Credential} {host : Host} {body : String}
    (hs : c.Signs (c.standardDigest ((c.attempt .post (Bytes.ofText body)).context host))) :
    (start (Client.ofCredential c) host).endings [.build body] = [.success] := by
  have hf : (c.attempt .post (Bytes.ofText body)).fault? host = none :=
    Attempt.fault?_standard rfl nofun
  obtain ⟨set, hb, -⟩ := Attempt.succeeds_of_fault?_eq_none
    (Attempt.isSignable_of_standard rfl hs) hf .blank
  have hbuilt : ((Client.ofCredential c).build body host).outcome = .ok set := hb
  have ha : ((start (Client.ofCredential c) host).step (.build body)).1 = .built set := by
    rw [Session.step, ofBuilt]
    exact congrArg (fun outcome ↦ (keep _ outcome).1) hbuilt
  rw [endings, ending, ha]
  rfl

theorem Session.endings_build_other :
    (start (Client.ofCredential (.accessKey (.ofScalar ⟨2, by decide, by decide⟩)))
      (.start ⟨6, 0⟩ (fun _ ↦ .ofNat 24 8))).endings [.build "other"] = [.success] :=
  endings_build ⟨_, rfl, by decide +kernel⟩

theorem Client.log_keeps_secrets_signed :
    let c := Credential.accessKey (.ofScalar ⟨1, by decide, by decide⟩)
    let c' := Credential.accessKey (.ofScalar ⟨2, by decide, by decide⟩)
    let host : Host := .start ⟨5, 0⟩ (fun _ ↦ .ofNat 24 7)
    let host' : Host := .start ⟨6, 0⟩ (fun _ ↦ .ofNat 24 8)
    let session := Session.start (ofCredential c) host
    let session' := Session.start (ofCredential c') host'
    (host.draw none).nonce ≠ (host'.draw none).nonce ∧
      session.endings [.build "secret"] = [.success] ∧
      (session.run [.build "secret"]).2.host.log =
        (session'.run [.build "other"]).2.host.log := by
  intro c c' host host' session session'
  have hn : (host.draw none).nonce ≠ (host'.draw none).nonce := by decide +kernel
  have he : session.endings [.build "secret"] = [.success] :=
    Session.endings_build ⟨_, rfl, by decide +kernel⟩
  have he' : session'.endings [.build "other"] = [.success] := Session.endings_build_other
  have hlog := (@log_keeps_secrets Unit Unit).1 (.credential c) (.credential c') host host' host
    host' (ofCredential c) (ofCredential c') (.credential c c') rfl rfl rfl ⟨rfl, rfl⟩
  exact ⟨hn, he, hlog.1 _ _ (.cons (.build _ _) .nil) (he.trans he'.symm)⟩

end RequestAuth
