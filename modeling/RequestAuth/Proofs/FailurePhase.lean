import RequestAuth.Configuration.File
import RequestAuth.Proofs.Log
import RequestAuth.Proofs.Resolution

namespace RequestAuth

open ExtendedKey Http

def FailsIn {α : Type} (phase : Phase) (outcome : Except Failure α) : Prop :=
  ∀ failure, outcome = .error failure → failure.phase = phase

namespace FailsIn

variable {α β : Type} {phase : Phase} {x : Except Failure α}

theorem bind {f : α → Except Failure β} (h : FailsIn phase x) (hf : ∀ a, FailsIn phase (f a)) :
    FailsIn phase (x >>= f) := by
  intro failure hb
  rcases error_of_bind_eq_error hb with hx | ⟨a, -, ha⟩
  · exact h failure hx
  · exact hf a failure ha

theorem map (h : FailsIn phase x) (f : α → β) : FailsIn phase (f <$> x) :=
  fun failure hm ↦ h failure (eq_error_of_map_eq_error hm)

theorem ok (a : α) : FailsIn phase (.ok a) := nofun

end FailsIn

section Construction

theorem ExtendedKey.PublicNode.failsIn_ofText (text : String) :
    FailsIn .construction (ofText text) := fun _ h ↦ (refuses_of_ofText h).phase_eq rfl fun _ ↦ rfl

theorem ExtendedKey.PrivateNode.failsIn_ofText (text : String) :
    FailsIn .construction (ofText text) := fun _ h ↦ (refuses_of_ofText h).phase_eq rfl fun _ ↦ rfl

theorem ExtendedKey.Node.failsIn_ofText (text : String) :
    FailsIn .construction (ofText text) := fun _ h ↦ (refuses_of_ofText h).phase_eq rfl fun _ ↦ rfl

theorem AccessKey.failsIn_ofText (text : String) : FailsIn .construction (ofText text) :=
  fun _ h ↦ (refuses_of_ofText h).phase_eq rfl fun _ ↦ rfl

namespace Client

theorem failsIn_resolve (configuration : Configuration) :
    FailsIn .construction (resolve configuration) := by
  rcases configuration.blank_or_exists_chooses with h | ⟨kind, text, h⟩
  · rw [resolve_of_hasBlank h]
    rintro _ ⟨⟩
    rfl
  · rw [resolve_of_chooses h]
    cases kind with
    | xpriv => exact (PrivateNode.failsIn_ofText text).map _
    | xpub => exact (PublicNode.failsIn_ofText text).map _
    | accessKey => exact (AccessKey.failsIn_ofText text).map _

theorem failsIn_ofConfiguration (given : Option Configuration) (host : Host) :
    FailsIn .construction (ofConfiguration given host).1 := by
  cases given with
  | none =>
    rintro _ ⟨⟩
    rfl
  | some configuration =>
    rw [ofConfiguration_some]
    exact (failsIn_resolve configuration).map _

end Client

theorem Credential.failsIn_make (route : Route) : FailsIn .construction route.make := by
  cases route with
  | xpub text => exact (PublicNode.failsIn_ofText text).map _
  | xpriv text signs => exact (PrivateNode.failsIn_ofText text).map _
  | accessKey text => exact (AccessKey.failsIn_ofText text).map _
  | keyMaterial material signs => exact .ok _
  | configured given host => exact (Client.failsIn_ofConfiguration given host).map _

namespace Configuration

theorem failsIn_ofJson (text : String) : FailsIn .construction (ofJson text) := by
  intro failure h
  obtain ⟨fault, -, rfl⟩ := exists_of_mapError_eq_error h
  rfl

theorem failsIn_ofFile (files : Files) (path : String) :
    FailsIn .construction (ofFile files path) := by
  intro failure h
  rw [ofFile] at h
  split at h
  · cases h
    rfl
  · next text _ => exact failsIn_ofJson text failure h

end Configuration

end Construction

section Request

def Canonicalizer.FailsPerRequest (canonicalizer : Canonicalizer) : Prop :=
  ∀ identity context, FailsIn .request (canonicalizer.canonicalize identity context)

theorem Canonicalizer.standard_failsPerRequest : standard.FailsPerRequest :=
  fun _ _ ↦ .ok _

theorem Credential.failsIn_build {canonicalizer : Canonicalizer}
    (hc : canonicalizer.FailsPerRequest) (c : Credential) (method : Method) (body : Bytes)
    (place : Option ℕ) (host : Host) :
    FailsIn .request (c.build canonicalizer method body place host).outcome := by
  intro failure h
  obtain ⟨-, hp | rfl⟩ := isSigning_of_build_error h
  · exact hc _ _ failure hp
  · rfl

namespace HeaderSet

theorem failsIn_toHeaders (set : HeaderSet) : FailsIn .request set.toHeaders := by
  intro failure h
  have hs := (failsOf_mapM_checkValue set.toList failure).1 (eq_error_of_map_eq_error h)
  obtain ⟨pair, -, hf⟩ := List.exists_of_findSome?_eq_some hs
  rw [eq_of_valueFault? hf]
  rfl

theorem failsIn_applyTo (set : HeaderSet) (request : Request) :
    FailsIn .request (set.applyTo request) :=
  set.failsIn_toHeaders.bind (fun _ ↦ .ok _)

end HeaderSet

namespace Authenticator

def FailsPerRequest : Authenticator → Prop
  | client c => c.canonicalizer.FailsPerRequest
  | credential _ => True
  | shared inner => inner.FailsPerRequest
  | custom stamp => ∀ used request, FailsIn .request (stamp used request)

theorem FailsPerRequest.failsIn {authenticator : Authenticator} (h : authenticator.FailsPerRequest)
    (request : Request) (host : Host) :
    FailsIn .request (authenticator.authenticate request host).outcome := by
  induction authenticator with
  | client c =>
    exact (Credential.failsIn_build h _ _ _ _ _).bind (fun set ↦ set.failsIn_applyTo request)
  | credential c =>
    exact (Credential.failsIn_build Canonicalizer.standard_failsPerRequest _ _ _ _ _).bind
      (fun set ↦ set.failsIn_applyTo request)
  | shared inner ih => exact ih h
  | custom stamp => exact h host.uses request

end Authenticator

end Request

/-- A failure to make a key, a credential, a configuration or a client. -/
inductive MetInConstruction : Failure → Prop
  | publicNode {text : String} {failure : Failure} (h : PublicNode.ofText text = .error failure) :
      MetInConstruction failure
  | privateNode {text : String} {failure : Failure} (h : PrivateNode.ofText text = .error failure) :
      MetInConstruction failure
  | node {text : String} {failure : Failure} (h : Node.ofText text = .error failure) :
      MetInConstruction failure
  | keyPair {text : String} {failure : Failure} (h : AccessKey.ofText text = .error failure) :
      MetInConstruction failure
  | credential {route : Credential.Route} {failure : Failure} (h : route.make = .error failure) :
      MetInConstruction failure
  | json {text : String} {failure : Failure} (h : Configuration.ofJson text = .error failure) :
      MetInConstruction failure
  | file {files : Configuration.Files} {path : String} {failure : Failure}
      (h : Configuration.ofFile files path = .error failure) : MetInConstruction failure
  | client {given : Option Configuration} {host : Host} {failure : Failure}
      (h : (Client.ofConfiguration given host).1 = .error failure) : MetInConstruction failure

inductive MetPerRequest : Failure → Prop
  | headers {c : Credential} {canonicalizer : Canonicalizer} {method : Method} {body : Bytes}
      {place : Option ℕ} {host : Host} {failure : Failure}
      (hc : canonicalizer.FailsPerRequest)
      (h : (c.build canonicalizer method body place host).outcome = .error failure) :
      MetPerRequest failure
  | buildFor {client : Client} {method : Method} {body : Bytes} {host : Host} {failure : Failure}
      (hc : client.canonicalizer.FailsPerRequest)
      (h : (client.buildFor method body host).outcome = .error failure) : MetPerRequest failure
  | build {client : Client} {body : String} {host : Host} {failure : Failure}
      (hc : client.canonicalizer.FailsPerRequest)
      (h : (client.build body host).outcome = .error failure) : MetPerRequest failure
  | buildWithoutBody {client : Client} {host : Host} {failure : Failure}
      (hc : client.canonicalizer.FailsPerRequest)
      (h : (client.buildWithoutBody host).outcome = .error failure) : MetPerRequest failure
  | toHeaders {set : HeaderSet} {failure : Failure} (h : set.toHeaders = .error failure) :
      MetPerRequest failure
  | applyTo {set : HeaderSet} {request : Request} {failure : Failure}
      (h : set.applyTo request = .error failure) : MetPerRequest failure
  | authenticate {authenticator : Authenticator} {request : Request} {host : Host}
      {failure : Failure} (ha : authenticator.FailsPerRequest)
      (h : (authenticator.authenticate request host).outcome = .error failure) :
      MetPerRequest failure

theorem MetInConstruction.phase {failure : Failure} (h : MetInConstruction failure) :
    failure.phase = .construction := by
  cases h with
  | publicNode h => exact PublicNode.failsIn_ofText _ failure h
  | privateNode h => exact PrivateNode.failsIn_ofText _ failure h
  | node h => exact Node.failsIn_ofText _ failure h
  | keyPair h => exact AccessKey.failsIn_ofText _ failure h
  | credential h => exact Credential.failsIn_make _ failure h
  | json h => exact Configuration.failsIn_ofJson _ failure h
  | file h => exact Configuration.failsIn_ofFile _ _ failure h
  | client h => exact Client.failsIn_ofConfiguration _ _ failure h

theorem MetPerRequest.phase {failure : Failure} (h : MetPerRequest failure) :
    failure.phase = .request := by
  cases h with
  | headers hc h => exact Credential.failsIn_build hc _ _ _ _ _ failure h
  | buildFor hc h | build hc h | buildWithoutBody hc h =>
    exact Credential.failsIn_build hc _ _ _ _ _ failure h
  | toHeaders h => exact HeaderSet.failsIn_toHeaders _ failure h
  | applyTo h => exact HeaderSet.failsIn_applyTo _ _ failure h
  | authenticate ha h => exact ha.failsIn _ _ failure h

def Event.TellsOfConfiguration (event : Event) : Prop :=
  ("configuration", Text.flag true) ∈ event.fields

theorem Credential.not_tellsOfConfiguration_builtEvent (c : Credential)
    (canonicalizer : Canonicalizer) (method : Method) :
    ¬ (c.builtEvent canonicalizer method).TellsOfConfiguration := by
  rw [builtEvent]
  split <;> simp [Event.TellsOfConfiguration, signedEvent, unsignedEvent]

theorem Authenticator.not_tellsOfConfiguration_events (authenticator : Authenticator)
    (request : Request) (host : Host) :
    ∀ event ∈ authenticator.events request host, ¬ event.TellsOfConfiguration := by
  intro event he
  induction authenticator with
  | client c =>
    obtain ⟨_, -, rfl⟩ := Option.map_eq_some_iff.1 (Option.mem_toList.1 he)
    exact c.credential.not_tellsOfConfiguration_builtEvent _ _
  | credential c =>
    obtain ⟨_, -, rfl⟩ := Option.map_eq_some_iff.1 (Option.mem_toList.1 he)
    exact c.not_tellsOfConfiguration_builtEvent _ _
  | shared inner ih => exact ih he
  | custom stamp => cases he

namespace Relay

variable {ρ ε : Type} {relay : Relay}

theorem not_tellsOfConfiguration_refusalEvent {failure : Failure} (h : failure.phase = .request)
    (request : Request) : ¬ (refusalEvent request failure).TellsOfConfiguration := by
  simp [Event.TellsOfConfiguration, refusalEvent, h, Text.flag]

def FailsPerRequest (relay : Relay) : Prop :=
  ∀ authenticator ∈ relay.services.toList, authenticator.FailsPerRequest

section Exchange

variable (hf : relay.FailsPerRequest) (e : Exchange ρ ε)
include hf

theorem failsPerRequest_exchange : (relay.exchange e).2.FailsPerRequest := by
  intro authenticator h
  rw [services_exchange] at h
  exact hf authenticator (mem_of_mem_arrange h)

theorem phase_of_verdict {failure : Failure} (h : relay.verdict e = .error failure) :
    failure.phase = .request :=
  (hf _ (taker_mem relay e)).failsIn e.request relay.host failure h

theorem phase_of_exchange {reached : ℕ} {failure : Failure}
    (h : (relay.exchange e).1 = .called reached (some (.error (.authentication failure)))) :
    failure.phase = .request := by
  cases hr : e.readiness with
  | pending =>
    rw [exchange_pending hr] at h
    cases h
  | failing error =>
    rw [exchange_failing hr] at h
    cases h
  | ready =>
    rw [exchange_ready hr, Exchange.heard] at h
    cases hv : relay.verdict e with
    | error own =>
      rw [call_of_refused hv] at h
      split at h
      · cases h
      · cases h
        exact phase_of_verdict hf e hv
    | ok stamped =>
      rw [call_of_passed hv] at h
      split at h
      · cases h
      · cases ha : e.answer <;> simp [Pending.result, ha, Except.mapError] at h

theorem not_tellsOfConfiguration_events :
    ∀ event ∈ relay.events e, ¬ event.TellsOfConfiguration := by
  intro event he
  rw [events] at he
  split at he
  · rcases List.mem_append.1 he with he | he
    · exact (relay.taker e).not_tellsOfConfiguration_events e.request relay.host event he
    · cases hv : relay.verdict e with
      | ok stamped =>
        rw [hv] at he
        cases he
      | error failure =>
        rw [hv] at he
        obtain rfl := List.mem_singleton.1 he
        exact not_tellsOfConfiguration_refusalEvent (phase_of_verdict hf e hv) _
  · cases he

end Exchange

theorem phase_of_mem_run (hf : relay.FailsPerRequest) (es : List (Exchange ρ ε))
    {reached : ℕ} {failure : Failure}
    (h : .called reached (some (.error (.authentication failure))) ∈ (relay.run es).1) :
    failure.phase = .request := by
  induction es generalizing relay with
  | nil => cases h
  | cons first rest ih =>
    rcases List.mem_cons.1 h with h | h
    · exact phase_of_exchange hf first h.symm
    · exact ih (failsPerRequest_exchange hf first) h

theorem not_tellsOfConfiguration_eventsOfRun (hf : relay.FailsPerRequest)
    (es : List (Exchange ρ ε)) : ∀ event ∈ relay.eventsOfRun es, ¬ event.TellsOfConfiguration := by
  induction es generalizing relay with
  | nil => exact fun _ ↦ nofun
  | cons first rest ih =>
    intro event he
    rcases List.mem_append.1 he with he | he
    · exact not_tellsOfConfiguration_events hf first event he
    · exact ih (failsPerRequest_exchange hf first) event he

/-- What keeps a client from being made and what keeps one request from being sent are never taken
for each other, neither where they are met nor in what a relay reports and logs of them. -/
theorem failures_tell_phase :
    (∀ failure, MetInConstruction failure → failure.phase = .construction) ∧
      (∀ failure, MetPerRequest failure → failure.phase = .request) ∧
      ∀ (relay : Relay) (es : List (Exchange ρ ε)), relay.FailsPerRequest →
        (∀ reached failure,
          .called reached (some (.error (.authentication failure))) ∈ (relay.run es).1 →
          failure.phase = .request) ∧
        ∃ events, (relay.run es).2.host.log = relay.host.log ++ events ∧
          ∀ event ∈ events, ¬ event.TellsOfConfiguration := by
  refine ⟨fun _ h ↦ h.phase, fun _ h ↦ h.phase, ?_⟩
  intro relay es hf
  refine ⟨fun _ _ h ↦ phase_of_mem_run hf es h, relay.eventsOfRun es, relay.log_run es, ?_⟩
  exact not_tellsOfConfiguration_eventsOfRun hf es

theorem failures_tell_phase_unplugged :
    let client : Client := ⟨.accessKey (.ofScalar ⟨1, by decide, by decide⟩), none,
      .failing "offline" (.signing "unplugged")⟩
    let relay : Relay := .start (.client client) (.start ⟨0, 0⟩ (fun _ ↦ .ofNat 24 7))
    let e : Exchange Unit Unit := ⟨.blank, .ready, .ok (), false, none, false⟩
    relay.FailsPerRequest ∧
      (relay.run [e, e]).1[1]? = some (.called 0
        (some (.error (.authentication (.signing "unplugged"))))) ∧
      (Failure.signing "unplugged").phase = .request := by
  intro client relay e
  have hf : relay.FailsPerRequest := by
    intro authenticator h
    obtain rfl := List.mem_singleton.1 h
    rintro identity context _ ⟨⟩
    rfl
  have hrun : (relay.run [e, e]).1[1]? = some (.called 0
      (some (.error (.authentication (.signing "unplugged"))))) := rfl
  exact ⟨hf, hrun,
    (failures_tell_phase.2.2 relay [e, e] hf).1 0 _ (List.mem_of_getElem? hrun)⟩

end Relay

end RequestAuth
