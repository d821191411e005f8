import RequestAuth.Session
import RequestAuth.Proofs.Authenticator

namespace RequestAuth

open Http

namespace Session

theorem clients_keep (session : Session) (outcome : Except Failure HeaderSet) :
    (session.keep outcome).2.clients = session.clients := by
  cases outcome <;> rfl

theorem clients_send (session : Session) (outcome : Except Failure Request) :
    (session.send outcome).2.clients = session.clients := by
  cases outcome <;> rfl

def clientsAfter (session : Session) : Step → Copies Client
  | .copy => session.clients.copy
  | .turnTo place => session.clients.turnTo place
  | .useSource place => session.clients.modify (·.withSource place)
  | .useCanonicalizer canonicalizer => session.clients.modify (·.withCanonicalizer canonicalizer)
  | _ => session.clients

theorem clients_step (session : Session) (step : Step) :
    (session.step step).2.clients = session.clientsAfter step := by
  cases step with
  | build | buildWithoutBody | buildFor | credentialHeaders => exact clients_keep _ _
  | authenticate via => exact clients_send _ _
  | apply place =>
    rw [Session.step]
    split
    · rfl
    · exact clients_send _ _
  | _ => rfl

/-- The request that was put in place last, and the set that was put on it last since then. -/
structure Ledger where
  supplied : Request
  stamp : Option HeaderSet

/-- The request is the supplied one but for its authenticating headers, and these are the supplied
ones until a set replaces them all. -/
structure Ledger.Shows (ledger : Ledger) (request : Request) : Prop where
  others : request.SameOtherwise ledger.supplied
  unstamped : ledger.stamp = none →
    ∀ h : AuthHeader, request.headers.values h.name = ledger.supplied.headers.values h.name
  stamped : ∀ set, ledger.stamp = some set →
    set.OnlyOn request.headers ∧ (set.toList.length = 1 ∨ set.toList.length = 5)

def offered (session : Session) : Step → Option HeaderSet
  | .authenticate via => (session.authenticator via).offer session.request session.host
  | .apply place => session.sets[place]?
  | _ => none

def stampOf (session : Session) (step : Step) : Option HeaderSet :=
  match (session.step step).1 with
  | .done => session.offered step
  | _ => none

/-- A new request comes without a stamp. Otherwise the stamp changes only with a step that puts a
set on the request and succeeds. -/
def note (session : Session) (ledger : Ledger) (step : Step) : Ledger :=
  match step with
  | .replaceRequest request => ⟨request, none⟩
  | _ => { ledger with stamp := (session.stampOf step).or ledger.stamp }

def ledger (session : Session) (ledger : Ledger) : List Step → Ledger
  | [] => ledger
  | first :: rest => (session.step first).2.ledger (session.note ledger first) rest

def Step.Stamps : Step → Prop
  | .authenticate _ | .apply _ => True
  | _ => False

def Answer.IsFailure : Answer → Prop
  | failed _ | noSet => True
  | built _ | done => False

inductive Effect (session : Session) (step : Step) : Prop
  | replaced (request : Request) (hs : step = .replaceRequest request)
  | stamped (set : HeaderSet) (ho : session.offered step = some set) (hv : set.Sendable)
      (ha : (session.step step).1 = .done)
      (hn : ∀ ledger, session.note ledger step = { ledger with stamp := some set })
      (hr : (session.step step).2.request = set.stamped session.request)
  | kept (hv : ∀ set, session.offered step = some set → ¬ set.Sendable)
      (ha : step.Stamps → (session.step step).1 ≠ .done)
      (hn : ∀ ledger, session.note ledger step = ledger)
      (hr : (session.step step).2.request = session.request)

section Effect

variable {session : Session} {step : Step}

theorem note_of_stampOf {o : Option HeaderSet} (hr : ∀ request, step ≠ .replaceRequest request)
    (ho : session.stampOf step = o) (ledger : Ledger) :
    session.note ledger step = { ledger with stamp := o.or ledger.stamp } := by
  subst ho
  cases step with
  | replaceRequest request => exact absurd rfl (hr request)
  | _ => rfl

theorem Effect.of_offered_eq_none (hs : ∀ request, step ≠ .replaceRequest request)
    (ho : session.offered step = none) (ha : step.Stamps → (session.step step).1 ≠ .done)
    (hr : (session.step step).2.request = session.request) : session.Effect step := by
  refine .kept (by simp [ho]) ha (fun ledger ↦ ?_) hr
  have h : session.stampOf step = none := by
    rw [stampOf, ho]
    split <;> rfl
  rw [note_of_stampOf hs h, Option.none_or]

theorem Effect.of_send (base : Session) (offer : Except Failure HeaderSet)
    (hs : ∀ request, step ≠ .replaceRequest request) (hb : base.request = session.request)
    (he : session.step step = base.send (offer >>= (·.applyTo session.request)))
    (ho : session.offered step = offer.toOption) : session.Effect step := by
  cases ha : offer >>= (·.applyTo session.request) with
  | error failure =>
    rw [ha, send] at he
    refine .kept (fun set h hv ↦ ?_) (by simp [he]) (fun ledger ↦ ?_) (by rw [he, hb])
    · cases offer with
      | error failure => simp [ho, Except.toOption] at h
      | ok own =>
        obtain rfl : own = set := by simpa [ho, Except.toOption] using h
        have hok : own.applyTo session.request = .error failure := ha
        rw [HeaderSet.applyTo_of_sendable hv] at hok
        cases hok
    · have h : session.stampOf step = none := by rw [stampOf, he]
      rw [note_of_stampOf hs h, Option.none_or]
  | ok request =>
    rw [ha, send] at he
    cases offer with
    | error failure => cases ha
    | ok set =>
      obtain ⟨hv, rfl⟩ := HeaderSet.applyTo_eq_ok_iff.1 ha
      have h : session.stampOf step = some set := by
        rw [stampOf, he, ho]
        rfl
      refine .stamped set ho hv (by rw [he]) (fun ledger ↦ ?_) (by rw [he])
      rw [note_of_stampOf hs h, Option.some_or]

end Effect

theorem request_keep (session : Session) (outcome : Except Failure HeaderSet) :
    (session.keep outcome).2.request = session.request := by
  cases outcome <;> rfl

theorem effect (session : Session) (step : Step) : session.Effect step := by
  cases step with
  | replaceRequest request => exact .replaced request rfl
  | authenticate via =>
    cases via with
    | client | shared =>
      set built := session.client.buildFor session.request.method session.request.body session.host
      exact .of_send { session with host := built.host } built.outcome (by simp) rfl rfl rfl
    | credential =>
      set built := session.client.credential.buildPlain session.request.method
        session.request.body session.host
      exact .of_send { session with host := built.host } built.outcome (by simp) rfl rfl rfl
    | refusing failure => exact .of_offered_eq_none (by simp) rfl (fun _ ↦ nofun) rfl
  | apply place =>
    cases hp : session.sets[place]? with
    | none =>
      have he : session.step (.apply place) = (.noSet, session) := by rw [Session.step, hp]
      exact .of_offered_eq_none (by simp) hp (by simp [he]) (by rw [he])
    | some set =>
      refine .of_send session (.ok set) (by simp) rfl ?_ hp
      rw [Session.step, hp]
      rfl
  | copy | turnTo | addSource | useSource | useCanonicalizer | setClock =>
    exact .of_offered_eq_none (by simp) rfl nofun rfl
  | _ => exact .of_offered_eq_none (by simp) rfl nofun (request_keep _ _)

theorem Ledger.shows_start (request : Request) : (Ledger.mk request none).Shows request :=
  ⟨.refl request, fun _ _ ↦ rfl, by simp⟩

theorem shows_note {session : Session} {ledger : Ledger} (h : ledger.Shows session.request)
    (step : Step) : (session.note ledger step).Shows (session.step step).2.request := by
  rcases session.effect step with ⟨request, rfl⟩ | ⟨set, -, -, -, hn, hr⟩ | ⟨-, -, hn, hr⟩
  · exact Ledger.shows_start request
  · rw [hn, hr]
    refine ⟨(set.sameOtherwise_stamped session.request).trans h.others, by simp, ?_⟩
    rintro _ ⟨rfl⟩
    exact ⟨set.onlyOn_stamped session.request, set.length_toList_eq⟩
  · rw [hn, hr]
    exact h

theorem shows_ledger {session : Session} {ledger : Ledger} (h : ledger.Shows session.request)
    (steps : List Step) : (session.ledger ledger steps).Shows (session.run steps).2.request := by
  induction steps generalizing session ledger with
  | nil => exact h
  | cons first rest ih => exact ih (shows_note h first)

theorem request_of_isFailure {session : Session} {step : Step}
    (h : (session.step step).1.IsFailure) : (session.step step).2.request = session.request := by
  rcases session.effect step with ⟨request, rfl⟩ | ⟨set, -, -, ha, -, -⟩ | ⟨-, -, -, hr⟩
  · exact h.elim
  · rw [ha] at h
    exact h.elim
  · exact hr

theorem done_iff {session : Session} {step : Step} (hs : step.Stamps) :
    (session.step step).1 = .done ↔ ∃ set, session.offered step = some set ∧ set.Sendable := by
  rcases session.effect step with ⟨request, rfl⟩ | ⟨set, ho, hv, ha, -, -⟩ | ⟨hv, ha, -, -⟩
  · exact hs.elim
  · exact ⟨fun _ ↦ ⟨set, ho, hv⟩, fun _ ↦ ha⟩
  · refine ⟨fun h ↦ absurd h (ha hs), ?_⟩
    rintro ⟨set, ho, h⟩
    exact absurd h (hv set ho)

/-- In every session the request carries what the ledger says, and no step that fails touches it. -/
theorem request_shows_ledger (session : Session) (steps : List Step) :
    (session.ledger ⟨session.request, none⟩ steps).Shows (session.run steps).2.request ∧
      (∀ step : Step, step.Stamps →
        (((session.run steps).2.step step).1 = .done ↔
          ∃ set, (session.run steps).2.offered step = some set ∧ set.Sendable)) ∧
      ∀ step, ((session.run steps).2.step step).1.IsFailure →
        ((session.run steps).2.step step).2.request = (session.run steps).2.request :=
  ⟨shows_ledger (Ledger.shows_start session.request) steps, fun _ ↦ done_iff,
    fun _ ↦ request_of_isFailure⟩

end Session

end RequestAuth
