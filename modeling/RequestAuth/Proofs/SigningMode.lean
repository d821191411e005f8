import RequestAuth.Proofs.Attempt

namespace RequestAuth

open Http

/-- Whether a credential signs that was asked to or not. Only private nodes heed it. -/
def CredentialKind.signs (asked : Bool) : CredentialKind → Bool
  | .xpub => false
  | .xpriv => asked
  | .accessKey => true

namespace Credential

inductive Route
  | xpub (text : String)
  | xpriv (text : String) (signs : Bool)
  | accessKey (text : String)
  | keyMaterial (material : KeyMaterial) (signs : Bool)
  | configured (configuration : Option Configuration) (host : Host)

namespace Route

def make : Route → Except Failure Credential
  | xpub text => ofXpub text
  | xpriv text signs => ofXpriv text signs
  | accessKey text => ofAccessKey text
  | keyMaterial material signs => .ok (ofKeyMaterial material signs)
  | configured configuration host =>
    Client.credential <$> (Client.ofConfiguration configuration host).1

def asked : Route → Bool
  | xpriv _ signs | keyMaterial _ signs => signs
  | configured configuration _ => configuration.any Configuration.signRequest
  | xpub _ | accessKey _ => true

end Route

variable {c : Credential}

theorem eq_xpub_of_ofXpub {text : String} (h : ofXpub text = .ok c) : ∃ node, c = xpub node := by
  obtain ⟨node, -, rfl⟩ := exists_of_map_eq_ok h
  exact ⟨node, rfl⟩

theorem eq_xpriv_of_ofXpriv {text : String} {signs : Bool} (h : ofXpriv text signs = .ok c) :
    ∃ node, c = xpriv node signs := by
  obtain ⟨node, -, rfl⟩ := exists_of_map_eq_ok h
  exact ⟨node, rfl⟩

theorem eq_accessKey_of_ofAccessKey {text : String} (h : ofAccessKey text = .ok c) :
    ∃ pair, c = accessKey pair := by
  obtain ⟨pair, -, rfl⟩ := exists_of_map_eq_ok h
  exact ⟨pair, rfl⟩

theorem isSigning_of_resolve {configuration : Configuration}
    (h : Client.resolve configuration = .ok c) :
    c.isSigning = c.kind.signs configuration.signRequest := by
  rw [Client.resolve] at h
  split at h
  · obtain ⟨node, rfl⟩ := eq_xpriv_of_ofXpriv h
    rfl
  · split at h
    · obtain ⟨node, rfl⟩ := eq_xpub_of_ofXpub h
      rfl
    · split at h
      · obtain ⟨pair, rfl⟩ := eq_accessKey_of_ofAccessKey h
        rfl
      · cases h

theorem isSigning_of_make {route : Route} (h : route.make = .ok c) :
    c.isSigning = c.kind.signs route.asked := by
  cases route with
  | xpub text =>
    obtain ⟨node, rfl⟩ := eq_xpub_of_ofXpub h
    rfl
  | xpriv text signs =>
    obtain ⟨node, rfl⟩ := eq_xpriv_of_ofXpriv h
    rfl
  | accessKey text =>
    obtain ⟨pair, rfl⟩ := eq_accessKey_of_ofAccessKey h
    rfl
  | keyMaterial material signs =>
    cases h
    rcases material with (node | node) | pair <;> rfl
  | configured configuration host =>
    obtain ⟨made, hm, rfl⟩ := exists_of_map_eq_ok h
    cases configuration with
    | none => cases hm
    | some configuration =>
      rw [Client.ofConfiguration_some] at hm
      obtain ⟨credential, hr, rfl⟩ := exists_of_map_eq_ok hm
      exact isSigning_of_resolve hr

end Credential

namespace HeaderSet

/-- The set shows who its credential is, under the one name for it, and is signed if the credential
signs. -/
structure Presents (set : HeaderSet) (c : Credential) : Prop where
  isSigned : set.IsSigned ↔ c.isSigning
  count : set.count = if c.isSigning then 5 else 1
  length : set.toList.length = set.count
  names : (set.toList.map (fun pair ↦ pair.1.name)).Nodup
  identity : set.toList.filter (fun pair ↦ pair.1 = .xpub ∨ pair.1 = .key) =
    [(if c.kind = .accessKey then .key else .xpub, c.identity)]

theorem presents_of_build {c : Credential} {canonicalizer : Canonicalizer} {method : Method}
    {body : Bytes} {place : Option ℕ} {host : Host} {set : HeaderSet}
    (h : (c.build canonicalizer method body place host).outcome = .ok set) : set.Presents c := by
  obtain ⟨signature, rfl, hn⟩ := Credential.exists_of_build h
  have hsigned : signature.isSome ↔ c.isSigning := by
    have hs := congrArg Option.isSome hn
    rw [Option.isSome_map] at hs
    rw [hs]
    split
    · next hc => simp [hc]
    · next hc => simp [hc]
  have hnames := HeaderSet.nodup_names ⟨c.identityHeader, c.identity, signature⟩
  refine ⟨hsigned, ?_, HeaderSet.length_toList _, ?_, ?_⟩
  · exact if_congr hsigned rfl rfl
  · have hmap := hnames.map AuthHeader.name_injective
    rwa [List.map_map] at hmap
  · cases signature <;> cases c <;> rfl

end HeaderSet

namespace Session

def Has (session : Session) (c : Credential) : Prop :=
  ∀ client ∈ session.clients.toList, client.credential = c

theorem has_step {session : Session} {c : Credential} (h : session.Has c) (step : Step) :
    (session.step step).2.Has c := by
  intro client hc
  rw [clients_step] at hc
  cases step with
  | copy => exact h client (Copies.mem_of_mem_copy hc)
  | turnTo place => exact h client (Copies.mem_of_mem_turnTo hc)
  | useSource | useCanonicalizer =>
    rcases List.mem_cons.1 hc with rfl | hc
    · exact h session.client List.mem_cons_self
    · exact h client (List.mem_cons_of_mem _ hc)
  | _ => exact h client hc

theorem has_run {session : Session} {c : Credential} (h : session.Has c) (steps : List Step) :
    (session.run steps).2.Has c := by
  induction steps generalizing session with
  | nil => exact h
  | cons first rest ih => exact ih (has_step h first)

section Failed

variable {session : Session} {step : Step} {failure : Failure}

theorem sets_send (session : Session) (outcome : Except Failure Request) :
    (session.send outcome).2.sets = session.sets := by
  cases outcome <;> rfl

theorem sets_keep_of_failed {outcome : Except Failure HeaderSet}
    (h : (session.keep outcome).1 = .failed failure) :
    (session.keep outcome).2.sets = session.sets := by
  rw [keep_eq_failed h, keep]

theorem sets_of_failed (h : (session.step step).1 = .failed failure) :
    (session.step step).2.sets = session.sets := by
  cases step with
  | build | buildWithoutBody | buildFor | credentialHeaders =>
    exact (sets_keep_of_failed h).trans rfl
  | authenticate via => exact (sets_send _ _).trans rfl
  | apply place =>
    rw [Session.step]
    split
    · rfl
    · exact sets_send _ _
  | _ => rfl

theorem keep_error {outcome : Except Failure HeaderSet} (ho : outcome = .error failure) :
    (session.keep outcome).1 = .failed failure := by
  rw [ho, keep]

theorem send_bind_error {outcome : Except Failure HeaderSet} (ho : outcome = .error failure)
    (next : HeaderSet → Except Failure Request) :
    (session.send (outcome >>= next)).1 = .failed failure := by
  rw [ho]
  rfl

theorem failed_of_attempt {attempt : Attempt} (ha : session.attempt? step = some attempt)
    (hb : (attempt.built session.host).outcome = .error failure) :
    (session.step step).1 = .failed failure := by
  cases step with
  | build | buildWithoutBody | buildFor | credentialHeaders =>
    cases ha
    exact keep_error hb
  | authenticate via =>
    cases via with
    | client | shared | credential =>
      cases ha
      exact send_bind_error hb _
    | refusing own => cases ha
  | _ => cases ha

end Failed

/-- What a step makes of the session's credential: sets that present it, kept or put on the request,
or a failure and none. Where the layout or the signer has nothing to give, there is a failure. -/
structure Honours (session : Session) (step : Step) (c : Credential) : Prop where
  built : ∀ set, (session.step step).1 = .built set → set.Presents c
  done : ∀ via, step = .authenticate via → (session.step step).1 = .done →
    ∃ set : HeaderSet, set.Presents c ∧ set.OnlyOn (session.step step).2.request.headers
  failed : ∀ failure, (session.step step).1 = .failed failure →
    (session.step step).2.sets = session.sets ∧
      (session.step step).2.request = session.request
  unlaid : ∀ attempt failure, session.attempt? step = some attempt → c.isSigning →
    attempt.canonicalizer.canonicalize c.identity (attempt.context session.host) =
      .error failure →
    (session.step step).1 = .failed failure
  unsigned : ∀ attempt payload k, session.attempt? step = some attempt → c.isSigning →
    attempt.canonicalizer.canonicalize c.identity (attempt.context session.host) = .ok payload →
    c.secret = .ok k → Secp256k1.sign k payload.digest = none →
    (session.step step).1 = .failed Signer.refusal
  publicKeyOnly : ∀ attempt, session.attempt? step = some attempt →
    (session.step step).1 = .failed .publicKeyOnly →
    attempt.canonicalizer.canonicalize c.identity (attempt.context session.host) =
      .error .publicKeyOnly

theorem honours (session : Session) (step : Step) :
    session.Honours step session.client.credential where
  built set h := by
    obtain ⟨attempt, ha, hb⟩ := exists_attempt_of_built h
    rw [← credential_of_attempt? ha]
    exact HeaderSet.presents_of_build hb
  done via hs h := by
    subst hs
    obtain ⟨attempt, set, ha, hb, hr⟩ := exists_attempt_of_done h
    refine ⟨set, ?_, ?_⟩
    · rw [← credential_of_attempt? ha]
      exact HeaderSet.presents_of_build hb
    · rw [hr]
      exact set.onlyOn_stamped session.request
  failed failure h := by
    have hf : (session.step step).1.IsFailure := by
      rw [h]
      trivial
    exact ⟨sets_of_failed h, request_of_isFailure hf⟩
  unlaid attempt failure ha hc hp := by
    rw [← credential_of_attempt? ha] at hc hp
    obtain ⟨k, hk⟩ := Credential.exists_secret_of_isSigning hc
    exact failed_of_attempt ha ((Credential.outcome_build hc).trans
      (Credential.signedSet_of_canonicalize_error hk hp))
  unsigned attempt payload k ha hc hp hk hs := by
    rw [← credential_of_attempt? ha] at hc hp hk
    exact failed_of_attempt ha ((Credential.outcome_build hc).trans
      (Credential.signedSet_of_sign_none hk hp hs))
  publicKeyOnly attempt ha h := by
    rcases fails_of_failed h with hs | ⟨own, ho, hb⟩ | ⟨set, hset⟩
    · subst hs
      cases ha
    · obtain rfl := Option.some.inj (ha.symm.trans ho)
      rw [← credential_of_attempt? ha]
      obtain ⟨-, hp | hr⟩ := Credential.isSigning_of_build_error hb
      · exact hp
      · cases hr
    · obtain ⟨pair, -, hp⟩ := HeaderSet.exists_of_applyTo_error hset
      cases hp

/-- Whether a credential signs is settled when it is made. From then on all its sets are signed or
none are, and where one cannot be signed there is a failure and no set. That the key is a public one
is no failure but a layout's own. -/
theorem sets_present_credential {route : Credential.Route} {c : Credential}
    (hc : route.make = .ok c) :
    c.isSigning = c.kind.signs route.asked ∧ (c.isSigning → ∃ k, c.secret = .ok k) ∧
      ∀ (session : Session) (steps : List Step) (step : Step), session.Has c →
        (session.run steps).2.Honours step c := by
  refine ⟨Credential.isSigning_of_make hc, Credential.exists_secret_of_isSigning, ?_⟩
  intro session steps step h
  have hrun : (session.run steps).2.client.credential = c :=
    has_run h steps _ List.mem_cons_self
  rw [← hrun]
  exact (session.run steps).2.honours step

theorem sets_present_credential_unasked :
    let pair := Secp256k1.KeyPair.ofScalar ⟨1, by decide, by decide⟩
    let route := Credential.Route.keyMaterial (.keyPair pair) false
    let c := Credential.accessKey pair
    route.make = .ok c ∧ c.isSigning = c.kind.signs route.asked ∧
      (c.isSigning → ∃ k, c.secret = .ok k) ∧
      ∀ (session : Session) (steps : List Step) (step : Step), session.Has c →
        (session.run steps).2.Honours step c := by
  intro pair route c
  have hc : route.make = .ok c := rfl
  exact ⟨hc, sets_present_credential hc⟩

/-- A layout from outside that takes every key for a public one. -/
theorem sets_present_credential_misnamed :
    let c := Credential.accessKey (.ofScalar ⟨1, by decide, by decide⟩)
    let layout := Canonicalizer.failing "outside" .publicKeyOnly
    let session := start ((Client.ofCredential c).withCanonicalizer layout)
      (.start ⟨0, 0⟩ (fun _ ↦ .ofNat 24 0))
    c.isSigning ∧ (session.step .buildWithoutBody).1 = .failed .publicKeyOnly ∧
      (session.step (.authenticate .client)).1 = .failed .publicKeyOnly := by
  intro c layout session
  have hk : c.secret = .ok ⟨1, by decide, by decide⟩ := rfl
  have hb (method : Method) (body : Bytes) :
      (session.client.buildFor method body session.host).outcome = .error .publicKeyOnly :=
    (Credential.outcome_build rfl).trans (Credential.signedSet_of_canonicalize_error hk rfl)
  exact ⟨rfl, failed_of_attempt rfl (hb .post (Bytes.ofText "")),
    failed_of_attempt rfl (hb .get [])⟩

end Session

end RequestAuth
