import RequestAuth.Proofs.AuthenticationFailure
import RequestAuth.Proofs.CommandMessage
import RequestAuth.Proofs.CommandRun
import RequestAuth.Proofs.JsonObject

namespace RequestAuth

namespace HeaderSet

def fresh : List AuthHeader := [.nonce, .time, .signature]

/-- The sets have the same headers, and differ at most in what is fresh. -/
structure SameButFresh (a b : HeaderSet) : Prop where
  names : a.toList.map Prod.fst = b.toList.map Prod.fst
  values : ∀ pair, pair.1 ∉ fresh → (pair ∈ a.toList ↔ pair ∈ b.toList)

theorem mem_toList_iff {set : HeaderSet} {pair : AuthHeader × String} (hp : pair.1 ∉ fresh) :
    pair ∈ set.toList ↔ pair = (set.identityHeader.toAuthHeader, set.identity) ∨
      (set.signature.map (fun sig ↦ (AuthHeader.hash, sig.hash))) = some pair := by
  obtain ⟨header, value⟩ := pair
  obtain ⟨identityHeader, identity, _ | sig⟩ := set
  · simp [toList]
  · cases header <;> simp [toList, fresh, eq_comm] at hp ⊢

theorem SameButFresh.of_eq {a b : HeaderSet} (hn : a.identityHeader = b.identityHeader)
    (hi : a.identity = b.identity)
    (hh : a.signature.map SignatureHeaders.hash = b.signature.map SignatureHeaders.hash) :
    a.SameButFresh b := by
  constructor
  · obtain ⟨_, _, _ | _⟩ := a <;> obtain ⟨_, _, _ | _⟩ := b
    · exact congrArg (fun header ↦ [header.toAuthHeader]) hn
    · cases hh
    · cases hh
    · exact congrArg (fun header ↦ [header.toAuthHeader, .hash, .nonce, .time, .signature]) hn
  · intro pair hp
    have hs := congrArg (Option.map (AuthHeader.hash, ·)) hh
    rw [Option.map_map, Option.map_map] at hs
    rw [mem_toList_iff hp, mem_toList_iff hp, hn, hi]
    exact or_congr_right (Eq.congr_left hs)

theorem sameButFresh_of_build {c : Credential} {method : Http.Method} {body : Bytes}
    {place place' : Option ℕ} {host host' : Host} {a b : HeaderSet}
    (ha : (c.build .standard method body place host).outcome = .ok a)
    (hb : (c.build .standard method body place' host').outcome = .ok b) : a.SameButFresh b := by
  by_cases hc : c.isSigning
  · obtain ⟨k, sig, -, -, rfl⟩ := Credential.exists_of_build_standard hc ha
    obtain ⟨k', sig', -, -, rfl⟩ := Credential.exists_of_build_standard hc hb
    exact .of_eq rfl rfl rfl
  · rw [Credential.outcome_build_of_not_isSigning hc] at ha hb
    obtain rfl := Except.ok.inj ha
    obtain rfl := Except.ok.inj hb
    exact .of_eq rfl rfl rfl

end HeaderSet

theorem AuthHeader.text_injective : Function.Injective AuthHeader.text := by
  intro a b h
  exact name_injective (congrArg Http.HeaderName.ofText h)

namespace Command

open RequestAuth.Configuration

theorem toList_member (pair : String × String) : (member pair).toList = Json.memberChars pair := by
  rw [member, String.toList_ofList, Json.memberChars]
  simp

theorem toList_objectText (pairs : List (String × String)) :
    ∃ sorted : List (String × String), sorted.Perm pairs ∧
      (objectText pairs).toList = '\x7b' :: '\n' ::
        ([',', '\n'].intercalate (sorted.map Json.memberChars) ++ Json.endChars) := by
  refine ⟨_, List.mergeSort_perm pairs (fun a b ↦ decide (a.1 ≤ b.1)), ?_⟩
  rw [objectText]
  simp only [String.toList_append, String.toList_intercalate, List.map_map, Function.comp_def,
    toList_member]
  rfl

theorem exists_pairs?_objectText (pairs : List (String × String)) :
    ∃ members, Json.pairs? (objectText pairs) = some members ∧ members.Perm pairs := by
  obtain ⟨sorted, hp, ht⟩ := toList_objectText pairs
  refine ⟨sorted, ?_, hp⟩
  rw [Json.pairs?, ht, Json.skipSpace_cons (by decide)]
  simp only [Json.readPairs_object]
  rfl

section Stages

variable {options : Options} {files : Files}

/-- The first of the stages before the headers are built that goes wrong. -/
inductive FirstTrouble (options : Options) (files : Files) : Trouble → Prop
  | loading {path : String} {failure : Failure} (config : options.config = some path)
      (refused : ofFile files path = .error failure) :
      FirstTrouble options files (.loading path failure)
  | building {file : Configuration} {failure : Failure}
      (loaded : load files options.config = .ok file)
      (refused : Client.resolve (merge options file) = .error failure) :
      FirstTrouble options files (.building failure)
  | method {file : Configuration} {c : Credential}
      (loaded : load files options.config = .ok file)
      (resolved : Client.resolve (merge options file) = .ok c)
      (refused : ¬ Http.IsToken (options.method.map Char.toUpper)) :
      FirstTrouble options files (.method options.method)

/-- With nothing wrong, this is the credential and the method that headers are built for. -/
structure Asks (options : Options) (files : Files) (c : Credential) (method : Http.Method) :
    Prop where
  credential : ∃ file, load files options.config = .ok file ∧
    Client.resolve (merge options file) = .ok c
  method : method.text = options.method.map Char.toUpper

theorem methodOf_eq_ok_iff {text : String} {method : Http.Method} :
    methodOf text = .ok method ↔ method.text = text.map Char.toUpper := by
  rw [methodOf, Http.Method.ofText?]
  by_cases ht : Http.IsToken (text.map Char.toUpper)
  · rw [dif_pos ht]
    obtain ⟨own, hown⟩ := method
    simp [eq_comm]
  · rw [dif_neg ht]
    refine iff_of_false nofun ?_
    intro h
    exact ht (h ▸ method.isToken)

theorem methodOf_of_not_isToken {text : String} (h : ¬ Http.IsToken (text.map Char.toUpper)) :
    methodOf text = .error (.method text) := by
  rw [methodOf, Http.Method.ofText?, dif_neg h]

theorem firstTrouble_or_asks (options : Options) (files : Files) :
    (∃ trouble, FirstTrouble options files trouble) ∨ ∃ c method, Asks options files c method := by
  cases hl : load files options.config with
  | error trouble =>
    cases hc : options.config with
    | none =>
      rw [hc] at hl
      cases hl
    | some path =>
      rw [hc, load] at hl
      obtain ⟨failure, hf, -⟩ := exists_of_mapError_eq_error hl
      exact .inl ⟨_, .loading hc hf⟩
  | ok file =>
    cases hr : Client.resolve (merge options file) with
    | error failure => exact .inl ⟨_, .building hl hr⟩
    | ok c =>
      by_cases hm : Http.IsToken (options.method.map Char.toUpper)
      · exact .inr ⟨c, ⟨_, hm⟩, ⟨file, hl, hr⟩, rfl⟩
      · exact .inl ⟨_, .method hl hr hm⟩

theorem headers_of_firstTrouble {trouble : Trouble} (h : FirstTrouble options files trouble)
    (host : Host) : (headers options files host).1 = .error trouble := by
  cases h with
  | loading hc hf =>
    apply headers_of_load_error
    rw [hc, load, hf]
    rfl
  | building hl hr =>
    rw [headers_of_load hl, hr]
    rfl
  | method hl hr hm =>
    rw [headers_of_load hl, hr]
    change authenticated options host _ = _
    rw [authenticated, methodOf_of_not_isToken hm]
    rfl

theorem headers_of_asks {c : Credential} {method : Http.Method} (h : Asks options files c method)
    (host : Host) :
    (headers options files host).1 =
      ((c.attempt method (Bytes.ofText options.body)).built host).outcome.mapError
        .authenticating := by
  obtain ⟨file, hl, hr⟩ := h.credential
  rw [headers_of_load hl, hr]
  change authenticated options host _ = _
  rw [authenticated, methodOf_eq_ok_iff.2 h.method]
  rfl

theorem isToken_of_asks {c : Credential} {method : Http.Method} (h : Asks options files c method) :
    Http.IsToken (options.method.map Char.toUpper) :=
  h.method ▸ method.isToken

end Stages

/-- The headers are printed as an object, and a verifier takes them with the request if there is a
signature. -/
structure Outcome.Prints (outcome : Outcome) (c : Credential) (method : Http.Method) (body : Bytes)
    (set : HeaderSet) : Prop where
  printed : outcome = .printed set
  members : ∃ members, Json.pairs? outcome.standardOutput = some members ∧
    members.Perm (set.toList.map (fun pair ↦ (pair.1.text, pair.2))) ∧
    (members.map Prod.fst).Nodup
  count : set.toList.length = if c.isSigning then 5 else 1
  accepted : c.isSigning → Verifier.accepts set method body

theorem Outcome.prints_of_built {c : Credential} {method : Http.Method} {body : Bytes} {host : Host}
    {set : HeaderSet} (h : ((c.attempt method body).built host).outcome = .ok set) :
    (printed set).Prints c method body set := by
  obtain ⟨members, hm, hp⟩ :=
    exists_pairs?_objectText (set.toList.map (fun pair ↦ (pair.1.text, pair.2)))
  have hn : ((set.toList.map (fun pair ↦ (pair.1.text, pair.2))).map Prod.fst).Nodup := by
    have ht := set.nodup_names.map AuthHeader.text_injective
    rwa [List.map_map] at ht ⊢
  have hpresents := HeaderSet.presents_of_build h
  refine ⟨rfl, ⟨members, hm, hp, (hp.map Prod.fst).nodup_iff.2 hn⟩, ?_, ?_⟩
  · exact hpresents.length.trans hpresents.count
  · exact fun hc ↦ Verifier.accepts_of_build hc h

def Trouble.quoting (text : String) : Trouble → Trouble
  | method _ => method text
  | trouble => trouble

/-- Of two runs the second differs in the text for the method, and in what is fresh in headers. -/
inductive Outcome.Alike (text : String) : Outcome → Outcome → Prop
  | printed {a b : HeaderSet} (same : a.SameButFresh b) : Alike text (.printed a) (.printed b)
  | failed (trouble : Trouble) : Alike text (.failed trouble) (.failed (trouble.quoting text))

section Run

variable {arguments : List String} {environment : Environment} {options : Options} {files : Files}
  {host : Host} {text : String}

theorem FirstTrouble.quoting {trouble : Trouble} (h : FirstTrouble options files trouble)
    (ht : text.map Char.toUpper = options.method.map Char.toUpper) :
    FirstTrouble { options with method := text } files (trouble.quoting text) := by
  cases h with
  | loading hc hf => exact .loading hc hf
  | building hl hr => exact .building hl hr
  | method hl hr hm => exact .method hl hr (ht ▸ hm)

theorem Asks.with_method {c : Credential} {method : Http.Method} (h : Asks options files c method)
    (ht : text.map Char.toUpper = options.method.map Char.toUpper) :
    Asks { options with method := text } files c method :=
  ⟨h.credential, h.method.trans ht.symm⟩

theorem run_of_firstTrouble (hp : Options.parse? arguments environment = some options)
    {trouble : Trouble} (h : FirstTrouble options files trouble) (host : Host) :
    (run arguments environment files host).1 = .failed trouble := by
  rw [fst_run hp, headers_of_firstTrouble h]
  rfl

theorem run_of_asks (hp : Options.parse? arguments environment = some options) {c : Credential}
    {method : Http.Method} (h : Asks options files c method)
    (hs : (c.attempt method (Bytes.ofText options.body)).IsSignable host) :
    ∃ set, ((c.attempt method (Bytes.ofText options.body)).built host).outcome = .ok set ∧
      (run arguments environment files host).1 = .printed set := by
  have hf : (c.attempt method (Bytes.ofText options.body)).fault? host = none :=
    Attempt.fault?_standard rfl nofun
  obtain ⟨set, hb, -⟩ := Attempt.succeeds_of_fault?_eq_none hs hf .blank
  refine ⟨set, hb, ?_⟩
  rw [fst_run hp, headers_of_asks h, hb]
  rfl

end Run

/-- The command tells of the first trouble before the headers are built, or prints them; building
them is no trouble. The method's letter case makes no difference to what is printed. -/
theorem run_prints_headers_or_first_trouble {arguments : List String} {environment : Environment}
    {options : Options} {files : Files} {host : Host}
    (hp : Options.parse? arguments environment = some options)
    (hs : ∀ c method, Asks options files c method →
      (c.attempt method (Bytes.ofText options.body)).IsSignable host) :
    let outcome := (run arguments environment files host).1
    (outcome.status = 0 ↔ ∃ file c, load files options.config = .ok file ∧
        Client.resolve (merge options file) = .ok c ∧
        Http.IsToken (options.method.map Char.toUpper)) ∧
      (outcome.status ≠ 0 → outcome.status = 1 ∧ outcome.standardOutput = "" ∧
        ∃ trouble, FirstTrouble options files trouble ∧ outcome = .failed trouble ∧
          trouble.Told outcome.standardError) ∧
      (outcome.status = 0 → ∃ c method set, Asks options files c method ∧
        ((Client.ofCredential c).buildFor method (Bytes.ofText options.body) host).outcome =
          .ok set ∧
        outcome.Prints c method (Bytes.ofText options.body) set) ∧
      ∀ (arguments' : List String) (environment' : Environment) (text : String) (host' : Host),
        Options.parse? arguments' environment' = some { options with method := text } →
        text.map Char.toUpper = options.method.map Char.toUpper →
        (∀ c method, Asks options files c method →
          (c.attempt method (Bytes.ofText options.body)).IsSignable host') →
        outcome.Alike text (run arguments' environment' files host').1 := by
  intro outcome
  rcases firstTrouble_or_asks options files with ⟨trouble, hf⟩ | ⟨c, method, ha⟩
  · have hrun : outcome = .failed trouble := run_of_firstTrouble hp hf host
    rw [hrun]
    refine ⟨?_, ?_, nofun, ?_⟩
    · refine iff_of_false nofun ?_
      rintro ⟨file, c, hl, hr, hm⟩
      have ha : Asks options files c ⟨_, hm⟩ := ⟨⟨file, hl, hr⟩, rfl⟩
      obtain ⟨set, -, hset⟩ := run_of_asks hp ha (hs _ _ ha)
      cases hset.symm.trans hrun
    · exact fun _ ↦ ⟨rfl, rfl, trouble, hf, rfl, trouble.told_report⟩
    · intro arguments' environment' text host' hp' ht _
      rw [run_of_firstTrouble hp' (hf.quoting ht) host']
      exact .failed trouble
  · obtain ⟨set, hb, hset⟩ := run_of_asks hp ha (hs c method ha)
    have hrun : outcome = .printed set := hset
    rw [hrun]
    refine ⟨?_, ?_, ?_, ?_⟩
    · obtain ⟨file, hl, hr⟩ := ha.credential
      exact iff_of_true rfl ⟨file, c, hl, hr, isToken_of_asks ha⟩
    · exact fun h ↦ absurd rfl h
    · exact fun _ ↦ ⟨c, method, set, ha, hb, Outcome.prints_of_built hb⟩
    · intro arguments' environment' text host' hp' ht hs'
      obtain ⟨set', hb', hset'⟩ := run_of_asks hp' (ha.with_method ht) (hs' c method ha)
      rw [hset']
      exact .printed (HeaderSet.sameButFresh_of_build hb hb')

theorem run_prints_headers_or_first_trouble_get :
    let key := "0000000000000000000000000000000000000000000000000000000000000001"
    let arguments := ["--access-key", key, "--method", "get", "--body", "x"]
    let host : Host := .start ⟨1700000000, 0⟩ (fun _ ↦ .ofNat 24 7)
    let secret : Secp256k1.Scalar := ⟨1, by decide, by decide⟩
    let c : Credential := .accessKey (.ofScalar secret)
    let outcome := (run arguments (fun _ ↦ none) (fun _ ↦ .error .notFound) host).1
    outcome.status = 0 ∧ ∃ set, outcome.Prints c .get (Bytes.ofText "x") set := by
  have hp : Options.parse? ["--access-key",
      "0000000000000000000000000000000000000000000000000000000000000001", "--method", "get",
      "--body", "x"] (fun _ ↦ none) =
        some ⟨none, none, none,
          some "0000000000000000000000000000000000000000000000000000000000000001", none, "get", "x",
          false⟩ := by
    rfl
  intro key arguments host secret c outcome
  have hk : AccessKey.ofText key = .ok (.ofScalar secret) := by
    have hs : (AccessKey.ofText key).toOption.map (·.secret) = some secret := by
      decide +kernel
    obtain ⟨pair, ht, he⟩ := Option.map_eq_some_iff.1 hs
    rw [eq_ok_of_toOption ht, ← he, Secp256k1.KeyPair.ofScalar_secret]
  have hr : Client.resolve (ofAccessKey key) = .ok c := by
    have hc : (ofAccessKey key).Chooses .accessKey key := by
      refine ⟨rfl, by decide +kernel, ?_⟩
      intro other ho text ht
      cases other with
      | xpriv | xpub => cases ht
      | accessKey => simp [CredentialKind.preferred] at ho
    rw [Client.resolve_of_chooses hc]
    exact congrArg (Functor.map Credential.accessKey) hk
  have ha (own : Credential) (method : Http.Method)
      (h : Asks ⟨none, none, none, some key, none, "get", "x", false⟩ (fun _ ↦ .error .notFound)
        own method) : own = c ∧ method = .get := by
    obtain ⟨⟨file, hl, ho⟩, hm⟩ := h
    cases hl
    obtain ⟨text, ht⟩ := method
    obtain rfl : text = "GET" := hm.trans (by decide +kernel)
    exact ⟨Except.ok.inj (ho.symm.trans hr), rfl⟩
  have hs (own : Credential) (method : Http.Method)
      (h : Asks ⟨none, none, none, some key, none, "get", "x", false⟩ (fun _ ↦ .error .notFound)
        own method) : (own.attempt method (Bytes.ofText "x")).IsSignable host := by
    obtain ⟨rfl, rfl⟩ := ha own method h
    exact Attempt.isSignable_of_standard rfl ⟨_, rfl, by decide +kernel⟩
  obtain ⟨hstatus, -, hprints, -⟩ := run_prints_headers_or_first_trouble hp hs
  have hzero : outcome.status = 0 :=
    hstatus.2 ⟨Configuration.default, c, rfl, hr, by decide +kernel⟩
  obtain ⟨own, method, set, h, -, hset⟩ := hprints hzero
  obtain ⟨rfl, rfl⟩ := ha own method h
  exact ⟨hzero, set, hset⟩

end Command

end RequestAuth
