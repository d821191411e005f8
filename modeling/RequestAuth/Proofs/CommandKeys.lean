import RequestAuth.Proofs.CommandLine
import RequestAuth.Proofs.CommandRun

namespace RequestAuth.Command

open RequestAuth.Configuration

/-- The file that the path names, if there is one, holds these fields and nothing behind them. -/
inductive Says (files : Files) : Option String → Draft → Prop
  | nothing : Says files none .empty
  | fields {path text : String} {draft : Draft} {rest : List Char}
      (content : readFile files path = .ok text)
      (read : Draft.read text.toList = .ok (draft, rest)) (done : Json.skipSpace rest = []) :
      Says files (some path) draft

theorem exists_says_of_load {files : Files} {config : Option String} {file : Configuration}
    (h : load files config = .ok file) :
    ∃ draft, Says files config draft ∧ file = draft.toConfiguration := by
  cases config with
  | none => exact ⟨.empty, .nothing, (Except.ok.inj h).symm⟩
  | some path =>
    have hf : ofFile files path = .ok file := eq_ok_of_mapError_eq_ok h
    rw [ofFile] at hf
    split at hf
    · cases hf
    · next text hc =>
      have hj : ofChars text.toList = .ok file := eq_ok_of_mapError_eq_ok hf
      rw [ofChars] at hj
      split at hj
      · cases hj
      · next draft rest hr =>
        split at hj
        · next hd => exact ⟨draft, .fields hc hr hd, (Except.ok.inj hj).symm⟩
        · cases hj

def ObtainsKey (arguments : List String) (environment : Environment) : Prop :=
  ∃ setting ∈ [Setting.xpriv, .xpub, .accessKey], ∃ value,
    Obtains arguments environment setting value

namespace Options

def keys (options : Options) (signs : Bool) : Configuration :=
  ⟨options.xpriv, options.xpub, options.accessKey, signs⟩

theorem hasKey_keys_iff {options : Options} {arguments : List String} {environment : Environment}
    (h : options.Reads arguments environment) (signs : Bool) :
    (options.keys signs).hasKey ↔ ObtainsKey arguments environment := by
  simp only [hasKey, keys, Bool.or_eq_true, Option.isSome_iff_exists, h.xpriv, h.xpub, h.accessKey,
    ObtainsKey, List.mem_cons, List.not_mem_nil, or_false, exists_eq_or_imp, exists_eq_left,
    or_assoc]

end Options

section Merge

variable {options : Options} {signs : Bool} (file : Configuration)

theorem merge_of_hasKey (h : (options.keys signs).hasKey) :
    merge options file = options.keys (options.signRequest.getD file.signRequest) := by
  have hs : (options.xpriv.isSome || options.xpub.isSome || options.accessKey.isSome) = true := h
  simp only [merge, if_pos hs, Options.keys]

theorem merge_of_not_hasKey (h : ¬ (options.keys signs).hasKey) :
    merge options file =
      { file with signRequest := options.signRequest.getD file.signRequest } := by
  have hs : ¬ (options.xpriv.isSome || options.xpub.isSome || options.accessKey.isSome) = true := h
  simp only [merge, if_neg hs]

end Merge

/-- A key among the options keeps those of the file out, whatever they are; without one the file's
keys are taken. -/
theorem run_takes_keys_from_one_place {arguments : List String} {environment : Environment}
    {files : Files} {options : Options} {file : Configuration}
    (hp : Options.parse? arguments environment = some options)
    (hl : load files options.config = .ok file) (host : Host) :
    options.Reads arguments environment ∧
      ∃ draft signs, Says files options.config draft ∧
        signs = (options.signRequest.or draft.signRequest).getD true ∧
        (run arguments environment files host).1 =
          concluded options host (Client.resolve (merge options file)) ∧
        (ObtainsKey arguments environment →
          merge options file = options.keys signs ∧
          ((∀ kind, (options.keys signs).HasBlank kind) →
            (run arguments environment files host).1 = .failed (.building .noKeys)) ∧
          ∀ (arguments' : List String) (environment' : Environment) (path' : Option String)
            (files' : Files) (file' : Configuration),
            Options.parse? arguments' environment' = some { options with config := path' } →
            load files' path' = .ok file' →
            options.signRequest.getD file'.signRequest = signs →
            merge options file' = merge options file ∧
              (run arguments' environment' files' host).1 =
                (run arguments environment files host).1) ∧
        (¬ ObtainsKey arguments environment →
          merge options file = { draft.toConfiguration with signRequest := signs }) := by
  have hr := Options.reads_of_parse? hp
  have hk := Options.hasKey_keys_iff hr
  obtain ⟨draft, hd, rfl⟩ := exists_says_of_load hl
  have hs : options.signRequest.getD draft.toConfiguration.signRequest =
      (options.signRequest.or draft.signRequest).getD true := by
    cases options.signRequest <;> rfl
  have hrun := fst_run_of_load hp hl host
  refine ⟨hr, draft, _, hd, rfl, hrun, ?_, ?_⟩
  · intro ho
    have hm := merge_of_hasKey draft.toConfiguration ((hk true).2 ho)
    rw [hs] at hm
    refine ⟨hm, ?_, ?_⟩
    · intro hb
      rw [hrun, hm, Client.resolve_of_hasBlank hb]
      rfl
    · intro arguments' environment' path' files' file' hp' hl' hs'
      have hm' := merge_of_hasKey file' ((hk true).2 ho)
      rw [hs', ← hm] at hm'
      refine ⟨hm', ?_⟩
      have hrun' := fst_run_of_load hp' hl' host
      rw [hrun, ← hm']
      exact hrun'
  · intro ho
    have hm := merge_of_not_hasKey draft.toConfiguration (mt (hk true).1 ho)
    rwa [hs] at hm

theorem run_takes_keys_from_one_place_blank :
    let arguments := ["--config", "keys.json", "--xpub", " "]
    let files : Files := fun _ ↦ .ok (Bytes.ofText "\x7b\"xpriv\":\"nope\"\x7d")
    load files (some "keys.json") = .ok (.ofXpriv "nope") ∧
      (run arguments (fun _ ↦ none) files (.start ⟨0, 0⟩ (fun _ ↦ .ofNat 24 7))).1 =
        .failed (.building .noKeys) := by
  intro arguments files
  have hp : Options.parse? arguments (fun _ ↦ none) =
      some ⟨some "keys.json", none, some " ", none, none, "GET", "", false⟩ := rfl
  have hl : load files (some "keys.json") = .ok (.ofXpriv "nope") :=
    eq_ok_of_toOption (by decide +kernel)
  have ho : ObtainsKey arguments (fun _ ↦ none) :=
    ⟨.xpub, by simp, " ", .inl (.inl ⟨["--config", "keys.json"], [], rfl⟩)⟩
  refine ⟨hl, ?_⟩
  obtain ⟨-, draft, signs, -, -, -, h, -⟩ := run_takes_keys_from_one_place hp hl
    (.start ⟨0, 0⟩ (fun _ ↦ .ofNat 24 7))
  refine (h ho).2.1 ?_
  intro kind text ht
  cases kind with
  | xpriv | accessKey => cases ht
  | xpub =>
    cases ht
    decide +kernel

end RequestAuth.Command
