import Mathlib.Data.List.Infix
import Mathlib.Data.List.TakeDrop
import Mathlib.Data.List.TakeWhile
import RequestAuth.Command.Options
import RequestAuth.Text.Record

namespace RequestAuth.Command

namespace Setting

theorem ofName?_eq_some_iff {name : List Char} {setting : Setting} :
    ofName? name = some setting ↔ name = setting.name.toList := by
  constructor
  · intro h
    have hs := List.find?_some h
    exact (of_decide_eq_true hs).symm
  · rintro rfl
    cases setting <;> decide +kernel

theorem name_ne_verbose (setting : Setting) : setting.name.toList ≠ verboseName.toList := by
  cases setting <;> decide +kernel

theorem equals_notMem_name (setting : Setting) : '=' ∉ setting.name.toList := by
  cases setting <;> decide +kernel

end Setting

namespace Word

theorem ofLong?_of_notMem {text : List Char} (h : '=' ∉ text) :
    ofLong? text =
      if text = verboseName.toList then some verbose else (Setting.ofName? text).map setting := by
  have hne : ∀ c ∈ text, decide (c ≠ '=') = true := by
    intro c hc
    exact decide_eq_true (fun he ↦ h (he ▸ hc))
  rw [ofLong?, List.span_eq_takeWhile_dropWhile, List.takeWhile_eq_self_iff.2 hne,
    List.dropWhile_eq_nil_iff.2 hne]

theorem ofLong?_append {name : List Char} (h : '=' ∉ name) (value : List Char) :
    ofLong? (name ++ '=' :: value) =
      (Setting.ofName? name).map (assignment · (String.ofList value)) := by
  have hne : ∀ c ∈ name, decide (c ≠ '=') = true := by
    intro c hc
    exact decide_eq_true (fun he ↦ h (he ▸ hc))
  rw [ofLong?, List.span_eq_takeWhile_dropWhile, List.takeWhile_append_of_pos hne,
    List.dropWhile_append_of_pos hne]
  simp

theorem notMem_or_exists_append (text : List Char) :
    '=' ∉ text ∨ ∃ name value, text = name ++ '=' :: value ∧ '=' ∉ name := by
  by_cases h : '=' ∈ text
  · obtain ⟨name, value, ht, hn⟩ := List.eq_append_cons_of_mem h
    exact .inr ⟨name, value, ht, hn⟩
  · exact .inl h

theorem ofLong?_eq_setting_iff {text : List Char} {s : Setting} :
    ofLong? text = some (setting s) ↔ text = s.name.toList := by
  rcases notMem_or_exists_append text with h | ⟨name, value, rfl, h⟩
  · rw [ofLong?_of_notMem h]
    by_cases hv : text = verboseName.toList
    · rw [if_pos hv, hv]
      exact ⟨nofun, fun he ↦ absurd he.symm s.name_ne_verbose⟩
    · simp [if_neg hv, Setting.ofName?_eq_some_iff]
  · rw [ofLong?_append h]
    refine ⟨fun he ↦ by simp at he, fun he ↦ absurd ?_ s.equals_notMem_name⟩
    rw [← he]
    simp

theorem ofLong?_eq_assignment_iff {text : List Char} {s : Setting} {value : String} :
    ofLong? text = some (assignment s value) ↔ text = s.name.toList ++ '=' :: value.toList := by
  constructor
  · intro he
    rcases notMem_or_exists_append text with h | ⟨name, own, rfl, h⟩
    · rw [ofLong?_of_notMem h] at he
      split at he
      · cases he
      · simp at he
    · rw [ofLong?_append h] at he
      obtain ⟨s', hs, hw⟩ := Option.map_eq_some_iff.1 he
      cases hw
      rw [Setting.ofName?_eq_some_iff.1 hs, String.toList_ofList]
  · rintro rfl
    rw [ofLong?_append s.equals_notMem_name, Setting.ofName?_eq_some_iff.2 rfl, Option.map_some,
      String.ofList_toList]

theorem ofArgument?_long (text : String) : ofArgument? ("--" ++ text) = ofLong? text.toList := by
  rw [ofArgument?, String.toList_append]
  rfl

theorem eq_long_of_ofArgument? {argument : String} {word : Word}
    (h : ofArgument? argument = some word) (hw : word ≠ verbose) :
    ∃ text, argument = "--" ++ text ∧ ofLong? text.toList = some word := by
  rw [ofArgument?] at h
  split at h
  · next text ht =>
    refine ⟨String.ofList text, ?_, by rwa [String.toList_ofList]⟩
    rw [← String.toList_inj, ht]
    simp [String.toList_append]
  · split at h
    · exact absurd (Option.some.inj h).symm hw
    · cases h

theorem ofArgument?_eq_setting_iff {argument : String} {s : Setting} :
    ofArgument? argument = some (setting s) ↔ argument = "--" ++ s.name := by
  constructor
  · intro h
    obtain ⟨text, rfl, ht⟩ := eq_long_of_ofArgument? h nofun
    rw [String.toList_inj.1 (ofLong?_eq_setting_iff.1 ht)]
  · rintro rfl
    rw [ofArgument?_long]
    exact ofLong?_eq_setting_iff.2 rfl

theorem ofArgument?_eq_assignment_iff {argument : String} {s : Setting} {value : String} :
    ofArgument? argument = some (assignment s value) ↔
      argument = "--" ++ (s.name ++ "=" ++ value) := by
  have hl : (s.name ++ "=" ++ value).toList = s.name.toList ++ '=' :: value.toList := by
    simp [String.toList_append]
  constructor
  · intro h
    obtain ⟨text, rfl, ht⟩ := eq_long_of_ofArgument? h nofun
    rw [String.toList_inj.1 ((ofLong?_eq_assignment_iff.1 ht).trans hl.symm)]
  · rintro rfl
    rw [ofArgument?_long]
    exact ofLong?_eq_assignment_iff.2 hl

theorem ofArgument?_of_isValue {argument : String} (h : isValue argument) :
    ofArgument? argument = none := by
  rw [isValue, Bool.or_eq_true, decide_eq_true_eq, decide_eq_true_eq] at h
  rcases h with rfl | h
  · rfl
  · rw [ofArgument?]
    split
    · next ht => simp [ht] at h
    · split
      · next ht => simp [ht] at h
      · rfl

end Word

/-- An option stands in a command line, with its value behind it or joined to it. -/
def GivenIn (arguments : List String) (setting : Setting) (value : String) : Prop :=
  ["--" ++ setting.name, value] <:+: arguments ∨ "--" ++ (setting.name ++ "=" ++ value) ∈ arguments

section GivenIn

variable {arguments rest : List String} {setting : Setting} {value : String}

theorem not_givenIn_nil : ¬ GivenIn [] setting value := by
  simp [GivenIn]

theorem givenIn_cons {argument : String} :
    GivenIn (argument :: rest) setting value ↔
      (Word.ofArgument? argument = some (.setting setting) ∧ rest.head? = some value) ∨
        Word.ofArgument? argument = some (.assignment setting value) ∨
        GivenIn rest setting value := by
  have hhead : [value] <+: rest ↔ rest.head? = some value := by
    cases rest with
    | nil => simp
    | cons first rest => simp [List.cons_prefix_cons, eq_comm]
  rw [GivenIn, GivenIn, List.infix_cons_iff, List.cons_prefix_cons, hhead, List.mem_cons,
    Word.ofArgument?_eq_setting_iff, Word.ofArgument?_eq_assignment_iff,
    eq_comm (a := argument), eq_comm (a := argument)]
  tauto

end GivenIn

namespace Given

theorem value?_of_set? {given next : Given} {s s' : Setting} {value value' : String}
    (h : given.set? s' value' = some next) :
    next.value? s = some value ↔
      given.value? s = some value ∨ s' = s ∧ value' = value := by
  rw [set?] at h
  split at h
  · cases h
  · next hn =>
    obtain rfl := Option.some.inj h
    rw [value?, List.lookup_append]
    by_cases hs : s = s'
    · subst hs
      have hnone : given.values.lookup s = none := Option.not_isSome_iff_eq_none.1 hn
      simp [value?, hnone]
    · have hne : (s == s') = false := by simpa using hs
      simp [value?, List.lookup_cons, hne, Ne.symm hs]

theorem value?_of_setVerbose? {given next : Given} (h : given.setVerbose? = some next)
    (s : Setting) : next.value? s = given.value? s := by
  rw [setVerbose?] at h
  split at h
  · cases h
  · obtain rfl := Option.some.inj h
    rfl

/-- Each argument is taken as what it says, so that an option is given just if it stands there. -/
theorem value?_of_take? {given result : Given} {arguments : List String}
    (h : given.take? arguments = some result) (s : Setting) (value : String) :
    result.value? s = some value ↔ given.value? s = some value ∨ GivenIn arguments s value := by
  fun_induction take? given arguments generalizing result with
  | case1 given =>
    obtain rfl := Option.some.inj h
    simp [not_givenIn_nil]
  | case2 given =>
    obtain rfl := Option.some.inj h
    have hnone : Word.ofArgument? "--" = none := rfl
    simp [givenIn_cons, hnone, not_givenIn_nil]
  | case3 => cases h
  | case4 given argument _ rest hw ih =>
    obtain ⟨next, hn, h⟩ := Option.bind_eq_some_iff.1 h
    rw [ih next h, value?_of_setVerbose? hn, givenIn_cons]
    simp [hw]
  | case5 given argument _ setting own rest hw ih =>
    obtain ⟨next, hn, h⟩ := Option.bind_eq_some_iff.1 h
    rw [ih next h, value?_of_set? hn, givenIn_cons]
    simp [hw, or_assoc]
  | case6 given argument _ setting own rest hw hv ih =>
    obtain ⟨next, hn, h⟩ := Option.bind_eq_some_iff.1 h
    rw [ih next h, value?_of_set? hn, givenIn_cons, givenIn_cons]
    simp [hw, Word.ofArgument?_of_isValue hv, or_assoc]
  | case7 => cases h
  | case8 => cases h

end Given

/-- The option gives the value or, if it is not there, its variable does. -/
def Obtains (arguments : List String) (environment : Environment) (setting : Setting)
    (value : String) : Prop :=
  GivenIn arguments setting value ∨
    (∀ other, ¬ GivenIn arguments setting other) ∧
      ∃ name, setting.variableName = some name ∧ environment name = some value

theorem effective_eq_some_iff {arguments : List String} {given : Given}
    (h : Given.empty.take? arguments = some given) (environment : Environment) (setting : Setting)
    (value : String) :
    Options.effective given environment setting = some value ↔
      Obtains arguments environment setting value := by
  have hg (other : String) :
      given.value? setting = some other ↔ GivenIn arguments setting other := by
    rw [Given.value?_of_take? h]
    exact or_iff_right nofun
  rw [Options.effective, Option.or_eq_some_iff, Obtains, hg, Option.bind_eq_some_iff]
  refine or_congr_right (and_congr_left' ?_)
  rw [Option.eq_none_iff_forall_ne_some]
  exact forall_congr' (fun other ↦ not_congr (hg other))

/-- The options are those of the command line and its environment. A flag is spelt out, and an
option that has a default has it if there is nothing else. -/
structure Options.Reads (options : Options) (arguments : List String)
    (environment : Environment) : Prop where
  config : ∀ value, options.config = some value ↔ Obtains arguments environment .config value
  xpriv : ∀ value, options.xpriv = some value ↔ Obtains arguments environment .xpriv value
  xpub : ∀ value, options.xpub = some value ↔ Obtains arguments environment .xpub value
  accessKey : ∀ value,
    options.accessKey = some value ↔ Obtains arguments environment .accessKey value
  signRequest : ∀ value, Obtains arguments environment .signRequest value ↔
    ∃ b, options.signRequest = some b ∧ value = Text.flag b
  method : ∀ value, options.method = value ↔ Obtains arguments environment .method value ∨
    (∀ other, ¬ Obtains arguments environment .method other) ∧ value = "GET"
  body : ∀ value, options.body = value ↔ Obtains arguments environment .body value ∨
    (∀ other, ¬ Obtains arguments environment .body other) ∧ value = ""

namespace Options

theorem flag?_eq_some_iff {text : String} {b : Bool} :
    flag? text = some b ↔ text = Text.flag b := by
  rw [flag?]
  split
  · next ht => cases b <;> simp [ht, Text.flag]
  · next ht =>
    split
    · next hf => cases b <;> simp [hf, Text.flag]
    · next hf => cases b <;> simp [ht, hf, Text.flag]

def gathered (given : Given) (environment : Environment) (signs : Option Bool) : Options :=
  ⟨effective given environment .config, effective given environment .xpriv,
    effective given environment .xpub, effective given environment .accessKey, signs,
    (effective given environment .method).getD "GET", (effective given environment .body).getD "",
    given.verbose⟩

theorem exists_of_ofGiven? {given : Given} {environment : Environment} {options : Options}
    (h : ofGiven? given environment = some options) :
    ∃ signs, options = gathered given environment signs ∧
      ∀ text, effective given environment .signRequest = some text ↔
        ∃ b, signs = some b ∧ text = Text.flag b := by
  have hpath {signs : Option Bool}
      (hs : (if effective given environment .config = some "" then none
        else some (gathered given environment signs)) = some options) :
      options = gathered given environment signs := by
    split at hs
    · cases hs
    · exact (Option.some.inj hs).symm
  rw [ofGiven?] at h
  dsimp only at h
  split at h
  · next hv =>
    refine ⟨none, hpath h, fun text ↦ ?_⟩
    rw [hv]
    simp
  · next own hv =>
    obtain ⟨signs, hs, ho⟩ := Option.bind_eq_some_iff.1 h
    obtain ⟨b, hb, rfl⟩ := Option.map_eq_some_iff.1 hs
    refine ⟨some b, hpath ho, fun text ↦ ?_⟩
    rw [hv, flag?_eq_some_iff.1 hb]
    simp [eq_comm]

theorem reads_of_parse? {arguments : List String} {environment : Environment} {options : Options}
    (h : parse? arguments environment = some options) : options.Reads arguments environment := by
  obtain ⟨given, hg, h⟩ := Option.bind_eq_some_iff.1 h
  obtain ⟨signs, rfl, hs⟩ := exists_of_ofGiven? h
  have he := effective_eq_some_iff hg environment
  have hd (setting : Setting) (default value : String) :
      (effective given environment setting).getD default = value ↔
        Obtains arguments environment setting value ∨
          (∀ other, ¬ Obtains arguments environment setting other) ∧ value = default := by
    simp only [← he]
    cases effective given environment setting <;> simp [eq_comm]
  exact ⟨he .config, he .xpriv, he .xpub, he .accessKey,
    fun value ↦ (he .signRequest value).symm.trans (hs value), hd .method "GET", hd .body ""⟩

end Options

end RequestAuth.Command
