import RequestAuth.Proofs.ConfigurationMembers

namespace RequestAuth.Configuration

open Json

namespace Field

def Admits : Field → Tree → Prop
  | .signRequest, value => ∃ b, value = .boolean b
  | _, value => value = .null ∨ ∃ units, value = .string units

def Reads : Field → Tree → Prop
  | .signRequest, value => ∃ b, value = .boolean b
  | _, value => ∃ key, value = keyTree key

def occurrences (field : Field) (members : List Member) : ℕ :=
  (members.map Prod.fst).count (textUnits field.name)

theorem exists_keyTree_iff {value : Tree} : (∃ key, value = keyTree key) ↔
    (value = .null ∨ ∃ units, value = .string units) ∧
      ∀ units, value = .string units → ∃ text, units = textUnits text := by
  constructor
  · rintro ⟨key, rfl⟩
    cases key with
    | none => exact ⟨.inl rfl, nofun⟩
    | some text => exact ⟨.inr ⟨_, rfl⟩, fun units hu ↦ ⟨text, (Tree.string.inj hu).symm⟩⟩
  · rintro ⟨rfl | ⟨units, rfl⟩, ht⟩
    · exact ⟨none, rfl⟩
    · obtain ⟨text, rfl⟩ := ht units rfl
      exact ⟨some text, rfl⟩

theorem reads_iff {field : Field} {value : Tree} : field.Reads value ↔
    field.Admits value ∧ ∀ units, value = .string units → ∃ text, units = textUnits text := by
  cases field with
  | xpriv | xpub | accessKey => exact exists_keyTree_iff
  | signRequest =>
    refine (and_iff_left_of_imp ?_).symm
    rintro ⟨b, rfl⟩
    exact nofun

theorem occurrences_cons {name : String} {value : Tree} (field : Field) (members : List Member) :
    field.occurrences ((textUnits name, value) :: members) =
      field.occurrences members + if name = field.name then 1 else 0 := by
  rw [occurrences, List.map_cons, List.count_cons, occurrences]
  simp only [beq_iff_eq, textUnits_inj]

end Field

/-- The names of an object's members and the strings of its fields are texts. -/
structure NoLoneSurrogates (members : List Member) : Prop where
  names : ∀ member ∈ members, ∃ name, member.1 = textUnits name
  strings : ∀ (field : Field) units, (textUnits field.name, .string units) ∈ members →
    ∃ text, units = textUnits text

/-- A key that is missing is none, and so is one that is null. -/
inductive KeyIn (members : List Member) (field : Field) : Option String → Prop
  | missing (h : ∀ value, (textUnits field.name, value) ∉ members) : KeyIn members field none
  | null (h : (textUnits field.name, .null) ∈ members) : KeyIn members field none
  | text {text : String} (h : (textUnits field.name, .string (textUnits text)) ∈ members) :
      KeyIn members field (some text)

inductive FlagIn (members : List Member) (field : Field) : Bool → Prop
  | missing (h : ∀ value, (textUnits field.name, value) ∉ members) : FlagIn members field true
  | boolean {b : Bool} (h : (textUnits field.name, .boolean b) ∈ members) : FlagIn members field b

/-- What a configuration is when it is read from an object's members. -/
structure IsIn (configuration : Configuration) (members : List Member) : Prop where
  xpriv : KeyIn members .xpriv configuration.xpriv
  xpub : KeyIn members .xpub configuration.xpub
  accessKey : KeyIn members .accessKey configuration.accessKey
  signRequest : FlagIn members .signRequest configuration.signRequest

/-- The members of an object in another order, and with more or fewer members that are no fields. -/
inductive Rearranged : List Member → List Member → Prop
  | perm {members others : List Member} (h : members.Perm others) : Rearranged members others
  | add {name : String} (hn : ∀ field : Field, name ≠ field.name) (value : Tree)
      (members : List Member) : Rearranged members ((textUnits name, value) :: members)
  | remove {name : String} (hn : ∀ field : Field, name ≠ field.name) (value : Tree)
      (members : List Member) : Rearranged ((textUnits name, value) :: members) members
  | trans {members others more : List Member} (h : Rearranged members others)
      (h' : Rearranged others more) : Rearranged members more

namespace Draft

variable {draft next last : Draft} {field : Field} {value : Tree} {members : List Member}

def value? (draft : Draft) : Field → Option Tree
  | .xpriv => draft.xpriv.map keyTree
  | .xpub => draft.xpub.map keyTree
  | .accessKey => draft.accessKey.map keyTree
  | .signRequest => draft.signRequest.map .boolean

theorem isSome_value? (draft : Draft) (field : Field) :
    (draft.value? field).isSome = draft.has field := by
  cases field <;> exact Option.isSome_map

theorem value?_injective {draft other : Draft} (h : draft.value? = other.value?) :
    draft = other := by
  have hkey {a b : Option (Option String)} (h : a.map keyTree = b.map keyTree) : a = b :=
    Option.map_injective (fun _ _ ↦ keyTree_injective) h
  have hflag {a b : Option Bool} (h : a.map Tree.boolean = b.map Tree.boolean) : a = b :=
    Option.map_injective (fun _ _ ↦ Tree.boolean.inj) h
  obtain ⟨xpriv, xpub, accessKey, signRequest⟩ := draft
  obtain ⟨xpriv', xpub', accessKey', signRequest'⟩ := other
  rw [Draft.mk.injEq]
  exact ⟨hkey (congrFun h .xpriv), hkey (congrFun h .xpub), hkey (congrFun h .accessKey),
    hflag (congrFun h .signRequest)⟩

theorem Puts.value?_eq (h : draft.Puts field value next) :
    next.value? = Function.update draft.value? field (some value) := by
  funext other
  cases field with
  | xpriv | xpub | accessKey | signRequest =>
    obtain ⟨key, rfl, rfl⟩ := h
    cases other <;> rfl

theorem Puts.has_eq (h : draft.Puts field value next) (other : Field) :
    next.has other = if other = field then true else draft.has other := by
  rw [← isSome_value?, ← isSome_value?, h.value?_eq, Function.update_apply]
  split
  · rfl
  · rfl

theorem exists_puts_iff : (∃ next, draft.Puts field value next) ↔ field.Reads value := by
  cases field with
  | xpriv | xpub | accessKey | signRequest =>
    constructor
    · rintro ⟨-, key, hv, -⟩
      exact ⟨key, hv⟩
    · rintro ⟨key, hv⟩
      exact ⟨_, key, hv, rfl⟩

theorem exists_gains_iff {name : String} : (∃ next, draft.Gains name value next) ↔
    ∀ field : Field, name = field.name → field.Reads value ∧ draft.has field = false := by
  cases hf : Field.ofName? name with
  | none =>
    have hn := Field.ofName?_eq_none_iff.1 hf
    exact iff_of_true ⟨draft, .other hn⟩ fun field he ↦ absurd he (hn field)
  | some field =>
    obtain rfl := Field.ofName?_eq_some_iff.1 hf
    simp only [gains_field_iff, exists_and_left, exists_puts_iff]
    constructor
    · rintro ⟨hh, hr⟩ other he
      obtain rfl := Field.name_injective he
      exact ⟨hr, hh⟩
    · intro h
      exact (h field rfl).symm

theorem Gains.has_eq {name : String} (h : draft.Gains name value next) (field : Field) :
    (next.has field).toNat = (draft.has field).toNat + if name = field.name then 1 else 0 := by
  cases h with
  | other hn => rw [if_neg (hn field), Nat.add_zero]
  | @field own _ _ hh hp =>
    rw [hp.has_eq]
    by_cases he : field = own
    · subst he
      rw [if_pos rfl, if_pos rfl, hh]
      rfl
    · rw [if_neg he, if_neg fun hn ↦ he (Field.name_injective hn).symm]
      rfl

/-- The names of members are texts, the fields among them are read from what they have, and none is
there a second time. -/
structure CanGather (draft : Draft) (members : List Member) : Prop where
  names : ∀ member ∈ members, ∃ name, member.1 = textUnits name
  reads : ∀ (field : Field) value, (textUnits field.name, value) ∈ members → field.Reads value
  once : ∀ field : Field, (draft.has field).toNat + field.occurrences members ≤ 1

theorem CanGather.of_cons {name : String} (h : draft.CanGather ((textUnits name, value) :: members))
    (hg : draft.Gains name value next) : next.CanGather members where
  names member hm := h.names member (List.mem_cons_of_mem _ hm)
  reads field own hm := h.reads field own (List.mem_cons_of_mem _ hm)
  once field := by
    have ho := h.once field
    rw [Field.occurrences_cons] at ho
    rw [hg.has_eq]
    omega

theorem CanGather.cons {name : String} (h : next.CanGather members)
    (hg : draft.Gains name value next) :
    draft.CanGather ((textUnits name, value) :: members) where
  names := List.forall_mem_cons.2 ⟨⟨name, rfl⟩, h.names⟩
  reads field own hm := by
    rcases List.mem_cons.1 hm with he | hm
    · obtain ⟨hn, rfl⟩ := Prod.mk.inj he
      exact (exists_gains_iff.1 ⟨next, hg⟩ field (textUnits_injective hn).symm).1
    · exact h.reads field own hm
  once field := by
    have ho := h.once field
    rw [hg.has_eq] at ho
    rw [Field.occurrences_cons]
    omega

theorem CanGather.exists_gains {name : String}
    (h : draft.CanGather ((textUnits name, value) :: members)) :
    ∃ next, draft.Gains name value next := by
  refine exists_gains_iff.2 fun field he ↦ ?_
  subst he
  refine ⟨h.reads field value List.mem_cons_self, ?_⟩
  have ho := h.once field
  rw [Field.occurrences_cons, if_pos rfl] at ho
  exact Bool.toNat_eq_zero.1 (by omega)

theorem CanGather.perm {others : List Member} (h : draft.CanGather members)
    (hp : members.Perm others) : draft.CanGather others where
  names member hm := h.names member (hp.mem_iff.2 hm)
  reads field value hm := h.reads field value (hp.mem_iff.2 hm)
  once field := by
    have hc : field.occurrences others = field.occurrences members :=
      ((hp.map Prod.fst).count_eq _).symm
    rw [hc]
    exact h.once field

theorem exists_gathers_iff :
    (∃ last, draft.Gathers members last) ↔ draft.CanGather members := by
  induction members generalizing draft with
  | nil => exact iff_of_true ⟨draft, rfl⟩ ⟨nofun, nofun, fun field ↦ Bool.toNat_le _⟩
  | cons member members ih =>
    obtain ⟨units, value⟩ := member
    constructor
    · rintro ⟨last, name, next, rfl, hg, h⟩
      exact (ih.1 ⟨last, h⟩).cons hg
    · intro h
      obtain ⟨name, rfl⟩ := h.names _ List.mem_cons_self
      obtain ⟨next, hg⟩ := h.exists_gains
      obtain ⟨last, hl⟩ := ih.2 (h.of_cons hg)
      exact ⟨last, name, next, rfl, hg, hl⟩

theorem value?_eq_none (h : draft.has field = false) : draft.value? field = none :=
  Option.not_isSome_iff_eq_none.1 (by rw [isSome_value?, h]; decide)

theorem Gains.value?_eq_some_iff {name : String} {own : Tree} (h : draft.Gains name value next)
    (field : Field) : next.value? field = some own ↔
      draft.value? field = some own ∨ (textUnits field.name, own) = (textUnits name, value) := by
  rw [Prod.mk.injEq, textUnits_inj]
  cases h with
  | other hn => exact (or_iff_left fun he ↦ hn field he.1.symm).symm
  | @field other _ _ hh hp =>
    rw [hp.value?_eq, Function.update_apply]
    by_cases he : field = other
    · subst he
      simp [value?_eq_none hh, eq_comm]
    · rw [if_neg he]
      exact (or_iff_left fun hn ↦ he (Field.name_injective hn.1)).symm

theorem Gathers.value?_eq_some_iff (h : draft.Gathers members last) (field : Field) (value : Tree) :
    last.value? field = some value ↔
      draft.value? field = some value ∨ (textUnits field.name, value) ∈ members := by
  induction members generalizing draft with
  | nil =>
    obtain rfl := h
    exact (or_iff_left List.not_mem_nil).symm
  | cons member members ih =>
    obtain ⟨name, next, hu, hg, h⟩ := h
    obtain ⟨units, own⟩ := member
    subst hu
    rw [ih h, hg.value?_eq_some_iff, List.mem_cons, or_assoc]

theorem gathers_other_iff {name : String} (hn : ∀ field : Field, name ≠ field.name) :
    draft.Gathers ((textUnits name, value) :: members) last ↔ draft.Gathers members last := by
  constructor
  · rintro ⟨own, next, hu, hg, h⟩
    obtain rfl := textUnits_injective hu
    obtain rfl := (gains_other_iff hn).1 hg
    exact h
  · intro h
    exact ⟨name, draft, rfl, .other hn, h⟩

section Empty

theorem toNat_has_empty (field : Field) : (empty.has field).toNat = 0 := by
  cases field <;> rfl

/-- What is read from members depends on which they are, not on where they stand. -/
theorem gathers_empty_iff : empty.Gathers members last ↔
    empty.CanGather members ∧ ∀ (field : Field) value,
      last.value? field = some value ↔ (textUnits field.name, value) ∈ members := by
  have hnone (field : Field) (value : Tree) : empty.value? field ≠ some value := by
    cases field <;> exact nofun
  have hvalue {last : Draft} (h : empty.Gathers members last) (field : Field) (value : Tree) :
      last.value? field = some value ↔ (textUnits field.name, value) ∈ members :=
    (h.value?_eq_some_iff field value).trans (or_iff_right (hnone field value))
  rw [← exists_gathers_iff]
  constructor
  · intro h
    exact ⟨⟨last, h⟩, hvalue h⟩
  · rintro ⟨⟨own, h⟩, hlast⟩
    suffices last = own from this ▸ h
    refine value?_injective (funext fun field ↦ Option.ext fun value ↦ ?_)
    exact (hlast field value).trans (hvalue h field value).symm

theorem gathers_iff_of_perm {others : List Member} (h : members.Perm others) :
    empty.Gathers others last ↔ empty.Gathers members last := by
  rw [gathers_empty_iff, gathers_empty_iff]
  simp only [h.mem_iff]
  exact and_congr_left fun _ ↦ ⟨fun hc ↦ hc.perm h.symm, fun hc ↦ hc.perm h⟩

theorem gathers_iff_of_rearranged {others : List Member} (h : Rearranged members others) :
    empty.Gathers others last ↔ empty.Gathers members last := by
  induction h with
  | perm h => exact gathers_iff_of_perm h
  | add hn value members => exact gathers_other_iff hn
  | remove hn value members => exact (gathers_other_iff hn).symm
  | trans _ _ ih ih' => exact ih'.trans ih

theorem keyIn_join {key : Option (Option String)}
    (h : ∀ value, key.map keyTree = some value ↔ (textUnits field.name, value) ∈ members) :
    KeyIn members field key.join := by
  cases key with
  | none => exact .missing fun value hm ↦ nomatch (h value).2 hm
  | some key =>
    cases key with
    | none => exact .null ((h _).1 rfl)
    | some text => exact .text ((h _).1 rfl)

theorem flagIn_getD {flag : Option Bool}
    (h : ∀ value, flag.map .boolean = some value ↔ (textUnits field.name, value) ∈ members) :
    FlagIn members field (flag.getD true) := by
  cases flag with
  | none => exact .missing fun value hm ↦ nomatch (h value).2 hm
  | some b => exact .boolean ((h _).1 rfl)

theorem isIn_of_gathers (h : empty.Gathers members draft) :
    draft.toConfiguration.IsIn members := by
  obtain ⟨-, hvalue⟩ := gathers_empty_iff.1 h
  exact ⟨keyIn_join (hvalue .xpriv), keyIn_join (hvalue .xpub), keyIn_join (hvalue .accessKey),
    flagIn_getD (hvalue .signRequest)⟩

end Empty

end Draft

variable {members others : List Member} {text other : String}

theorem exists_ofJson_iff (h : IsObjectText members text) :
    (∃ configuration, ofJson text = .ok configuration) ↔
      Draft.empty.CanGather members := by
  rw [← Draft.exists_gathers_iff]
  constructor
  · rintro ⟨configuration, hc⟩
    obtain ⟨draft, hg, -⟩ := (ofJson_iff h).1 hc
    exact ⟨draft, hg⟩
  · rintro ⟨draft, hg⟩
    exact ⟨_, (ofJson_iff h).2 ⟨draft, hg, rfl⟩⟩

theorem ofJson_of_rearranged (h : IsObjectText members text) (hr : Rearranged members others)
    (ho : IsObjectText others other) (configuration : Configuration) :
    ofJson other = .ok configuration ↔ ofJson text = .ok configuration := by
  simp only [ofJson_iff h, ofJson_iff ho, Draft.gathers_iff_of_rearranged hr]

theorem exists_ofJson_iff_admits (h : IsObjectText members text) (hs : NoLoneSurrogates members)
    (honce : ∀ field : Field, field.occurrences members ≤ 1) :
    (∃ configuration, ofJson text = .ok configuration) ↔
      ∀ (field : Field) value, (textUnits field.name, value) ∈ members → field.Admits value := by
  rw [exists_ofJson_iff h]
  constructor
  · intro hg field value hm
    exact (Field.reads_iff.1 (hg.reads field value hm)).1
  · intro hadmits
    refine ⟨hs.names, fun field value hm ↦ ?_, fun field ↦ ?_⟩
    · refine Field.reads_iff.2 ⟨hadmits field value hm, ?_⟩
      rintro units rfl
      exact hs.strings field units hm
    · rw [Draft.toNat_has_empty, Nat.zero_add]
      exact honce field

theorem isIn_of_ofJson (h : IsObjectText members text) {configuration : Configuration}
    (hc : ofJson text = .ok configuration) : configuration.IsIn members := by
  obtain ⟨draft, hg, rfl⟩ := (ofJson_iff h).1 hc
  exact Draft.isIn_of_gathers hg

theorem ofJson_of_repeated (h : IsObjectText members text) {field : Field}
    (hf : 1 < field.occurrences members) :
    ∃ reason, ofJson text = .error (.badConfiguration reason) := by
  cases ho : ofJson text with
  | error failure =>
    obtain ⟨fault, -, rfl⟩ := exists_of_mapError_eq_error ho
    exact ⟨_, rfl⟩
  | ok configuration =>
    have honce := ((exists_ofJson_iff h).1 ⟨configuration, ho⟩).once field
    rw [Draft.toNat_has_empty, Nat.zero_add] at honce
    exact absurd honce (Nat.not_le.2 hf)

def respelled : List Member :=
  [(textUnits "x", .list [.object []]), (textUnits "sign_request", .boolean true),
    (textUnits "xpriv", .string (textUnits "a"))]

theorem isObjectText_respelled : IsObjectText respelled
    "\x7b\"x\":[\x7b\x7d], \"sign_request\":true,\"xp\\u0072iv\":\"a\"\x7d" := by
  have hwritten (name : String) : SpellsString (textUnits name) (writeString name.toList) :=
    spellsString_writeString _
  have hlist : Spells (.list [.object []]) ['[', '\x7b', '\x7d', ']'] :=
    .list (.one (.object (.none (s := []) nofun)) (pads_self _))
  have hescape : SpellsEscape (Radix.value 16 [0, 0, 7, 2]) ['u', '0', '0', '7', '2'] :=
    .hex rfl (by decide) (by decide)
  have hname : SpellsString (textUnits "xpriv") "\"xp\\u0072iv\"".toList :=
    .quote (.cons (spellsUnits_escape 'x') (.cons (spellsUnits_escape 'p')
      (.cons (.escape hescape) (.cons (spellsUnits_escape 'i')
        (.cons (spellsUnits_escape 'v') .nil)))))
  have hspace : Pads (writeString "sign_request".toList)
      (' ' :: writeString "sign_request".toList) :=
    ⟨[' '], [], List.forall_mem_singleton.2 (by decide), nofun, rfl⟩
  have hlast := SpellsMembers.one hname (pads_self _) (.string (hwritten "a")) (pads_self _)
  have hmore :=
    SpellsMembers.more (hwritten "sign_request") hspace (.boolean true) (pads_self _) hlast
  exact ⟨_, .object (.more (hwritten "x") (pads_self _) hlist (pads_self _) hmore), pads_self _⟩

theorem isObjectText_repeated : IsObjectText
    [(textUnits "xpub", .null), (textUnits "xpub", .string (textUnits "a"))]
    "\x7b\"xpub\":null,\"xpub\":\"a\"\x7d" := by
  have hwritten (name : String) : SpellsString (textUnits name) (writeString name.toList) :=
    spellsString_writeString _
  have hlast :=
    SpellsMembers.one (hwritten "xpub") (pads_self _) (.string (hwritten "a")) (pads_self _)
  exact ⟨_, .object (.more (hwritten "xpub") (pads_self _) .null (pads_self _) hlast), pads_self _⟩

/-- An object is read by the names of its members. Where they stand, what other members there are
and how all are spelled makes no difference. Fields that are there once are read just if they have
values that they may have, and a field that is there twice is never read. -/
theorem ofJson_reads_by_name (h : IsObjectText members text) :
    (∀ {others other}, Rearranged members others → IsObjectText others other →
      ∀ configuration, ofJson other = .ok configuration ↔ ofJson text = .ok configuration) ∧
    (∀ configuration, ofJson text = .ok configuration → configuration.IsIn members) ∧
    (NoLoneSurrogates members → (∀ field : Field, field.occurrences members ≤ 1) →
      ((∃ configuration, ofJson text = .ok configuration) ↔
        ∀ (field : Field) value, (textUnits field.name, value) ∈ members → field.Admits value)) ∧
    ∀ field : Field, 1 < field.occurrences members →
      ∃ reason, ofJson text = .error (.badConfiguration reason) := by
  refine ⟨?_, ?_, ?_, ?_⟩
  · intro others other hr ho configuration
    exact ofJson_of_rearranged h hr ho configuration
  · intro configuration hc
    exact isIn_of_ofJson h hc
  · intro hs honce
    exact exists_ofJson_iff_admits h hs honce
  · intro field hf
    exact ofJson_of_repeated h hf

theorem ofJson_reads_by_name_respelled :
    (ofJson "\x7b\"x\":[\x7b\x7d], \"sign_request\":true,\"xp\\u0072iv\":\"a\"\x7d" =
        .ok (ofXpriv "a") ∧
      (ofXpriv "a").IsIn respelled) ∧
    ∃ reason, ofJson "\x7b\"xpub\":null,\"xpub\":\"a\"\x7d" =
      .error (.badConfiguration reason) := by
  obtain ⟨hsame, hin, hread, -⟩ := ofJson_reads_by_name isObjectText_respelled
  obtain ⟨-, -, -, hrepeated⟩ := ofJson_reads_by_name isObjectText_repeated
  have hx : ∀ field : Field, "x" ≠ field.name := Field.ofName?_eq_none_iff.1 rfl
  have hnames : ∀ member ∈ respelled, ∃ name, member.1 = textUnits name := by
    simp [respelled]
  have hstrings (field : Field) (units : List Nat)
      (hm : (textUnits field.name, .string units) ∈ respelled) : ∃ text, units = textUnits text := by
    simp only [respelled, List.mem_cons, Prod.mk.injEq, reduceCtorEq, and_false, false_or,
      List.not_mem_nil, or_false, Tree.string.injEq] at hm
    exact ⟨"a", hm.2⟩
  have honce (field : Field) : field.occurrences respelled ≤ 1 := by
    cases field <;> decide
  obtain ⟨configuration, hc⟩ := (hread ⟨hnames, hstrings⟩ honce).2 fun field value hm ↦ by
    simp only [respelled, List.mem_cons, Prod.mk.injEq, textUnits_inj, List.not_mem_nil,
      or_false] at hm
    rcases hm with ⟨hn, rfl⟩ | ⟨hn, rfl⟩ | ⟨hn, rfl⟩
    · exact absurd hn.symm (hx field)
    · have hf : field = .signRequest := Field.name_injective hn
      subst hf
      exact ⟨true, rfl⟩
    · have hf : field = .xpriv := Field.name_injective hn
      subst hf
      exact .inr ⟨_, rfl⟩
  have hwritten : ofJson (ofXpriv "a").toJson = .ok configuration :=
    (hsame (.trans (.remove hx _ _) (.perm (.swap _ _ _)))
      (ofXpriv "a").isObjectText_toJson _).2 hc
  rw [ofJson_toJson] at hwritten
  cases hwritten
  exact ⟨⟨hc, hin _ hc⟩, hrepeated .xpub (by decide)⟩

end RequestAuth.Configuration
