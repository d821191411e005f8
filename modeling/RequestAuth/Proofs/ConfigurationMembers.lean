import Mathlib.Data.List.Forall2
import RequestAuth.Proofs.ConfigurationText
import RequestAuth.Proofs.JsonSkipping

namespace RequestAuth

open Json

namespace Json

def keyTree : Option String → Tree
  | none => .null
  | some text => .string (textUnits text)

theorem keyTree_injective {a b : Option String} (h : keyTree a = keyTree b) : a = b := by
  cases a <;> cases b
  · rfl
  · cases h
  · cases h
  · rw [textUnits_injective (Tree.string.inj h)]

section Reader

variable {α β : Type} {y : Except Fault (α × List Char)} {rest after : List Char}

theorem map_eq_ok_iff {P : α → Prop} (h : ∀ a after, y = .ok (a, after) ↔ after = rest ∧ P a)
    (f : α → β) {b : β} : y.map (fun p ↦ (f p.1, p.2)) = .ok (b, after) ↔
      after = rest ∧ ∃ a, P a ∧ b = f a := by
  constructor
  · intro hm
    obtain ⟨⟨a, own⟩, hp, hq⟩ := exists_of_map_eq_ok hm
    cases hq
    obtain ⟨hrest, ha⟩ := (h a own).1 hp
    exact ⟨hrest, a, ha, rfl⟩
  · rintro ⟨hrest, a, ha, rfl⟩
    rw [(h a after).2 ⟨hrest, ha⟩]
    rfl

theorem exists_chars_iff {units : List Nat} {Q : String → Prop} :
    (∃ cs : List Char, units = cs.flatMap charUnits ∧ Q (String.ofList cs)) ↔
      ∃ text, units = textUnits text ∧ Q text := by
  constructor
  · rintro ⟨cs, hu, hq⟩
    exact ⟨_, by rw [textUnits, String.toList_ofList, hu], hq⟩
  · rintro ⟨text, hu, hq⟩
    exact ⟨text.toList, hu, by rwa [String.ofList_toList]⟩

end Reader

section Found

variable {value : Tree} {body before rest after : List Char} {found : Found}

theorem skipSpace_spelled (h : Spells value body) (hb : Blank before) (rest : List Char) :
    skipSpace (before ++ (body ++ rest)) = body ++ rest := by
  obtain ⟨c, t, rfl, hc, -⟩ := h.exists_head
  rw [skipSpace_blank_append hb, List.cons_append, skipSpace_cons (by rw [hc]; decide)]

def Found.tree? : Found → Option Tree
  | .null => some .null
  | .boolean b => some (.boolean b)
  | .string text => some (.string (textUnits text))
  | _ => none

theorem readFound_digit {c : Char} (hc : c.isDigit = true) (s : List Char) :
    readFound (c :: s) = (readNumber false (c :: s)).map (fun p ↦ (p.1.found, p.2)) := by
  simp only [readFound, ne_of_isDigit hc (d := '"') rfl, ne_of_isDigit hc (d := 'n') rfl,
    ne_of_isDigit hc (d := 't') rfl, ne_of_isDigit hc (d := 'f') rfl,
    ne_of_isDigit hc (d := '[') rfl, ne_of_isDigit hc (d := '\x7b') rfl,
    ne_of_isDigit hc (d := '-') rfl, hc, if_false, if_true]

theorem tree?_of_readFound_number {s : List Char} (h : IsNumber s)
    (hf : readFound (s ++ rest) = .ok (found, after)) : found.tree? = none := by
  have hmap : ∃ negative t, readFound (s ++ rest) =
      (readNumber negative t).map (fun p ↦ (p.1.found, p.2)) := by
    obtain ⟨c, t, rfl, rfl | hc⟩ := h.exists_head
    · exact ⟨true, t ++ rest, rfl⟩
    · exact ⟨false, _, readFound_digit hc _⟩
  obtain ⟨negative, t, ht⟩ := hmap
  obtain ⟨⟨number, own⟩, -, hp⟩ := exists_of_map_eq_ok (ht.symm.trans hf)
  cases hp
  cases number <;> rfl

theorem readFound_string {units : List Nat} {inner : List Char} (h : SpellsInner units inner) :
    readFound ('"' :: (inner ++ '"' :: rest)) = .ok (found, after) ↔
      after = rest ∧ ∃ text, units = textUnits text ∧ found = .string text := by
  rw [readFound, if_pos rfl, ← exists_chars_iff (Q := fun text ↦ found = .string text)]
  exact map_eq_ok_iff ((readsAs_of_spellsInner h).1 rest) fun cs ↦ Found.string (String.ofList cs)

theorem Found.eq_of_tree?_eq {a b : Found} {tree : Tree} (ha : a.tree? = some tree)
    (hb : b.tree? = some tree) : a = b := by
  rw [← hb] at ha
  cases a <;> cases b <;> simp only [tree?, Option.some.injEq, Tree.boolean.injEq,
    Tree.string.injEq, reduceCtorEq] at ha hb
  · rfl
  · rw [ha]
  · rw [textUnits_injective ha]

theorem readFound_iff_of_ok {s : List Char} {own : Found} {tree : Tree}
    (hr : readFound s = .ok (own, rest)) (ho : own.tree? = some value)
    (ht : found.tree? = some tree) :
    readFound s = .ok (found, after) ↔ after = rest ∧ value = tree := by
  rw [hr]
  constructor
  · intro h
    cases h
    exact ⟨rfl, Option.some.inj (ho.symm.trans ht)⟩
  · rintro ⟨rfl, rfl⟩
    rw [Found.eq_of_tree?_eq ho ht]

theorem readFound_iff_of_other {s : List Char} {tree : Tree}
    (hr : ∀ found after, readFound s = .ok (found, after) → found.tree? = none)
    (hv : ∀ found : Found, found.tree? ≠ some value) (ht : found.tree? = some tree) :
    readFound s = .ok (found, after) ↔ after = rest ∧ value = tree := by
  refine iff_of_false (fun hf ↦ ?_) fun h ↦ hv found (h.2 ▸ ht)
  rw [hr found after hf] at ht
  cases ht

theorem readFound_iff (h : Spells value body) {tree : Tree} (ht : found.tree? = some tree) :
    readFound (body ++ rest) = .ok (found, after) ↔ after = rest ∧ value = tree := by
  have other (hv : ∀ found : Found, found.tree? ≠ some value) {own : Found} (ho : own.tree? = none)
      (hr : readFound (body ++ rest) = .ok (own, body ++ rest)) :
      readFound (body ++ rest) = .ok (found, after) ↔ after = rest ∧ value = tree := by
    refine readFound_iff_of_other (fun found after hf ↦ ?_) hv ht
    cases hr.symm.trans hf
    exact ho
  cases h with
  | null => exact readFound_iff_of_ok rfl rfl ht
  | boolean b =>
    cases b with
    | true => exact readFound_iff_of_ok rfl rfl ht
    | false => exact readFound_iff_of_ok rfl rfl ht
  | number h =>
    exact readFound_iff_of_other (fun _ _ ↦ tree?_of_readFound_number h) nofun ht
  | string h =>
    cases h with
    | @quote inner h =>
      rw [List.cons_append, List.append_assoc]
      refine (readFound_string h).trans (and_congr_right fun _ ↦ ⟨?_, ?_⟩)
      · rintro ⟨text, rfl, rfl⟩
        exact Option.some.inj ht
      · rintro rfl
        cases found <;> cases ht
        exact ⟨_, rfl, rfl⟩
  | list h => exact other nofun rfl rfl
  | object h => exact other nofun rfl rfl

theorem readText?_iff (h : Spells value body) (hb : Blank before) {key : Option String} :
    readText? (before ++ (body ++ rest)) = .ok (key, after) ↔
      after = rest ∧ value = keyTree key := by
  rw [readText?, skipSpace_spelled h hb]
  constructor
  · intro hr
    split at hr
    · cases hr
    · next hf =>
      cases hr
      exact (readFound_iff h rfl).1 hf
    · next hf =>
      cases hr
      exact (readFound_iff h rfl).1 hf
    · cases hr
  · intro hv
    cases key with
    | none => rw [(readFound_iff h (show Found.null.tree? = _ from rfl)).2 hv]
    | some text => rw [(readFound_iff h (show (Found.string text).tree? = _ from rfl)).2 hv]

theorem readBoolean_iff (h : Spells value body) (hb : Blank before) {b : Bool} :
    readBoolean (before ++ (body ++ rest)) = .ok (b, after) ↔
      after = rest ∧ value = .boolean b := by
  rw [readBoolean, skipSpace_spelled h hb]
  constructor
  · intro hr
    split at hr
    · cases hr
    · next hf =>
      cases hr
      exact (readFound_iff h rfl).1 hf
    · cases hr
  · intro hv
    rw [(readFound_iff h (show (Found.boolean b).tree? = _ from rfl)).2 hv]

end Found

section Name

variable {first : Bool} {lead literal before rest after s : List Char} {units : List Nat}

inductive Leads : Bool → List Char → Prop
  | first : Leads true []
  | comma : Leads false [',']

theorem readName_iff (h : SpellsString units literal) {name : Option String} :
    readName (literal ++ rest) = .ok (name, after) ↔
      after = rest ∧ ∃ text, units = textUnits text ∧ name = some text := by
  cases h with
  | quote h =>
    rw [List.cons_append, List.append_assoc, readName,
      ← exists_chars_iff (Q := fun text ↦ name = some text)]
    exact map_eq_ok_iff ((readsAs_of_spellsInner h).1 rest) fun cs ↦ some (String.ofList cs)

theorem nextName_iff (hl : Leads first lead) (hb : Blank before) (h : SpellsString units literal)
    {name : Option String} :
    nextName first (lead ++ (before ++ (literal ++ rest))) = .ok (name, after) ↔
      after = rest ∧ ∃ text, units = textUnits text ∧ name = some text := by
  obtain ⟨t, rfl⟩ := h.exists_head
  have hs : skipSpace (before ++ ('"' :: t ++ rest)) = '"' :: (t ++ rest) := by
    rw [skipSpace_blank_append hb]
    exact skipSpace_cons (by decide) _
  rw [← readName_iff h]
  cases hl with
  | first =>
    rw [List.nil_append, nextName, hs]
    rfl
  | comma =>
    rw [List.singleton_append, nextName, skipSpace_cons (by decide)]
    simp only [hs]
    rfl

theorem nextName_blank (hb : Blank before) (first : Bool) (s : List Char) :
    nextName first (before ++ s) = nextName first s := by
  simp only [nextName, skipSpace_blank_append hb]

end Name

end Json

namespace Configuration

theorem Field.ofName?_eq_some_iff {name : String} {field : Field} :
    ofName? name = some field ↔ name = field.name := by
  constructor
  · intro h
    have hn := List.find?_some h
    exact (of_decide_eq_true hn).symm
  · rintro rfl
    exact field.ofName?_name

theorem Field.name_injective {field other : Field} (h : field.name = other.name) :
    field = other := by
  rw [← Option.some.injEq, ← field.ofName?_name, h, other.ofName?_name]

theorem Field.ofName?_eq_none_iff {name : String} :
    ofName? name = none ↔ ∀ field : Field, name ≠ field.name := by
  rw [Option.eq_none_iff_forall_ne_some]
  exact forall_congr' fun field ↦ not_congr ofName?_eq_some_iff

namespace Draft

def Puts (draft : Draft) : Field → Tree → Draft → Prop
  | .xpriv, value, next => ∃ key, value = keyTree key ∧ next = { draft with xpriv := some key }
  | .xpub, value, next => ∃ key, value = keyTree key ∧ next = { draft with xpub := some key }
  | .accessKey, value, next =>
    ∃ key, value = keyTree key ∧ next = { draft with accessKey := some key }
  | .signRequest, value, next =>
    ∃ b, value = .boolean b ∧ next = { draft with signRequest := some b }

/-- A member is read: a field that has not been read before, or a member that is passed over. -/
inductive Gains (draft : Draft) : String → Tree → Draft → Prop
  | other {name : String} {value : Tree} (hn : ∀ field : Field, name ≠ field.name) :
      Gains draft name value draft
  | field {field : Field} {value : Tree} {next : Draft} (hh : draft.has field = false)
      (hp : draft.Puts field value next) : Gains draft field.name value next

theorem gains_other_iff {draft next : Draft} {name : String} {value : Tree}
    (hn : ∀ field : Field, name ≠ field.name) : draft.Gains name value next ↔ next = draft := by
  constructor
  · intro h
    cases h with
    | other => rfl
    | field => exact absurd rfl (hn _)
  · rintro rfl
    exact .other hn

theorem gains_field_iff {draft next : Draft} {field : Field} {value : Tree} :
    draft.Gains field.name value next ↔ draft.has field = false ∧ draft.Puts field value next := by
  constructor
  · generalize hname : field.name = name
    intro h
    cases h with
    | other hn => exact absurd hname.symm (hn field)
    | field hh hp =>
      obtain rfl := Field.name_injective hname
      exact ⟨hh, hp⟩
  · rintro ⟨hh, hp⟩
    exact .field hh hp

def Gathers (draft : Draft) : List Member → Draft → Prop
  | [], last => last = draft
  | (units, value) :: members, last =>
    ∃ name next, units = textUnits name ∧ draft.Gains name value next ∧ next.Gathers members last

section Member

variable {draft next : Draft} {value : Tree} {body before between rest after : List Char}

theorem readField_iff (h : Spells value body) (hb : Blank before) {field : Field} :
    draft.readField field (before ++ (body ++ rest)) = .ok (next, after) ↔
      after = rest ∧ draft.Puts field value next := by
  have hkey (put : Option String → Draft) :
      (readText? (before ++ (body ++ rest))).map (fun p ↦ (put p.1, p.2)) = .ok (next, after) ↔
        after = rest ∧ ∃ key, value = keyTree key ∧ next = put key :=
    map_eq_ok_iff (fun _ _ ↦ readText?_iff h hb) put
  cases field with
  | xpriv => exact hkey fun key ↦ { draft with xpriv := some key }
  | xpub => exact hkey fun key ↦ { draft with xpub := some key }
  | accessKey => exact hkey fun key ↦ { draft with accessKey := some key }
  | signRequest =>
    exact map_eq_ok_iff (fun _ _ ↦ readBoolean_iff h hb) fun b ↦ { draft with signRequest := some b }

theorem readMember_iff (hw : Blank between) (hb : Blank before) (h : Spells value body)
    (hr : Ends rest) {name : String} :
    draft.readMember name (between ++ ':' :: (before ++ (body ++ rest))) = .ok (next, after) ↔
      after = rest ∧ draft.Gains name value next := by
  rw [readMember, readColon_blank hw]
  cases hf : Field.ofName? name with
  | none =>
    have hskip : (Except.ok (before ++ (body ++ rest)) >>= skipValue) = .ok rest :=
      skipValue_spelled h hb hr
    simp only [hskip, gains_other_iff (Field.ofName?_eq_none_iff.1 hf)]
    constructor
    · intro hm
      cases hm
      exact ⟨rfl, rfl⟩
    · rintro ⟨rfl, rfl⟩
      rfl
  | some field =>
    obtain rfl := Field.ofName?_eq_some_iff.1 hf
    rw [gains_field_iff]
    dsimp only
    split
    · next hh =>
      constructor
      · intro hm
        cases hm
      · rintro ⟨-, hf, -⟩
        cases hh.symm.trans hf
    · next hh =>
      rw [Bool.eq_false_iff.2 hh]
      exact (readField_iff h hb).trans (and_congr_right fun _ ↦ (and_iff_right rfl).symm)

end Member

section Members

variable {draft last : Draft} {first : Bool} {s rest after : List Char}

theorem readMembers_eq_ok_iff :
    draft.readMembers first s = .ok (last, after) ↔
      nextName first s = .ok (none, after) ∧ last = draft ∨
        ∃ name more next rest, nextName first s = .ok (some name, more) ∧
          draft.readMember name more = .ok (next, rest) ∧
            next.readMembers false rest = .ok (last, after) := by
  constructor
  · intro h
    rw [readMembers] at h
    split at h
    · cases h
    · next hn =>
      cases h
      exact .inl ⟨hn, rfl⟩
    · next hn =>
      split at h
      · cases h
      · next hm => exact .inr ⟨_, _, _, _, hn, hm, h⟩
  · rintro (⟨hn, rfl⟩ | ⟨name, more, next, rest, hn, hm, h⟩)
    · exact readMembers_of_none hn
    · rw [readMembers_of_some hn hm, h]

theorem readMembers_blank_iff {before : List Char} (hb : Blank before) :
    draft.readMembers first (before ++ s) = .ok (last, after) ↔
      draft.readMembers first s = .ok (last, after) := by
  rw [readMembers_eq_ok_iff, readMembers_eq_ok_iff, nextName_blank hb]

theorem readMembers_end_iff {before : List Char} (hb : Blank before) :
    draft.readMembers first (before ++ '\x7d' :: rest) = .ok (last, after) ↔
      after = rest ∧ last = draft := by
  have hn : nextName first ('\x7d' :: rest) = .ok (none, rest) := rfl
  rw [readMembers_blank_iff hb, readMembers_of_none hn]
  constructor
  · intro h
    cases h
    exact ⟨rfl, rfl⟩
  · rintro ⟨rfl, rfl⟩
    rfl

theorem readMembers_member_iff {lead literal n body v : List Char} {units : List Nat} {value : Tree}
    (hlead : Leads first lead) (hl : SpellsString units literal) (hn : Pads literal n)
    (h : Spells value body) (hv : Pads body v) (hr : Ends rest) :
    draft.readMembers first (lead ++ (n ++ ':' :: (v ++ rest))) = .ok (last, after) ↔
      ∃ name next, units = textUnits name ∧ draft.Gains name value next ∧
        next.readMembers false rest = .ok (last, after) := by
  obtain ⟨before, between, hbefore, hbetween, rfl⟩ := hn
  obtain ⟨ahead, behind, hahead, hbehind, rfl⟩ := hv
  have hr' : Ends (behind ++ rest) := hr.blank_append hbehind
  simp only [List.append_assoc]
  rw [readMembers_eq_ok_iff]
  simp only [nextName_iff hlead hbefore hl]
  constructor
  · rintro (⟨⟨-, text, -, ht⟩, -⟩ | ⟨name, more, next, own, ⟨rfl, text, hu, ht⟩, hm, hmore⟩)
    · cases ht
    · cases ht
      obtain ⟨rfl, hg⟩ := (readMember_iff hbetween hahead h hr').1 hm
      exact ⟨_, _, hu, hg, (readMembers_blank_iff hbehind).1 hmore⟩
  · rintro ⟨name, next, hu, hg, hmore⟩
    exact .inr ⟨name, _, next, _, ⟨rfl, name, hu, rfl⟩,
      (readMember_iff hbetween hahead h hr').2 ⟨rfl, hg⟩, (readMembers_blank_iff hbehind).2 hmore⟩

theorem ends_cons {c : Char} (hc : c = ',' ∨ c = '\x7d') (rest : List Char) :
    Ends (c :: rest) := by
  intro d hd
  cases hd
  rcases hc with rfl | rfl
  · decide
  · decide

end Members

theorem gathers_cons_iff {draft last : Draft} {units : List Nat} {value : Tree}
    {members : List Member} {P : Prop} :
    (∃ name next, units = textUnits name ∧ draft.Gains name value next ∧
        P ∧ next.Gathers members last) ↔
      P ∧ draft.Gathers ((units, value) :: members) last := by
  constructor
  · rintro ⟨name, next, hu, hg, hp, h⟩
    exact ⟨hp, name, next, hu, hg, h⟩
  · rintro ⟨hp, name, next, hu, hg, h⟩
    exact ⟨name, next, hu, hg, hp, h⟩

theorem readMembers_iff {draft last : Draft} {first : Bool} {lead s rest after : List Char}
    {members : List Member} (h : SpellsMembers members s) (hm : members ≠ [])
    (hlead : Leads first lead) :
    draft.readMembers first (lead ++ (s ++ '\x7d' :: rest)) = .ok (last, after) ↔
      after = rest ∧ draft.Gathers members last := by
  cases h with
  | none hs => exact absurd rfl hm
  | one hl hn hb hs =>
    have hend (next : Draft) : next.readMembers false ('\x7d' :: rest) = .ok (last, after) ↔
        after = rest ∧ next.Gathers [] last := readMembers_end_iff (show Blank [] from nofun)
    rw [List.append_assoc, List.cons_append,
      readMembers_member_iff hlead hl hn hb hs (ends_cons (.inr rfl) rest)]
    simp only [hend]
    exact gathers_cons_iff
  | @more name value next members literal n body v t hl hn hb hs ht =>
    have ih (next : Draft) : next.readMembers false (',' :: (t ++ '\x7d' :: rest)) =
        .ok (last, after) ↔ after = rest ∧ next.Gathers _ last :=
      readMembers_iff ht (List.cons_ne_nil _ _) .comma
    rw [List.append_assoc, List.cons_append, List.append_assoc, List.cons_append,
      readMembers_member_iff hlead hl hn hb hs (ends_cons (.inl rfl) _)]
    simp only [ih]
    exact gathers_cons_iff

theorem read_iff {members : List Member} {body before rest after : List Char} {last : Draft}
    (h : Spells (.object members) body) (hb : Blank before) :
    read (before ++ (body ++ rest)) = .ok (last, after) ↔
      after = rest ∧ empty.Gathers members last := by
  rw [read, skipSpace_spelled h hb]
  cases h with
  | @object members s h =>
    have hf : readFound ('\x7b' :: (s ++ ['\x7d']) ++ rest) =
        .ok (.object, '\x7b' :: (s ++ ['\x7d']) ++ rest) := rfl
    rw [hf]
    simp only [List.cons_append, List.tail_cons, List.append_assoc, List.nil_append]
    cases members with
    | nil =>
      cases h with
      | none hs => exact readMembers_end_iff hs
    | cons member members => exact readMembers_iff h (List.cons_ne_nil _ _) .first

end Draft

theorem ofChars_iff {members : List Member} {text : String} (h : IsObjectText members text)
    {configuration : Configuration} :
    ofChars text.toList = .ok configuration ↔
      ∃ draft, Draft.empty.Gathers members draft ∧ configuration = draft.toConfiguration := by
  obtain ⟨body, hbody, before, behind, hb, hbehind, ht⟩ := h
  have hread {last : Draft} {after : List Char} :
      Draft.read (before ++ (body ++ behind)) = .ok (last, after) ↔
        after = behind ∧ Draft.empty.Gathers members last := Draft.read_iff hbody hb
  rw [ofChars, ht]
  constructor
  · intro h
    split at h
    · cases h
    · next draft rest hr =>
      obtain ⟨rfl, hg⟩ := hread.1 hr
      rw [skipSpace_blank hbehind] at h
      cases h
      exact ⟨draft, hg, rfl⟩
  · rintro ⟨draft, hg, rfl⟩
    rw [hread.2 ⟨rfl, hg⟩]
    simp only [skipSpace_blank hbehind]

/-- A text of an object is read just if its members are, one after the other. -/
theorem ofJson_iff {members : List Member} {text : String} (h : IsObjectText members text)
    {configuration : Configuration} :
    ofJson text = .ok configuration ↔
      ∃ draft, Draft.empty.Gathers members draft ∧ configuration = draft.toConfiguration := by
  rw [← ofChars_iff h, ofJson]
  constructor
  · exact eq_ok_of_mapError_eq_ok
  · intro hc
    rw [hc]
    rfl

section Written

theorem pads_self (s : List Char) : Pads s s :=
  ⟨[], [], nofun, nofun, (List.append_nil s).symm⟩

inductive SpellsTightly : Member → List Char → Prop
  | mk {name : List Nat} {value : Tree} {literal body : List Char}
      (hl : SpellsString name literal) (hb : Spells value body) :
      SpellsTightly (name, value) (literal ++ ':' :: body)

theorem spellsMembers_intercalate {members : List Member} {written : List (List Char)}
    (h : members.Forall₂ SpellsTightly written) :
    SpellsMembers members ([','].intercalate written) := by
  induction h with
  | nil => exact .none nofun
  | cons head tail ih =>
    obtain ⟨hl, hb⟩ := head
    cases tail with
    | nil =>
      rw [intercalate_cons, List.flatMap_nil, List.append_nil]
      exact .one hl (pads_self _) hb (pads_self _)
    | cons next more =>
      have hmore := SpellsMembers.more hl (pads_self _) hb (pads_self _) ih
      rw [← List.cons_append, ← List.append_assoc] at hmore
      exact hmore

def keyMember (field : Field) (key : Option String) : List Member :=
  (key.map (fun text ↦ (textUnits field.name, .string (textUnits text)))).toList

def treeMembers (configuration : Configuration) : List Member :=
  keyMember .xpriv configuration.xpriv ++ keyMember .xpub configuration.xpub ++
    keyMember .accessKey configuration.accessKey ++
    [(textUnits Field.signRequest.name, .boolean configuration.signRequest)]

theorem isObjectText_toJson (configuration : Configuration) :
    IsObjectText configuration.treeMembers configuration.toJson := by
  have hkey (field : Field) (key : Option String) :
      (keyMember field key).Forall₂ SpellsTightly (writeKey field key) := by
    cases key with
    | none => exact .nil
    | some text =>
      exact .cons ⟨spellsString_writeString _, .string (spellsString_writeString _)⟩ .nil
  have hflag : Spells (.boolean configuration.signRequest)
      (writeFlag configuration.signRequest) := by
    cases configuration.signRequest with
    | false => exact .boolean false
    | true => exact .boolean true
  refine ⟨configuration.toChars, .object (spellsMembers_intercalate ?_), ?_⟩
  · exact List.rel_append (List.rel_append (List.rel_append (hkey _ _) (hkey _ _)) (hkey _ _))
      (.cons ⟨spellsString_writeString _, hflag⟩ .nil)
  · rw [toJson, String.toList_ofList]
    exact pads_self _

end Written

end Configuration

end RequestAuth
