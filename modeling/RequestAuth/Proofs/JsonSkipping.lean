import Mathlib.Data.List.DropRight
import RequestAuth.Proofs.JsonLiteral

namespace RequestAuth.Json

def Ends (rest : List Char) : Prop :=
  ∀ c ∈ rest.head?, c ∈ [' ', '\n', '\r', '\t', ',', ']', '\x7d']

section Space

variable {w : List Char}

theorem isSpace_of_mem_blank (h : Blank w) : ∀ c ∈ w, isSpace c = true := by
  intro c hc
  have hm := h c hc
  simp only [List.mem_cons, List.not_mem_nil, or_false] at hm
  rcases hm with rfl | rfl | rfl | rfl <;> rfl

theorem skipSpace_blank_append (h : Blank w) (rest : List Char) :
    skipSpace (w ++ rest) = skipSpace rest :=
  List.dropWhile_append_of_pos (isSpace_of_mem_blank h)

theorem skipSpace_blank (h : Blank w) : skipSpace w = [] :=
  List.dropWhile_eq_nil_iff.2 (isSpace_of_mem_blank h)

theorem Ends.blank_append {rest : List Char} (h : Blank w) (hr : Ends rest) : Ends (w ++ rest) := by
  cases w with
  | nil => exact hr
  | cons c w =>
    intro d hd
    cases hd
    exact List.mem_append_left [',', ']', '\x7d'] (h c (List.mem_cons_self ..))

end Space

section Number

variable {s rest : List Char}

theorem ne_of_isDigit {c d : Char} (hc : c.isDigit = true) (hd : d.isDigit = false) : c ≠ d := by
  rintro rfl
  rw [hc] at hd
  cases hd

theorem not_isSpace_of_isDigit {c : Char} (hc : c.isDigit = true) : isSpace c = false := by
  simp only [isSpace, ne_of_isDigit hc (d := ' ') rfl, ne_of_isDigit hc (d := '\n') rfl,
    ne_of_isDigit hc (d := '\r') rfl, ne_of_isDigit hc (d := '\t') rfl, decide_false, Bool.or_false]

theorem Ends.head_ne (h : Ends rest) {c : Char}
    (hc : c ∉ [' ', '\n', '\r', '\t', ',', ']', '\x7d']) : rest.head? ≠ some c :=
  fun he ↦ hc (h c he)

theorem Ends.not_startsWithDigit (h : Ends rest) : startsWithDigit rest = false := by
  cases rest with
  | nil => rfl
  | cons c rest =>
    have hd : [' ', '\n', '\r', '\t', ',', ']', '\x7d'].all (!·.isDigit) = true := rfl
    have hc : c.isDigit = false := by simpa using List.all_eq_true.1 hd c (h c rfl)
    exact hc

theorem skipDigits_append (hs : IsDigits s) (hr : startsWithDigit rest = false) :
    skipDigits (s ++ rest) = rest := by
  rw [skipDigits, List.dropWhile_append_of_pos hs]
  cases rest with
  | nil => rfl
  | cons c rest => exact List.dropWhile_cons_of_neg (by simpa [startsWithDigit] using hr)

theorem skipExponent?_of_head (he : s.head? ≠ some 'e') (hE : s.head? ≠ some 'E') :
    skipExponent? s = .ok s := by
  unfold skipExponent?
  split
  · exact absurd rfl he
  · exact absurd rfl hE
  · rfl

theorem skipFraction?_of_head (h : s.head? ≠ some '.') : skipFraction? s = skipExponent? s := by
  unfold skipFraction?
  split
  · exact absurd rfl h
  · rfl

theorem readSign_digit {c : Char} (hc : c.isDigit = true) (s : List Char) :
    readSign (c :: s) = (false, c :: s) := by
  unfold readSign
  split
  · next h => exact absurd (List.cons.inj h).1 (ne_of_isDigit hc rfl)
  · next h => exact absurd (List.cons.inj h).1 (ne_of_isDigit hc rfl)
  · rfl

theorem readSign_spelled {sign : List Char} {c : Char} (hsign : sign ∈ [[], ['+'], ['-']])
    (hc : c.isDigit = true) (s : List Char) : (readSign (sign ++ c :: s)).2 = c :: s := by
  simp only [List.mem_cons, List.not_mem_nil, or_false] at hsign
  rcases hsign with rfl | rfl | rfl
  · rw [List.nil_append, readSign_digit hc]
  · rfl
  · rfl

theorem skipDigits_cons {c : Char} (hc : c.isDigit = true) (hs : IsDigits s)
    (hr : startsWithDigit rest = false) : skipDigits (c :: (s ++ rest)) = rest := by
  rw [skipDigits, List.dropWhile_cons_of_pos hc]
  exact skipDigits_append hs hr

theorem skipExponent?_spelled (h : IsExponent s) (hr : Ends rest) :
    skipExponent? (s ++ rest) = .ok rest := by
  cases h with
  | none => exact skipExponent?_of_head (hr.head_ne (by decide)) (hr.head_ne (by decide))
  | @power e c sign s he hsign hc hs =>
    have hskip : skipExponent (sign ++ c :: (s ++ rest)) = .ok rest := by
      rw [skipExponent, readSign_spelled hsign hc]
      simp only [startsWithDigit, List.head?_cons, Option.any_some, hc, if_true,
        skipDigits_cons hc hs hr.not_startsWithDigit]
    rw [List.cons_append, List.append_assoc, List.cons_append]
    rcases he with rfl | rfl
    · exact hskip
    · exact hskip

theorem IsExponent.head_ne (h : IsExponent s) (hr : Ends rest) :
    (s ++ rest).head? ≠ some '.' ∧ startsWithDigit (s ++ rest) = false := by
  cases h with
  | none => exact ⟨hr.head_ne (by decide), hr.not_startsWithDigit⟩
  | power he hsign hc hs =>
    rcases he with rfl | rfl
    · exact ⟨by simp, rfl⟩
    · exact ⟨by simp, rfl⟩

theorem skipFraction?_spelled {exponent : List Char} (h : IsFraction s) (he : IsExponent exponent)
    (hr : Ends rest) : skipFraction? (s ++ (exponent ++ rest)) = .ok rest := by
  obtain ⟨hp, hd⟩ := he.head_ne hr
  cases h with
  | none =>
    rw [List.nil_append, skipFraction?_of_head hp, skipExponent?_spelled he hr]
  | @point c s hc hs =>
    have hf : startsWithDigit (c :: (s ++ (exponent ++ rest))) = true := hc
    simp only [List.cons_append, skipFraction?, hf, if_true, skipDigits_cons hc hs hd,
      skipExponent?_spelled he hr]

theorem IsFraction.not_startsWithDigit {exponent : List Char} (h : IsFraction s)
    (he : IsExponent exponent) (hr : Ends rest) :
    startsWithDigit (s ++ (exponent ++ rest)) = false := by
  cases h with
  | none => exact (he.head_ne hr).2
  | point hc hs => rfl

theorem skipNumber_spelled {whole fraction exponent : List Char} (hw : IsWhole whole)
    (hf : IsFraction fraction) (he : IsExponent exponent) (hr : Ends rest) :
    skipNumber (whole ++ (fraction ++ (exponent ++ rest))) = .ok rest := by
  have hd := hf.not_startsWithDigit he hr
  cases hw with
  | zero =>
    simp only [List.cons_append, List.nil_append, skipNumber, hd, Bool.false_eq_true, if_false,
      skipFraction?_spelled hf he hr]
  | @positive c s hc hz hs =>
    have hc' : startsWithDigit (c :: (s ++ (fraction ++ (exponent ++ rest)))) = true := hc
    unfold skipNumber
    split
    · next h => exact absurd (List.cons.inj h).1 hz
    · rw [List.cons_append, if_pos hc', skipDigits_cons hc hs hd, skipFraction?_spelled hf he hr]

end Number

section Step

variable {frame : Frame} {frames : List Frame} {c : Char} {s rest : List Char}

theorem skipFrom_nil (hs : skipSpace s = []) :
    skipFrom .value frames s = .error (.before .unfinishedValue []) := by
  rw [skipFrom]
  split
  · rfl
  · next hn => cases hs.symm.trans hn

variable (hs : skipSpace s = c :: rest)
include hs

theorem skipFrom_value : skipFrom .value frames s =
    match Frame.ofOpening? c with
    | some frame => skipFrom .first (frame :: frames) rest
    | none => skipScalar (c :: rest) >>= skipFrom .more frames := by
  rw [skipFrom]
  split
  · next hn => cases hs.symm.trans hn
  · next hn =>
    cases hs.symm.trans hn
    cases Frame.ofOpening? c with
    | some frame => rfl
    | none =>
      dsimp only
      split
      · next hv =>
        rw [hv]
        rfl
      · next hv =>
        rw [hv]
        rfl

theorem skipFrom_first : skipFrom .first (frame :: frames) s =
    if c = frame.closing then skipFrom .more frames rest
    else frame.skipName (c :: rest) >>= skipFrom .value (frame :: frames) := by
  rw [skipFrom]
  split
  · next hn => cases hs.symm.trans hn
  · next hn =>
    cases hs.symm.trans hn
    refine if_congr Iff.rfl rfl ?_
    split
    · next hv =>
      rw [hv]
      rfl
    · next hv =>
      rw [hv]
      rfl

theorem skipFrom_more : skipFrom .more (frame :: frames) s =
    if c = ',' then frame.skipName rest >>= skipFrom .value (frame :: frames)
    else if c = frame.closing then skipFrom .more frames rest
    else .error (.within frame.unclosed (c :: rest)) := by
  rw [skipFrom]
  split
  · next hn => cases hs.symm.trans hn
  · next hn =>
    cases hs.symm.trans hn
    refine if_congr Iff.rfl ?_ rfl
    split
    · next hv =>
      rw [hv]
      rfl
    · next hv =>
      rw [hv]
      rfl

end Step

section Scalar

theorem skipSpace_skipSpace (s : List Char) : skipSpace (skipSpace s) = skipSpace s :=
  List.dropWhile_idempotent isSpace s

theorem IsNumber.exists_head {s : List Char} (h : IsNumber s) :
    ∃ c t, s = c :: t ∧ (c = '-' ∨ c.isDigit = true) := by
  obtain ⟨hsign, hw, -, -⟩ := h
  simp only [List.mem_cons, List.not_mem_nil, or_false] at hsign
  rcases hsign with rfl | rfl
  · cases hw with
    | zero => exact ⟨'0', _, rfl, .inr rfl⟩
    | positive hc => exact ⟨_, _, rfl, .inr hc⟩
  · exact ⟨'-', _, rfl, .inl rfl⟩

theorem skipScalar_digit {c : Char} (hc : c.isDigit = true) (s : List Char) :
    skipScalar (c :: s) = skipNumber (c :: s) := by
  simp only [skipScalar, ne_of_isDigit hc (d := '"') rfl, ne_of_isDigit hc (d := 'n') rfl,
    ne_of_isDigit hc (d := 't') rfl, ne_of_isDigit hc (d := 'f') rfl,
    ne_of_isDigit hc (d := '-') rfl, hc, if_false, if_true]

theorem skipScalar_number {s rest : List Char} (h : IsNumber s) (hr : Ends rest) :
    skipScalar (s ++ rest) = .ok rest := by
  obtain ⟨hsign, hw, hf, he⟩ := h
  have hn := skipNumber_spelled hw hf he hr
  simp only [List.mem_cons, List.not_mem_nil, or_false] at hsign
  simp only [List.append_assoc]
  rcases hsign with rfl | rfl
  · rw [List.nil_append]
    cases hw with
    | zero => exact (skipScalar_digit rfl _).trans hn
    | positive hc => exact (skipScalar_digit hc _).trans hn
  · exact hn

/-- A value is passed over, whatever is open around it. -/
def Passes (body : List Char) : Prop :=
  ∀ frames before rest, Blank before → Ends rest →
    skipFrom .value frames (before ++ (body ++ rest)) = skipFrom .more frames rest

theorem Passes.of_scalar {c : Char} {t : List Char} (hc : isSpace c = false)
    (ho : Frame.ofOpening? c = none)
    (h : ∀ rest, Ends rest → skipScalar (c :: (t ++ rest)) = .ok rest) : Passes (c :: t) := by
  intro frames before rest hb hr
  have hs : skipSpace (before ++ (c :: t ++ rest)) = c :: (t ++ rest) := by
    rw [skipSpace_blank_append hb, List.cons_append, skipSpace_cons (by rw [hc]; decide)]
  rw [skipFrom_value hs, ho]
  dsimp only
  rw [h rest hr]
  rfl

theorem passes_number {s : List Char} (h : IsNumber s) : Passes s := by
  have hskip (rest : List Char) (hr : Ends rest) := skipScalar_number h hr
  obtain ⟨c, t, rfl, hc⟩ := h.exists_head
  rcases hc with rfl | hc
  · exact .of_scalar rfl rfl hskip
  · refine .of_scalar (not_isSpace_of_isDigit hc) ?_ hskip
    rw [Frame.ofOpening?, if_neg (ne_of_isDigit hc rfl), if_neg (ne_of_isDigit hc rfl)]

theorem passes_string {units : List Nat} {s : List Char} (h : SpellsString units s) : Passes s := by
  cases h with
  | quote h =>
    refine .of_scalar rfl rfl fun rest _ ↦ ?_
    rw [List.append_assoc]
    exact skipString_spelled h rest

end Scalar

section Nested

variable {frame : Frame} {frames : List Frame} {c : Char} {s rest : List Char}

theorem skipFrom_skipSpace (frames : List Frame) (s : List Char) :
    skipFrom .value frames (skipSpace s) = skipFrom .value frames s := by
  have hs' := skipSpace_skipSpace s
  cases hs : skipSpace s with
  | nil =>
    rw [hs] at hs'
    rw [skipFrom_nil hs, skipFrom_nil hs']
  | cons c rest =>
    rw [hs] at hs'
    rw [skipFrom_value hs, skipFrom_value hs']

theorem Frame.skipName_skipSpace (s : List Char) :
    (frame.skipName (skipSpace s) >>= skipFrom .value (frame :: frames)) =
      frame.skipName s >>= skipFrom .value (frame :: frames) := by
  cases frame with
  | list => exact skipFrom_skipSpace _ s
  | object => simp only [Frame.skipName, Json.skipName, skipSpace_skipSpace]

def PassesItems (frame : Frame) (s : List Char) : Prop :=
  ∀ frames rest,
    (frame.skipName (s ++ frame.closing :: rest) >>= skipFrom .value (frame :: frames)) =
      skipFrom .more frames rest

section Items

variable {n body t : List Char} (hn : ∀ rest, frame.skipName (n ++ rest) = .ok rest)
  (hb : Passes body) (hs : Pads body s)
include hn hb hs

theorem skipFrom_item (hr : Ends rest) (frames : List Frame) :
    ∃ after, Blank after ∧ (frame.skipName (n ++ (s ++ rest)) >>= skipFrom .value frames) =
      skipFrom .more frames (after ++ rest) := by
  obtain ⟨before, after, hbefore, hafter, rfl⟩ := hs
  refine ⟨after, hafter, ?_⟩
  rw [hn, ← hb frames before (after ++ rest) hbefore (hr.blank_append hafter)]
  simp only [List.append_assoc]
  rfl

theorem PassesItems.one : PassesItems frame (n ++ s) := by
  intro frames rest
  have hr : Ends (frame.closing :: rest) := by
    intro c hc
    cases hc
    cases frame <;> decide
  obtain ⟨after, hafter, h⟩ := skipFrom_item hn hb hs hr (frame :: frames)
  have hclose : skipSpace (after ++ frame.closing :: rest) = frame.closing :: rest := by
    rw [skipSpace_blank_append hafter, skipSpace_cons (by cases frame <;> decide)]
  have hne : frame.closing ≠ ',' := by cases frame <;> decide
  rw [List.append_assoc, h, skipFrom_more hclose, if_neg hne, if_pos rfl]

theorem PassesItems.more (ht : PassesItems frame t) : PassesItems frame (n ++ (s ++ ',' :: t)) := by
  intro frames rest
  have hr : Ends (',' :: (t ++ frame.closing :: rest)) := by
    intro c hc
    cases hc
    decide
  obtain ⟨after, hafter, h⟩ := skipFrom_item hn hb hs hr (frame :: frames)
  have hcomma : skipSpace (after ++ ',' :: (t ++ frame.closing :: rest)) =
      ',' :: (t ++ frame.closing :: rest) := by
    rw [skipSpace_blank_append hafter, skipSpace_cons (by decide)]
  rw [List.append_assoc, List.append_assoc, List.cons_append, h, skipFrom_more hcomma, if_pos rfl]
  exact ht frames rest

end Items

section Opened

variable {opening : Char} (ho : Frame.ofOpening? opening = some frame)
  (hsp : isSpace opening = false)
include ho hsp

theorem skipFrom_opened {before : List Char} (hb : Blank before) (s rest : List Char) :
    skipFrom .value frames (before ++ (opening :: (s ++ [frame.closing]) ++ rest)) =
      skipFrom .first (frame :: frames) (s ++ frame.closing :: rest) := by
  have hs : skipSpace (before ++ (opening :: (s ++ [frame.closing]) ++ rest)) =
      opening :: (s ++ frame.closing :: rest) := by
    rw [skipSpace_blank_append hb, List.cons_append, skipSpace_cons (by rw [hsp]; decide),
      List.append_assoc]
    rfl
  rw [skipFrom_value hs, ho]

theorem passes_of_blank (hs : Blank s) : Passes (opening :: (s ++ [frame.closing])) := by
  intro frames before rest hb _
  have hclose : skipSpace (s ++ frame.closing :: rest) = frame.closing :: rest := by
    rw [skipSpace_blank_append hs, skipSpace_cons (by cases frame <;> decide)]
  rw [skipFrom_opened ho hsp hb, skipFrom_first hclose, if_pos rfl]

theorem PassesItems.passes (h : PassesItems frame s)
    (hc : ∀ rest, ∃ t, skipSpace (s ++ rest) = c :: t) (hne : c ≠ frame.closing) :
    Passes (opening :: (s ++ [frame.closing])) := by
  intro frames before rest hb _
  obtain ⟨t, ht⟩ := hc (frame.closing :: rest)
  rw [skipFrom_opened ho hsp hb, skipFrom_first ht, if_neg hne, ← ht, frame.skipName_skipSpace]
  exact h frames rest

end Opened

end Nested

section Spelled

theorem Spells.exists_head {value : Tree} {body : List Char} (h : Spells value body) :
    ∃ c t, body = c :: t ∧ isSpace c = false ∧ c ≠ ']' := by
  cases h with
  | null => exact ⟨_, _, rfl, rfl, by decide⟩
  | boolean b => cases b <;> exact ⟨_, _, rfl, rfl, by decide⟩
  | number h =>
    obtain ⟨c, t, rfl, rfl | hc⟩ := h.exists_head
    · exact ⟨_, _, rfl, rfl, by decide⟩
    · exact ⟨_, _, rfl, not_isSpace_of_isDigit hc, ne_of_isDigit hc rfl⟩
  | string h =>
    cases h
    exact ⟨_, _, rfl, rfl, by decide⟩
  | list h => exact ⟨_, _, rfl, rfl, by decide⟩
  | object h => exact ⟨_, _, rfl, rfl, by decide⟩

theorem skipSpace_pads {c : Char} {t s : List Char} (hs : Pads (c :: t) s)
    (hc : isSpace c = false) (rest : List Char) : ∃ more, skipSpace (s ++ rest) = c :: more := by
  obtain ⟨before, after, hb, -, rfl⟩ := hs
  refine ⟨t ++ after ++ rest, ?_⟩
  rw [List.append_assoc, skipSpace_blank_append hb, List.cons_append, List.cons_append,
    skipSpace_cons (by rw [hc]; decide)]

theorem SpellsValues.exists_head {value : Tree} {values : List Tree} {s : List Char}
    (h : SpellsValues (value :: values) s) :
    ∃ c, c ≠ ']' ∧ ∀ rest, ∃ t, skipSpace (s ++ rest) = c :: t := by
  cases h with
  | one hb hs =>
    obtain ⟨c, t, rfl, hc, hne⟩ := hb.exists_head
    exact ⟨c, hne, skipSpace_pads hs hc⟩
  | more hb hs ht =>
    obtain ⟨c, t, rfl, hc, hne⟩ := hb.exists_head
    refine ⟨c, hne, fun rest ↦ ?_⟩
    rw [List.append_assoc]
    exact skipSpace_pads hs hc _

theorem SpellsString.exists_head {units : List Nat} {s : List Char} (h : SpellsString units s) :
    ∃ t, s = '"' :: t := by
  cases h
  exact ⟨_, rfl⟩

theorem SpellsMembers.exists_head {member : Member} {members : List Member} {s : List Char}
    (h : SpellsMembers (member :: members) s) (rest : List Char) :
    ∃ t, skipSpace (s ++ rest) = '"' :: t := by
  cases h with
  | one hl hn hb hs =>
    obtain ⟨t, rfl⟩ := hl.exists_head
    rw [List.append_assoc]
    exact skipSpace_pads hn rfl _
  | more hl hn hb hs ht =>
    obtain ⟨t, rfl⟩ := hl.exists_head
    rw [List.append_assoc]
    exact skipSpace_pads hn rfl _

theorem readColon_blank {w : List Char} (h : Blank w) (rest : List Char) :
    readColon (w ++ ':' :: rest) = .ok rest := by
  have hs : skipSpace (w ++ ':' :: rest) = ':' :: rest := by
    rw [skipSpace_blank_append h, skipSpace_cons (by decide)]
  rw [readColon, hs]
  rfl

theorem skipName_pads {units : List Nat} {literal n : List Char} (hl : SpellsString units literal)
    (hn : Pads literal n) (rest : List Char) :
    Frame.object.skipName (n ++ [':'] ++ rest) = .ok rest := by
  obtain ⟨before, after, hb, ha, rfl⟩ := hn
  cases hl with
  | @quote inner h =>
    have hs : skipSpace (before ++ ('"' :: (inner ++ ['"']) ++ after) ++ [':'] ++ rest) =
        '"' :: (inner ++ '"' :: (after ++ ':' :: rest)) := by
      simp only [List.append_assoc, skipSpace_blank_append hb, List.cons_append,
        List.nil_append]
      exact skipSpace_cons (by decide) _
    rw [Frame.skipName, skipName, hs]
    simp only [if_true, skipString_spelled h]
    exact readColon_blank ha rest

mutual

theorem Spells.passes {value : Tree} {body : List Char} (h : Spells value body) : Passes body := by
  cases h with
  | null => exact .of_scalar rfl rfl fun rest _ ↦ rfl
  | boolean b =>
    cases b with
    | true => exact .of_scalar rfl rfl fun rest _ ↦ rfl
    | false => exact .of_scalar rfl rfl fun rest _ ↦ rfl
  | number h => exact passes_number h
  | string h => exact passes_string h
  | @list values s h =>
    cases values with
    | nil =>
      cases h with
      | none hs => exact passes_of_blank (show Frame.ofOpening? '[' = some .list from rfl) rfl hs
    | cons value values =>
      obtain ⟨c, hne, hc⟩ := h.exists_head
      exact (h.passes (List.cons_ne_nil _ _)).passes rfl rfl hc hne
  | @object members s h =>
    cases members with
    | nil =>
      cases h with
      | none hs =>
        exact passes_of_blank (show Frame.ofOpening? '\x7b' = some .object from rfl) rfl hs
    | cons member members =>
      exact (h.passes (List.cons_ne_nil _ _)).passes rfl rfl h.exists_head (by decide)

theorem SpellsValues.passes {values : List Tree} {s : List Char} (h : SpellsValues values s)
    (hv : values ≠ []) : PassesItems .list s := by
  cases h with
  | none hs => exact absurd rfl hv
  | one hb hs => exact .one (n := []) (fun _ ↦ rfl) hb.passes hs
  | more hb hs ht =>
    exact .more (n := []) (fun _ ↦ rfl) hb.passes hs (ht.passes (List.cons_ne_nil _ _))

theorem SpellsMembers.passes {members : List Member} {s : List Char} (h : SpellsMembers members s)
    (hm : members ≠ []) : PassesItems .object s := by
  cases h with
  | none hs => exact absurd rfl hm
  | one hl hn hb hs =>
    have h := PassesItems.one (skipName_pads hl hn) hb.passes hs
    rwa [List.append_assoc] at h
  | more hl hn hb hs ht =>
    have h := PassesItems.more (skipName_pads hl hn) hb.passes hs (ht.passes (List.cons_ne_nil _ _))
    rwa [List.append_assoc] at h

end

theorem skipValue_spelled {value : Tree} {body before rest : List Char} (h : Spells value body)
    (hb : Blank before) (hr : Ends rest) : skipValue (before ++ (body ++ rest)) = .ok rest := by
  rw [skipValue, h.passes [] before rest hb hr, skipFrom]
  intro hstage
  cases hstage

end Spelled

end RequestAuth.Json
