import RequestAuth.Proofs.Decoding
import RequestAuth.Proofs.JsonGrammar
import RequestAuth.Proofs.JsonObject

namespace RequestAuth.Json

section Units

theorem toNat_ofNat_of_isValidChar {n : Nat} (h : n.isValidChar) : (Char.ofNat n).toNat = n := by
  rw [Char.ofNat, dif_pos h]
  rfl

theorem charUnits_cases (c : Char) :
    (charUnits c = [c.toNat] ∧ isLeading c.toNat = false ∧ isTrailing c.toNat = false) ∨
      ∃ leading trailing, charUnits c = [leading, trailing] ∧ isLeading leading = true ∧
        isTrailing trailing = true ∧ joinUnits leading trailing = c := by
  have hv : c.toNat < 0xd800 ∨ 0xdfff < c.toNat ∧ c.toNat < 0x110000 := c.valid
  simp only [isLeading, isTrailing, Bool.and_eq_true, Bool.and_eq_false_iff, decide_eq_true_eq,
    decide_eq_false_iff_not]
  rw [charUnits]
  split
  · exact .inl ⟨rfl, by omega, by omega⟩
  · refine .inr ⟨_, _, rfl, by omega, by omega, ?_⟩
    have hn : 0x10000 + (0xd800 + (c.toNat - 0x10000) / 0x400 - 0xd800) * 0x400 +
        (0xdc00 + (c.toNat - 0x10000) % 0x400 - 0xdc00) = c.toNat := by omega
    rw [joinUnits, hn, Char.ofNat_toNat]

theorem charUnits_ofNat {unit : Nat} (hb : unit < 0x10000) (hl : isLeading unit = false)
    (ht : isTrailing unit = false) : charUnits (Char.ofNat unit) = [unit] := by
  simp only [isLeading, isTrailing, Bool.and_eq_false_iff, decide_eq_false_iff_not] at hl ht
  have hv : unit.isValidChar := by
    rw [Nat.isValidChar]
    omega
  rw [charUnits, toNat_ofNat_of_isValidChar hv, if_pos hb]

theorem charUnits_joinUnits {leading trailing : Nat} (hl : isLeading leading = true)
    (ht : isTrailing trailing = true) :
    charUnits (joinUnits leading trailing) = [leading, trailing] := by
  simp only [isLeading, isTrailing, Bool.and_eq_true, decide_eq_true_eq] at hl ht
  obtain ⟨high, hh, rfl⟩ : ∃ high < 0x400, leading = 0xd800 + high :=
    ⟨leading - 0xd800, by omega, by omega⟩
  obtain ⟨low, hl', rfl⟩ : ∃ low < 0x400, trailing = 0xdc00 + low :=
    ⟨trailing - 0xdc00, by omega, by omega⟩
  have hv : (0x10000 + high * 0x400 + low).isValidChar := by
    rw [Nat.isValidChar]
    omega
  rw [joinUnits, Nat.add_sub_cancel_left, Nat.add_sub_cancel_left, charUnits,
    toNat_ofNat_of_isValidChar hv, if_neg (by omega), Nat.add_assoc, Nat.add_sub_cancel_left,
    show (high * 0x400 + low) / 0x400 = high by omega,
    show (high * 0x400 + low) % 0x400 = low by omega]

variable {c : Char} {unit : Nat} {units : List Nat} {cs : List Char}

theorem not_isTrailing_of_isLeading (h : isLeading unit = true) : isTrailing unit = false := by
  simp only [isLeading, isTrailing, Bool.and_eq_true, Bool.and_eq_false_iff, decide_eq_true_eq,
    decide_eq_false_iff_not] at h ⊢
  omega

theorem charUnits_ne_nil (c : Char) : charUnits c ≠ [] := by
  rcases charUnits_cases c with ⟨h, -⟩ | ⟨leading, trailing, h, -⟩
  · simp [h]
  · simp [h]

theorem flatMap_charUnits_eq_nil_iff : cs.flatMap charUnits = [] ↔ cs = [] := by
  constructor
  · intro h
    cases cs with
    | nil => rfl
    | cons c cs =>
      rw [List.flatMap_cons, List.append_eq_nil_iff] at h
      exact absurd h.1 (charUnits_ne_nil c)
  · rintro rfl
    rfl

theorem eq_of_charUnits_append_eq {d : Char} {more : List Nat}
    (h : charUnits c ++ units = charUnits d ++ more) : c = d ∧ units = more := by
  rcases charUnits_cases c with ⟨hc, hl, -⟩ | ⟨leading, trailing, hc, hl, -, rfl⟩ <;>
    rcases charUnits_cases d with ⟨hd, hl', -⟩ | ⟨leading', trailing', hd, hl', -, rfl⟩ <;>
    rw [hc, hd] at h
  · obtain ⟨hn, hm⟩ := List.cons.inj h
    exact ⟨Char.toNat_inj.1 hn, hm⟩
  · rw [(List.cons.inj h).1, hl'] at hl
    cases hl
  · rw [(List.cons.inj h).1, hl'] at hl
    cases hl
  · obtain ⟨rfl, ht⟩ := List.cons.inj h
    obtain ⟨rfl, hm⟩ := List.cons.inj ht
    exact ⟨rfl, hm⟩

theorem charUnits_append_eq_flatMap_iff :
    charUnits c ++ units = cs.flatMap charUnits ↔
      ∃ more, cs = c :: more ∧ units = more.flatMap charUnits := by
  constructor
  · intro h
    cases cs with
    | nil => exact absurd (List.append_eq_nil_iff.1 h).1 (charUnits_ne_nil c)
    | cons d cs =>
      obtain ⟨rfl, hu⟩ := eq_of_charUnits_append_eq h
      exact ⟨cs, rfl, hu⟩
  · rintro ⟨more, rfl, rfl⟩
    rfl

theorem not_isTrailing_of_charUnits_append_eq {more : List Nat}
    (h : charUnits c ++ units = unit :: more) : isTrailing unit = false := by
  rcases charUnits_cases c with ⟨hc, -, ht⟩ | ⟨leading, trailing, hc, hl, -⟩
  · rw [hc] at h
    rwa [← (List.cons.inj h).1]
  · rw [hc] at h
    rw [← (List.cons.inj h).1]
    exact not_isTrailing_of_isLeading hl

theorem ne_flatMap_of_isTrailing (h : isTrailing unit = true) (units : List Nat) (cs : List Char) :
    unit :: units ≠ cs.flatMap charUnits := by
  intro he
  cases cs with
  | nil => cases he
  | cons c cs =>
    rw [not_isTrailing_of_charUnits_append_eq he.symm] at h
    cases h

theorem exists_trailing_of_isLeading (h : isLeading unit = true)
    (he : unit :: units = cs.flatMap charUnits) :
    ∃ trailing more, units = trailing :: more ∧ isTrailing trailing = true := by
  cases cs with
  | nil => cases he
  | cons c cs =>
    rcases charUnits_cases c with ⟨hc, hl, -⟩ | ⟨leading, trailing, hc, -, ht, -⟩
    · rw [List.flatMap_cons, hc] at he
      rw [(List.cons.inj he).1, hl] at h
      cases h
    · rw [List.flatMap_cons, hc] at he
      exact ⟨trailing, _, (List.cons.inj he).2, ht⟩

theorem textUnits_injective {a b : String} (h : textUnits a = textUnits b) : a = b := by
  suffices ∀ cs ds : List Char, cs.flatMap charUnits = ds.flatMap charUnits → cs = ds from
    String.toList_inj.1 (this _ _ h)
  intro cs
  induction cs with
  | nil =>
    intro ds h
    exact (flatMap_charUnits_eq_nil_iff.1 h.symm).symm
  | cons c cs ih =>
    intro ds h
    obtain ⟨more, rfl, hm⟩ := charUnits_append_eq_flatMap_iff.1 h
    rw [ih more hm]

theorem textUnits_inj {a b : String} : textUnits a = textUnits b ↔ a = b :=
  ⟨textUnits_injective, congrArg textUnits⟩

end Units

section Escape

variable {unit : Nat} {s : List Char}

theorem hexDigit?_of_toLower {c : Char} {n : Nat} (hn : n < 16) (h : c.toLower = Hex.digit n) :
    hexDigit? c = some n := by
  have hascii := Hex.toNat_lt_of_toLower hn h
  rw [hexDigit?, if_pos (by omega)]
  exact Hex.digitValue?_of_toLower_ofNat c.toNat hascii n hn (by rwa [Char.ofNat_toNat])

theorem mapM_hexDigit? {digits : List Char} {values : List Nat} (hv : ∀ n ∈ values, n < 16)
    (hd : digits.map Char.toLower = values.map Hex.digit) :
    digits.mapM hexDigit? = some values := by
  induction values generalizing digits with
  | nil =>
    rw [List.map_nil, List.map_eq_nil_iff] at hd
    subst hd
    rfl
  | cons n values ih =>
    rw [List.map_cons, List.map_eq_cons_iff] at hd
    obtain ⟨c, more, rfl, hc, hm⟩ := hd
    rw [List.mapM_cons, hexDigit?_of_toLower (hv n (List.mem_cons_self ..)) hc,
      ih (fun k hk ↦ hv k (List.mem_cons_of_mem _ hk)) hm]
    rfl

theorem readUnit_spelled {digits : List Char} {values : List Nat} (hl : values.length = 4)
    (hv : ∀ n ∈ values, n < 16) (hd : digits.map Char.toLower = values.map Hex.digit)
    (rest : List Char) : readUnit (digits ++ rest) = .ok (Radix.value 16 values, rest) := by
  have hlen : digits.length = 4 := by
    rw [← List.length_map Char.toLower, hd, List.length_map, hl]
  match values, hl with
  | [a, b, c, d], _ =>
    rw [readUnit, List.take_left' hlen, List.drop_left' hlen, mapM_hexDigit? hv hd]

theorem shortEscape?_of_mem : ∀ p ∈ shortEscapes,
    p.1 ≠ 'u' ∧ shortEscape? p.1 = some p.2 ∧ p.2.toNat < 0x80 := by
  decide

theorem readEscape_spelled (h : SpellsEscape unit s) (rest : List Char) :
    readEscape (s ++ rest) = .ok (unit, rest) := by
  cases h with
  | short h =>
    obtain ⟨hu, hs, -⟩ := shortEscape?_of_mem _ h
    exact readEscape_short hu hs rest
  | hex hl hv hd =>
    rw [List.cons_append, readEscape, if_pos rfl]
    exact readUnit_spelled hl hv hd rest

theorem lt_of_spellsEscape (h : SpellsEscape unit s) : unit < 0x10000 := by
  cases h with
  | short h => exact (shortEscape?_of_mem _ h).2.2.trans (by decide)
  | hex hl hv hd => exact (Radix.value_lt_pow hv).trans_eq (by rw [hl]; rfl)

end Escape

section Written

theorem toLower_digit : ∀ n < 16, (Hex.digit n).toLower = Hex.digit n := by decide

theorem spellsEscape_control {n : Nat} (h : n < 0x20) :
    SpellsEscape n ['u', '0', '0', Hex.digit (n / 16), Hex.digit (n % 16)] := by
  have hv : ∀ k ∈ [0, 0, n / 16, n % 16], k < 16 := by
    intro k hk
    simp only [List.mem_cons, List.not_mem_nil, or_false] at hk
    omega
  have hd : ['0', '0', Hex.digit (n / 16), Hex.digit (n % 16)].map Char.toLower =
      [0, 0, n / 16, n % 16].map Hex.digit := by
    simp only [List.map_cons, toLower_digit (n / 16) (by omega), toLower_digit (n % 16) (by omega)]
    rfl
  have hn : Radix.value 16 [0, 0, n / 16, n % 16] = n := by
    simp only [Radix.value, List.foldl_cons, List.foldl_nil]
    omega
  have he := SpellsEscape.hex rfl hv hd
  rwa [hn] at he

theorem spellsUnits_escape (c : Char) : SpellsUnits (charUnits c) (escape c) := by
  have short {letter : Char} (h : (letter, c) ∈ shortEscapes) (hc : charUnits c = [c.toNat]) :
      SpellsUnits (charUnits c) ['\\', letter] := by
    rw [hc]
    exact .escape (.short h)
  rw [escape]
  split
  · next h =>
    rcases h with rfl | rfl
    · exact short (by decide) rfl
    · exact short (by decide) rfl
  iterate 5
    split
    next h =>
      subst h
      exact short (by decide) rfl
  split
  · next h =>
    rw [charUnits, if_pos (by omega)]
    exact .escape (spellsEscape_control h)
  · next hq _ _ _ _ _ hc =>
    rw [not_or] at hq
    exact .plain hq.1 hq.2 (Nat.not_lt.1 hc)

theorem spellsString_writeString (cs : List Char) :
    SpellsString (cs.flatMap charUnits) (writeString cs) := by
  refine .quote ?_
  induction cs with
  | nil => exact .nil
  | cons c cs ih => exact .cons (spellsUnits_escape c) ih

end Written

section Literal

variable {units : List Nat} {s : List Char}

theorem skipString_spelled (h : SpellsInner units s) (rest : List Char) :
    skipString (s ++ '"' :: rest) = .ok rest := by
  induction h with
  | nil => rw [List.nil_append, skipString, if_pos rfl]
  | @cons first units s t head tail ih =>
    rw [List.append_assoc]
    cases head with
    | plain hq hb hc =>
      rw [List.singleton_append, skipString, if_neg hq, if_neg hb, if_neg (by omega), ih]
    | @escape unit s h =>
      rw [List.cons_append, skipString, if_neg (by decide), if_pos rfl]
      split
      · next he => cases (readEscape_spelled h _).symm.trans he
      · next he =>
        cases (readEscape_spelled h _).symm.trans he
        exact ih

/-- What is read of a string is the text that has its units. -/
def ReadsAs (units : List Nat) (s : List Char) : Prop :=
  ∀ rest cs after, readString (s ++ '"' :: rest) = .ok (cs, after) ↔
    after = rest ∧ units = cs.flatMap charUnits

theorem ReadsAs.nil : ReadsAs [] [] := by
  intro rest cs after
  rw [List.nil_append, readString, if_pos rfl]
  constructor
  · intro h
    cases h
    exact ⟨rfl, rfl⟩
  · rintro ⟨rfl, h⟩
    rw [flatMap_charUnits_eq_nil_iff.1 h.symm]

theorem ReadsAs.cons {c : Char} {t : List Char} (h : ReadsAs units t)
    (hr : ∀ rest, readString (s ++ rest) = (readString rest).map (fun p ↦ (c :: p.1, p.2))) :
    ReadsAs (charUnits c ++ units) (s ++ t) := by
  intro rest cs after
  rw [List.append_assoc, hr, charUnits_append_eq_flatMap_iff]
  constructor
  · intro hm
    obtain ⟨⟨more, own⟩, hp, hc⟩ := exists_of_map_eq_ok hm
    cases hc
    obtain ⟨hown, hu⟩ := (h rest more own).1 hp
    exact ⟨hown, more, rfl, hu⟩
  · rintro ⟨hafter, more, rfl, hu⟩
    rw [(h rest more after).2 ⟨hafter, hu⟩]
    rfl

theorem readsAs_of_fault (hu : ∀ cs : List Char, units ≠ cs.flatMap charUnits)
    (hf : ∀ rest, ∃ fault, readString (s ++ '"' :: rest) = .error fault) : ReadsAs units s := by
  intro rest cs after
  obtain ⟨fault, hfault⟩ := hf rest
  rw [hfault]
  exact iff_of_false nofun fun h ↦ hu cs h.2

end Literal

section Surrogate

variable {unit : Nat} {units : List Nat} {s rest : List Char}

theorem readString_of_fault {fault : Fault} (h : readEscaped s = .error fault) :
    readString ('\\' :: s) = .error fault := by
  rw [readString, if_neg (by decide), if_pos rfl]
  split
  · next he => exact congrArg Except.error (Except.error.inj (he.symm.trans h))
  · next he => cases h.symm.trans he

section Escaped

variable (h : readEscape s = .ok (unit, rest))
include h

theorem readEscaped_of_not_surrogate (hl : isLeading unit = false) (ht : isTrailing unit = false) :
    readEscaped s = .ok (Char.ofNat unit, rest) := by
  rw [readEscaped, h]
  simp only [hl, ht, Bool.false_eq_true, if_false]

theorem readEscaped_of_isTrailing (ht : isTrailing unit = true) :
    readEscaped s = .error (.before .loneSurrogate rest) := by
  rw [readEscaped, h]
  simp only [ht, if_true]

theorem readEscaped_of_unpaired (hl : isLeading unit = true)
    (hr : ∀ more, rest ≠ '\\' :: 'u' :: more) : readEscaped s = .error (unpaired rest) := by
  rw [readEscaped, h]
  simp only [hl, not_isTrailing_of_isLeading hl, Bool.false_eq_true, if_false, if_true]

end Escaped

theorem readEscaped_of_pair {second : Nat} {more : List Char}
    (h : readEscape s = .ok (unit, '\\' :: 'u' :: more)) (hl : isLeading unit = true)
    (hm : readUnit more = .ok (second, rest)) :
    readEscaped s =
      if isTrailing second then .ok (joinUnits unit second, rest)
      else .error (.before .loneSurrogate rest) := by
  rw [readEscaped, h]
  simp only [hl, not_isTrailing_of_isLeading hl, hm, Bool.false_eq_true, if_false, if_true]

end Surrogate

section Spelled

variable {unit : Nat} {units : List Nat} {e s : List Char} (he : SpellsEscape unit e)
include he

theorem readEscape_behind (s rest : List Char) :
    readEscape ((e ++ s) ++ '"' :: rest) = .ok (unit, s ++ '"' :: rest) := by
  rw [List.append_assoc]
  exact readEscape_spelled he _

theorem ReadsAs.escape (hl : isLeading unit = false) (ht : isTrailing unit = false)
    (h : ReadsAs units s) : ReadsAs (unit :: units) ('\\' :: (e ++ s)) := by
  have hc := h.cons (s := '\\' :: e) (c := Char.ofNat unit) fun rest ↦
    readString_escaped (readEscaped_of_not_surrogate (readEscape_spelled he rest) hl ht)
  rwa [charUnits_ofNat (lt_of_spellsEscape he) hl ht] at hc

theorem readsAs_of_isTrailing (ht : isTrailing unit = true) :
    ReadsAs (unit :: units) ('\\' :: (e ++ s)) :=
  readsAs_of_fault (ne_flatMap_of_isTrailing ht units) fun rest ↦
    ⟨_, readString_of_fault (readEscaped_of_isTrailing (readEscape_behind he s rest) ht)⟩

theorem readsAs_of_unpaired (hl : isLeading unit = true)
    (hu : ∀ trailing more, units = trailing :: more → isTrailing trailing = false)
    (hs : ∀ rest more, s ++ '"' :: rest ≠ '\\' :: 'u' :: more) :
    ReadsAs (unit :: units) ('\\' :: (e ++ s)) := by
  refine readsAs_of_fault (fun cs hcs ↦ ?_) fun rest ↦
    ⟨_, readString_of_fault (readEscaped_of_unpaired (readEscape_behind he s rest) hl (hs rest))⟩
  obtain ⟨trailing, more, hm, ht⟩ := exists_trailing_of_isLeading hl hcs
  rw [hu trailing more hm] at ht
  cases ht

theorem ReadsAs.pair {values : List Nat} {digits : List Char} (hl : isLeading unit = true)
    (hlen : values.length = 4) (hv : ∀ n ∈ values, n < 16)
    (hd : digits.map Char.toLower = values.map Hex.digit) (h : ReadsAs units s) :
    ReadsAs (unit :: Radix.value 16 values :: units)
      ('\\' :: (e ++ '\\' :: 'u' :: (digits ++ s))) := by
  have hread (rest : List Char) := readEscaped_of_pair (readEscape_spelled he _) hl
    (readUnit_spelled hlen hv hd rest)
  have happ (rest : List Char) : e ++ '\\' :: 'u' :: (digits ++ s) ++ '"' :: rest =
      e ++ '\\' :: 'u' :: (digits ++ (s ++ '"' :: rest)) := by
    simp only [List.append_assoc, List.cons_append]
  cases ht : isTrailing (Radix.value 16 values) with
  | true =>
    intro rest cs after
    have hc := h.cons (s := '\\' :: (e ++ '\\' :: 'u' :: digits))
      (c := joinUnits unit (Radix.value 16 values)) fun rest ↦ by
        rw [List.cons_append, List.append_assoc]
        exact readString_escaped ((hread rest).trans (if_pos ht))
    rw [charUnits_joinUnits hl ht] at hc
    simpa only [List.append_assoc, List.cons_append, List.nil_append] using hc rest cs after
  | false =>
    refine readsAs_of_fault (fun cs hcs ↦ ?_) fun rest ↦ ?_
    · obtain ⟨trailing, more, hm, ht'⟩ := exists_trailing_of_isLeading hl hcs
      rw [← (List.cons.inj hm).1, ht] at ht'
      cases ht'
    · have hfault := (hread (s ++ '"' :: rest)).trans (if_neg (by rw [ht]; decide))
      exact ⟨_, by rw [List.cons_append, happ]; exact readString_of_fault hfault⟩

end Spelled

/-- A string of the grammar is read just if its surrogates stand in pairs. -/
theorem readsAs_of_spellsInner {units : List Nat} {s : List Char} (h : SpellsInner units s) :
    ReadsAs units s ∧ ∀ {unit : Nat} {e : List Char}, SpellsEscape unit e → isLeading unit = true →
      ReadsAs (unit :: units) ('\\' :: (e ++ s)) := by
  induction h with
  | nil => exact ⟨.nil, fun he hl ↦ readsAs_of_unpaired he hl nofun nofun⟩
  | @cons first units s t head tail ih =>
    cases head with
    | plain hq hb hc =>
      refine ⟨ih.1.cons (readString_plain hq hb (Nat.not_lt.2 hc)), fun he hl ↦ ?_⟩
      exact readsAs_of_unpaired he hl (fun _ _ ↦ not_isTrailing_of_charUnits_append_eq)
        fun rest more hs ↦ hb (List.cons.inj hs).1
    | @escape unit s h =>
      constructor
      · cases hl : isLeading unit with
        | true => exact ih.2 h hl
        | false =>
          cases ht : isTrailing unit with
          | true => exact readsAs_of_isTrailing h ht
          | false => exact ih.1.escape h hl ht
      · intro unit e he hl
        cases h with
        | short h =>
          obtain ⟨hu, -, hlt⟩ := shortEscape?_of_mem _ h
          refine readsAs_of_unpaired he hl (fun trailing more hm ↦ ?_) fun rest more hs ↦ ?_
          · rw [← (List.cons.inj hm).1]
            simp only [isTrailing, Bool.and_eq_false_iff, decide_eq_false_iff_not]
            exact .inl (Nat.not_le.2 (hlt.trans (by decide)))
          · exact hu (List.cons.inj (List.cons.inj hs).2).1
        | hex hlen hv hd => exact ih.1.pair he hl hlen hv hd

end RequestAuth.Json
