import RequestAuth.Json.Found
import RequestAuth.Proofs.Encoding

namespace RequestAuth.Json

section StringLiteral

variable {c : Char} {s rest : List Char}

theorem readString_escaped (h : readEscaped s = .ok (c, rest)) :
    readString ('\\' :: s) = (readString rest).map (fun p ↦ (c :: p.1, p.2)) := by
  rw [readString]
  simp only [show ('\\' : Char) ≠ '"' by decide, if_false, if_true]
  split
  · next hf =>
    rw [h] at hf
    cases hf
  · next hf =>
    rw [h] at hf
    cases hf
    rfl

theorem readString_plain (hq : c ≠ '"') (hb : c ≠ '\\') (hc : ¬ c.toNat < 0x20) (s : List Char) :
    readString (c :: s) = (readString s).map (fun p ↦ (c :: p.1, p.2)) := by
  rw [readString, if_neg hq, if_neg hb, if_neg hc]

theorem readEscaped_of_readEscape (hc : c.toNat < 0xd800) (h : readEscape s = .ok (c.toNat, rest)) :
    readEscaped s = .ok (c, rest) := by
  have ht : isTrailing c.toNat = false := by
    simp only [isTrailing, Bool.and_eq_false_iff, decide_eq_false_iff_not]
    omega
  have hl : isLeading c.toNat = false := by
    simp only [isLeading, Bool.and_eq_false_iff, decide_eq_false_iff_not]
    omega
  rw [readEscaped, h]
  simp only [ht, hl, Bool.false_eq_true, if_false, Char.ofNat_toNat]

theorem readEscape_short {d : Char} (hu : d ≠ 'u') (h : shortEscape? d = some c) (s : List Char) :
    readEscape (d :: s) = .ok (c.toNat, s) := by
  rw [readEscape, if_neg hu, h]

theorem hexDigit?_digit : ∀ n < 16, hexDigit? (Hex.digit n) = some n := by decide

theorem readEscape_control (hc : c.toNat < 0x20) (s : List Char) :
    readEscape ('u' :: '0' :: '0' :: Hex.digit (c.toNat / 16) :: Hex.digit (c.toNat % 16) :: s) =
      .ok (c.toNat, s) := by
  have hz : hexDigit? '0' = some 0 := rfl
  have hh := hexDigit?_digit (c.toNat / 16) (by omega)
  have hl := hexDigit?_digit (c.toNat % 16) (by omega)
  have hv : Radix.value 16 [0, 0, c.toNat / 16, c.toNat % 16] = c.toNat := by
    simp only [Radix.value, List.foldl_cons, List.foldl_nil]
    omega
  rw [readEscape, if_pos rfl, readUnit]
  simp [hz, hh, hl, hv]

/-- What is written for a character is read as that character. -/
theorem readString_escape (c : Char) (s : List Char) :
    readString (escape c ++ s) = (readString s).map (fun p ↦ (c :: p.1, p.2)) := by
  have short {d : Char} (hu : d ≠ 'u') (h : shortEscape? d = some c) (hc : c.toNat < 0xd800) :
      readString (['\\', d] ++ s) = (readString s).map (fun p ↦ (c :: p.1, p.2)) :=
    readString_escaped (readEscaped_of_readEscape hc (readEscape_short hu h s))
  rw [escape]
  split
  · next h =>
    rcases h with rfl | rfl
    · exact short (by decide) rfl (by decide)
    · exact short (by decide) rfl (by decide)
  iterate 5
    split
    next h =>
      subst h
      exact short (by decide) rfl (by decide)
  split
  · next h =>
    exact readString_escaped (readEscaped_of_readEscape (by omega) (readEscape_control h s))
  · next hq _ _ _ _ _ hc =>
    rw [not_or] at hq
    exact readString_plain hq.1 hq.2 hc s

theorem readString_flatMap_escape (cs s : List Char) :
    readString (cs.flatMap escape ++ '"' :: s) = .ok (cs, s) := by
  induction cs with
  | nil =>
    rw [List.flatMap_nil, List.nil_append, readString, if_pos rfl]
  | cons c cs ih =>
    rw [List.flatMap_cons, List.append_assoc, readString_escape, ih]
    rfl

end StringLiteral

section Object

theorem skipSpace_cons {c : Char} (h : ¬ isSpace c) (rest : List Char) :
    skipSpace (c :: rest) = c :: rest :=
  List.dropWhile_cons_of_neg h

theorem writeString_append (cs rest : List Char) :
    writeString cs ++ rest = '"' :: (cs.flatMap escape ++ '"' :: rest) := by
  rw [writeString, List.append_assoc]
  rfl

theorem skipSpace_writeString (cs rest : List Char) :
    skipSpace (writeString cs ++ rest) = writeString cs ++ rest := by
  rw [writeString_append]
  exact skipSpace_cons (by decide) _

section Written

variable {text : String} {s rest : List Char} (h : skipSpace s = writeString text.toList ++ rest)
include h

theorem readText?_written : readText? s = .ok (some text, rest) := by
  rw [readText?, h, writeString_append, readFound, if_pos rfl, readString_flatMap_escape]
  simp only [Except.map, String.ofList_toList]

theorem nextName_written :
    nextName true s = .ok (some text, rest) ∧
      nextName false (',' :: s) = .ok (some text, rest) := by
  have hn : readName ('"' :: (text.toList.flatMap escape ++ '"' :: rest)) =
      .ok (some text, rest) := by
    rw [readName, readString_flatMap_escape]
    simp only [Except.map, String.ofList_toList]
  have hc : skipSpace (',' :: s) = ',' :: s := skipSpace_cons (by decide) s
  rw [writeString_append] at h
  constructor
  · rw [nextName, h]
    simpa only [show ('"' : Char) ≠ '\x7d' by decide, if_false, if_true]
  · rw [nextName, hc]
    simpa only [show (',' : Char) ≠ '\x7d' by decide, show ('"' : Char) ≠ '\x7d' by decide,
      Bool.false_eq_true, if_false, if_true, h]

end Written

def readPairs (first : Bool) (s : List Char) :
    Except Fault (List (String × String) × List Char) :=
  match _h : nextName first s with
  | .error fault => .error fault
  | .ok (none, rest) => .ok ([], rest)
  | .ok (some name, rest) =>
    match _hc : readColon rest with
    | .error fault => .error fault
    | .ok value =>
      match _ht : readText? value with
      | .error fault => .error fault
      | .ok (none, rest) => .error (.before (.mismatch .null "a string") rest)
      | .ok (some text, rest) => (readPairs false rest).map (fun p ↦ ((name, text) :: p.1, p.2))
termination_by s.length
decreasing_by
  exact Nat.lt_of_le_of_lt (length_readText? _ht)
    (Nat.lt_trans (length_readColon _hc) (length_nextName _h))

theorem readPairs_of_none {first : Bool} {s rest : List Char}
    (h : nextName first s = .ok (none, rest)) : readPairs first s = .ok ([], rest) := by
  rw [readPairs]
  split
  · next hn => cases h.symm.trans hn
  · next hn =>
    cases h.symm.trans hn
    rfl
  · next hn => cases h.symm.trans hn

theorem readPairs_of_some {first : Bool} {s value after rest : List Char} {name text : String}
    (h : nextName first s = .ok (some name, after)) (hc : readColon after = .ok value)
    (ht : readText? value = .ok (some text, rest)) :
    readPairs first s = (readPairs false rest).map (fun p ↦ ((name, text) :: p.1, p.2)) := by
  rw [readPairs]
  split
  · next hn => cases h.symm.trans hn
  · next hn => cases h.symm.trans hn
  · next hn =>
    cases h.symm.trans hn
    split
    · next hv => cases hc.symm.trans hv
    · next hv =>
      cases hc.symm.trans hv
      split
      · next hx => cases ht.symm.trans hx
      · next hx => cases ht.symm.trans hx
      · next hx =>
        cases ht.symm.trans hx
        rfl

def memberChars (pair : String × String) : List Char :=
  ' ' :: ' ' :: (writeString pair.1.toList ++ ':' :: ' ' :: writeString pair.2.toList)

def lineChars (pair : String × String) : List Char := '\n' :: memberChars pair

theorem skipSpace_lineChars (pair : String × String) (rest : List Char) :
    skipSpace (lineChars pair ++ rest) =
      writeString pair.1.toList ++ ':' :: ' ' :: (writeString pair.2.toList ++ rest) := by
  simp only [lineChars, memberChars, List.cons_append, List.append_assoc, writeString_append]
  rfl

theorem readPairs_of_nextName {first : Bool} {s rest : List Char} {pair : String × String}
    (h : nextName first s = .ok (some pair.1, ':' :: ' ' :: (writeString pair.2.toList ++ rest))) :
    readPairs first s = (readPairs false rest).map (fun p ↦ (pair :: p.1, p.2)) :=
  readPairs_of_some h rfl (readText?_written rfl)

def endChars : List Char := ['\n', '\x7d', '\n']

theorem readPairs_lines (pairs : List (String × String)) :
    readPairs false (pairs.flatMap (fun pair ↦ ',' :: lineChars pair) ++ endChars) =
      .ok (pairs, ['\n']) := by
  induction pairs with
  | nil => exact readPairs_of_none rfl
  | cons pair more ih =>
    rw [List.flatMap_cons, List.append_assoc, List.cons_append,
      readPairs_of_nextName (nextName_written (skipSpace_lineChars pair _)).2, ih]
    rfl

theorem intercalate_cons {α : Type} (sep first : List α) (more : List (List α)) :
    sep.intercalate (first :: more) = first ++ more.flatMap (sep ++ ·) := by
  induction more generalizing first with
  | nil => simp [List.intercalate_singleton]
  | cons second more ih =>
    rw [List.intercalate_cons_cons, ih, List.flatMap_cons]
    simp only [List.append_assoc]

theorem readPairs_object (pairs : List (String × String)) :
    readPairs true ('\n' :: ([',', '\n'].intercalate (pairs.map memberChars) ++ endChars)) =
      .ok (pairs, ['\n']) := by
  cases pairs with
  | nil => exact readPairs_of_none rfl
  | cons pair more =>
    have hlines : '\n' :: ([',', '\n'].intercalate ((pair :: more).map memberChars) ++ endChars) =
        lineChars pair ++ (more.flatMap (fun other ↦ ',' :: lineChars other) ++ endChars) := by
      rw [List.map_cons, intercalate_cons, List.flatMap_map, List.append_assoc]
      rfl
    rw [hlines, readPairs_of_nextName (nextName_written (skipSpace_lineChars pair _)).1,
      readPairs_lines]
    rfl

/-- The names and texts of an object that is all there is in a text. -/
def pairs? (text : String) : Option (List (String × String)) :=
  match skipSpace text.toList with
  | '\x7b' :: s =>
    match readPairs true s with
    | .ok (pairs, rest) => if skipSpace rest = [] then some pairs else none
    | .error _ => none
  | _ => none

end Object

end RequestAuth.Json
