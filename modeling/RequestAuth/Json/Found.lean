import RequestAuth.Json.Value

namespace RequestAuth.Json

/-- What a value is, and what follows it. A list or an object is only looked at. -/
def readFound (s : List Char) : Except Fault (Found × List Char) :=
  match s with
  | [] => .error (.before .unfinishedValue [])
  | c :: rest =>
    if c = '"' then (readString rest).map (fun p ↦ (.string (String.ofList p.1), p.2))
    else if c = 'n' then (readWord "ull".toList rest).map (.null, ·)
    else if c = 't' then (readWord "rue".toList rest).map (.boolean true, ·)
    else if c = 'f' then (readWord "alse".toList rest).map (.boolean false, ·)
    else if c = '[' then .ok (.list, s)
    else if c = '\x7b' then .ok (.object, s)
    else if c = '-' then (readNumber true rest).map (fun p ↦ (p.1.found, p.2))
    else if c.isDigit then (readNumber false s).map (fun p ↦ (p.1.found, p.2))
    else .error (.within .noValue s)

theorem length_readFound {s rest : List Char} {found : Found}
    (h : readFound s = .ok (found, rest)) (hn : ∀ number : Number, number.found ≠ found) :
    rest.length ≤ s.length := by
  cases s with
  | nil => cases h
  | cons c s =>
    simp only [readFound] at h
    split at h
    · obtain ⟨p, hp, hq⟩ := exists_of_map_eq_ok h
      cases hq
      exact Nat.le_of_lt (Nat.lt_succ_of_lt (length_readString hp))
    split at h
    · obtain ⟨p, hp, hq⟩ := exists_of_map_eq_ok h
      cases hq
      exact Nat.le_succ_of_le (length_readWord hp)
    split at h
    · obtain ⟨p, hp, hq⟩ := exists_of_map_eq_ok h
      cases hq
      exact Nat.le_succ_of_le (length_readWord hp)
    split at h
    · obtain ⟨p, hp, hq⟩ := exists_of_map_eq_ok h
      cases hq
      exact Nat.le_succ_of_le (length_readWord hp)
    split at h
    · cases h
      exact Nat.le_refl _
    split at h
    · cases h
      exact Nat.le_refl _
    split at h
    · obtain ⟨p, _, hq⟩ := exists_of_map_eq_ok h
      exact absurd (congrArg Prod.fst hq) (hn p.1)
    split at h
    · obtain ⟨p, _, hq⟩ := exists_of_map_eq_ok h
      exact absurd (congrArg Prod.fst hq) (hn p.1)
    · cases h

def readText? (s : List Char) : Except Fault (Option String × List Char) :=
  match readFound (skipSpace s) with
  | .error fault => .error fault
  | .ok (.string text, rest) => .ok (some text, rest)
  | .ok (.null, rest) => .ok (none, rest)
  | .ok (found, rest) => .error (.before (.mismatch found "a string") rest)

def readBoolean (s : List Char) : Except Fault (Bool × List Char) :=
  match readFound (skipSpace s) with
  | .error fault => .error fault
  | .ok (.boolean b, rest) => .ok (b, rest)
  | .ok (found, rest) => .error (.before (.mismatch found "a boolean") rest)

def readName : List Char → Except Fault (Option String × List Char)
  | '"' :: s => (readString s).map (fun p ↦ (some (String.ofList p.1), p.2))
  | s => .error (.within .keyNotString s)

def nextName (first : Bool) (s : List Char) : Except Fault (Option String × List Char) :=
  match skipSpace s with
  | [] => .error (.before .unfinishedObject [])
  | c :: rest =>
    if c = '\x7d' then .ok (none, rest)
    else if first then readName (c :: rest)
    else if c = ',' then
      match skipSpace rest with
      | [] => .error (.before .unfinishedValue [])
      | d :: more =>
        if d = '\x7d' then .error (.within .trailingComma (d :: more)) else readName (d :: more)
    else .error (.within .noObjectEnd (c :: rest))

def nextValue (first : Bool) (s : List Char) : Except Fault (Bool × List Char) :=
  match skipSpace s with
  | [] => .error (.before .unfinishedList [])
  | c :: rest =>
    if c = ']' then .ok (false, rest)
    else if first then .ok (true, c :: rest)
    else if c = ',' then
      match skipSpace rest with
      | [] => .error (.before .unfinishedValue [])
      | d :: more =>
        if d = ']' then .error (.within .trailingComma (d :: more)) else .ok (true, d :: more)
    else .error (.within .noListEnd (c :: rest))

def endList (s : List Char) : Except Fault (List Char) :=
  match skipSpace s with
  | [] => .error (.before .unfinishedList [])
  | c :: rest =>
    if c = ']' then .ok rest
    else if c = ',' then
      let more := skipSpace rest
      .error (.within (if more.head? = some ']' then .trailingComma else .trailingCharacters) more)
    else .error (.within .trailingCharacters (c :: rest))

theorem length_readText? {s rest : List Char} {text : Option String}
    (h : readText? s = .ok (text, rest)) : rest.length ≤ s.length := by
  unfold readText? at h
  split at h <;> cases h
  · exact Nat.le_trans (length_readFound ‹_› (by rintro (_ | _) ⟨⟩)) (length_skipSpace s)
  · exact Nat.le_trans (length_readFound ‹_› (by rintro (_ | _) ⟨⟩)) (length_skipSpace s)

theorem length_readBoolean {s rest : List Char} {b : Bool}
    (h : readBoolean s = .ok (b, rest)) : rest.length ≤ s.length := by
  unfold readBoolean at h
  split at h <;> cases h
  exact Nat.le_trans (length_readFound ‹_› (by rintro (_ | _) ⟨⟩)) (length_skipSpace s)

theorem length_readName {s rest : List Char} {name : Option String}
    (h : readName s = .ok (name, rest)) : rest.length < s.length := by
  unfold readName at h
  split at h
  · rename_i t
    obtain ⟨p, hp, hq⟩ := exists_of_map_eq_ok h
    cases hq
    have := length_readString hp
    simp only [List.length_cons]
    omega
  · cases h

theorem length_nextName {first : Bool} {s rest : List Char} {name : Option String}
    (h : nextName first s = .ok (name, rest)) : rest.length < s.length := by
  unfold nextName at h
  split at h
  · cases h
  · rename_i c more hs
    have hlt := length_of_skipSpace hs
    split at h
    · cases h
      exact hlt
    split at h
    · have := length_readName h
      simp only [List.length_cons] at this
      omega
    split at h
    · split at h
      · cases h
      · rename_i d last hd
        split at h
        · cases h
        · have := length_readName h
          have := length_of_skipSpace hd
          simp only [List.length_cons] at *
          omega
    · cases h

end RequestAuth.Json
