import RequestAuth.Hex
import RequestAuth.Json.Fault

namespace RequestAuth.Json

/-- The way a character is written between quotes: quotes, backslashes and control characters are
escaped, and nothing else is. -/
def escape (c : Char) : List Char :=
  if c = '"' ∨ c = '\\' then ['\\', c]
  else if c = '\x08' then ['\\', 'b']
  else if c = '\x0c' then ['\\', 'f']
  else if c = '\n' then ['\\', 'n']
  else if c = '\r' then ['\\', 'r']
  else if c = '\t' then ['\\', 't']
  else if c.toNat < 0x20 then
    ['\\', 'u', '0', '0', Hex.digit (c.toNat / 16), Hex.digit (c.toNat % 16)]
  else [c]

def writeString (cs : List Char) : List Char := '"' :: cs.flatMap escape ++ ['"']

def hexDigit? (c : Char) : Option Nat :=
  if c.toNat < 256 then Hex.digitValue? (UInt8.ofNat c.toNat) else none

def readUnit (s : List Char) : Except Fault (Nat × List Char) :=
  match (s.take 4).mapM hexDigit? with
  | some [a, b, c, d] => .ok (Radix.value 16 [a, b, c, d], s.drop 4)
  | _ =>
    if byteLength s < 4 then .error (.before .unfinishedString [])
    else .error ⟨.badEscape, s, 4⟩

def shortEscape? (c : Char) : Option Char :=
  if c = '"' ∨ c = '\\' ∨ c = '/' then some c
  else if c = 'b' then some '\x08'
  else if c = 'f' then some '\x0c'
  else if c = 'n' then some '\n'
  else if c = 'r' then some '\r'
  else if c = 't' then some '\t'
  else none

def readEscape : List Char → Except Fault (Nat × List Char)
  | [] => .error (.before .unfinishedString [])
  | c :: s =>
    if c = 'u' then readUnit s
    else
      match shortEscape? c with
      | some d => .ok (d.toNat, s)
      | none => .error (.within .badEscape (c :: s))

def isLeading (unit : Nat) : Bool := 0xd800 ≤ unit && unit ≤ 0xdbff

def isTrailing (unit : Nat) : Bool := 0xdc00 ≤ unit && unit ≤ 0xdfff

def joinUnits (leading trailing : Nat) : Char :=
  Char.ofNat (0x10000 + (leading - 0xd800) * 0x400 + (trailing - 0xdc00))

def unpaired : List Char → Fault
  | [] | ['\\'] => .before .unfinishedString []
  | '\\' :: s => .within .unfinishedSurrogate s
  | s => .within .unfinishedSurrogate s

/-- The character that one or two escapes behind a backslash stand for. -/
def readEscaped (s : List Char) : Except Fault (Char × List Char) :=
  match readEscape s with
  | .error fault => .error fault
  | .ok (unit, rest) =>
    if isTrailing unit then .error (.before .loneSurrogate rest)
    else if isLeading unit then
      match rest with
      | '\\' :: 'u' :: more =>
        match readUnit more with
        | .error fault => .error fault
        | .ok (second, rest) =>
          if isTrailing second then .ok (joinUnits unit second, rest)
          else .error (.before .loneSurrogate rest)
      | _ => .error (unpaired rest)
    else .ok (Char.ofNat unit, rest)

theorem length_readUnit {s rest : List Char} {unit : Nat} (h : readUnit s = .ok (unit, rest)) :
    rest.length ≤ s.length := by
  unfold readUnit at h
  split at h
  · cases h
    simp
  · split at h <;> cases h

theorem length_readEscape {s rest : List Char} {unit : Nat} (h : readEscape s = .ok (unit, rest)) :
    rest.length < s.length := by
  cases s with
  | nil => cases h
  | cons c s =>
    simp only [readEscape] at h
    split at h
    · exact Nat.lt_succ_of_le (length_readUnit h)
    · split at h <;> cases h
      simp

theorem length_readEscaped {s rest : List Char} {c : Char} (h : readEscaped s = .ok (c, rest)) :
    rest.length < s.length := by
  unfold readEscaped at h
  split at h
  · cases h
  · rename_i unit first hfirst
    have hlt := length_readEscape hfirst
    split at h
    · cases h
    · split at h
      · split at h
        · split at h
          · cases h
          · rename_i more _ second last hlast
            have hle := length_readUnit hlast
            split at h
            · simp only [Except.ok.injEq, Prod.mk.injEq] at h
              simp only [List.length_cons] at hlt
              rw [← h.2]
              omega
            · cases h
        · cases h
      · simp only [Except.ok.injEq, Prod.mk.injEq] at h
        rw [← h.2]
        exact hlt

def readString (s : List Char) : Except Fault (List Char × List Char) :=
  match s with
  | [] => .error (.before .unfinishedString [])
  | c :: rest =>
    if c = '"' then .ok ([], rest)
    else if c = '\\' then
      match _h : readEscaped rest with
      | .error fault => .error fault
      | .ok (d, rest) => (readString rest).map (fun p ↦ (d :: p.1, p.2))
    else if c.toNat < 0x20 then .error (.within .controlCharacter (c :: rest))
    else (readString rest).map (fun p ↦ (c :: p.1, p.2))
termination_by s.length
decreasing_by
  · have := length_readEscaped _h
    simp only [List.length_cons]
    omega
  · simp

/-- What follows a closing quote. Surrogates need not be paired before it. -/
def skipString (s : List Char) : Except Fault (List Char) :=
  match s with
  | [] => .error (.before .unfinishedString [])
  | c :: rest =>
    if c = '"' then .ok rest
    else if c = '\\' then
      match _h : readEscape rest with
      | .error fault => .error fault
      | .ok (_, rest) => skipString rest
    else if c.toNat < 0x20 then .error (.before .controlCharacter (c :: rest))
    else skipString rest
termination_by s.length
decreasing_by
  · have := length_readEscape _h
    simp only [List.length_cons]
    omega
  · simp

theorem length_skipString {s rest : List Char} (h : skipString s = .ok rest) :
    rest.length < s.length := by
  fun_induction skipString s with
  | case1 => cases h
  | case2 => cases h; simp
  | case3 => cases h
  | case4 s _ more he _ ih =>
    have := length_readEscape he
    have := ih h
    simp only [List.length_cons]
    omega
  | case5 => cases h
  | case6 c s _ _ _ ih =>
    have := ih h
    simp only [List.length_cons]
    omega

theorem length_readString {s cs rest : List Char} (h : readString s = .ok (cs, rest)) :
    rest.length < s.length := by
  fun_induction readString s generalizing cs with
  | case1 => cases h
  | case2 => cases h; simp
  | case3 => cases h
  | case4 s d more he _ ih =>
    have := length_readEscaped he
    obtain ⟨p, hp, hq⟩ := exists_of_map_eq_ok h
    cases hq
    have := ih hp
    simp only [List.length_cons]
    omega
  | case5 => cases h
  | case6 c s _ _ _ ih =>
    obtain ⟨p, hp, hq⟩ := exists_of_map_eq_ok h
    cases hq
    have := ih hp
    simp only [List.length_cons]
    omega

end RequestAuth.Json
