import RequestAuth.Json.Number
import RequestAuth.Json.StringLiteral
import RequestAuth.Json.Token

namespace RequestAuth.Json

def skipScalar (s : List Char) : Except Fault (List Char) :=
  match s with
  | [] => .error (.before .unfinishedValue [])
  | c :: rest =>
    if c = '"' then skipString rest
    else if c = 'n' then readWord "ull".toList rest
    else if c = 't' then readWord "rue".toList rest
    else if c = 'f' then readWord "alse".toList rest
    else if c = '-' then skipNumber rest
    else if c.isDigit then skipNumber s
    else .error (.within .noValue s)

theorem length_skipScalar {s rest : List Char} (h : skipScalar s = .ok rest) :
    rest.length < s.length := by
  cases s with
  | nil => cases h
  | cons c s =>
    simp only [skipScalar] at h
    have hs : s.length < (c :: s).length := by simp
    split at h
    · exact Nat.lt_trans (length_skipString h) hs
    split at h
    · exact Nat.lt_of_le_of_lt (length_readWord h) hs
    split at h
    · exact Nat.lt_of_le_of_lt (length_readWord h) hs
    split at h
    · exact Nat.lt_of_le_of_lt (length_readWord h) hs
    split at h
    · exact Nat.lt_trans (length_skipNumber h) hs
    split at h
    · exact length_skipNumber h
    · cases h

def readColon (s : List Char) : Except Fault (List Char) :=
  match skipSpace s with
  | [] => .error (.before .unfinishedObject [])
  | c :: rest => if c = ':' then .ok rest else .error (.within .noColon (c :: rest))

theorem length_readColon {s rest : List Char} (h : readColon s = .ok rest) :
    rest.length < s.length := by
  unfold readColon at h
  split at h
  · cases h
  · split at h <;> cases h
    exact length_of_skipSpace ‹_›

def skipName (s : List Char) : Except Fault (List Char) :=
  match skipSpace s with
  | [] => .error (.before .unfinishedObject [])
  | c :: rest =>
    if c = '"' then skipString rest >>= readColon else .error (.within .keyNotString (c :: rest))

theorem length_skipName {s rest : List Char} (h : skipName s = .ok rest) :
    rest.length < s.length := by
  unfold skipName at h
  split at h
  · cases h
  · rename_i c more hs
    split at h
    · cases he : skipString more with
      | error fault => rw [he] at h; cases h
      | ok after =>
        rw [he] at h
        have := length_skipString he
        have := length_readColon h
        have := length_of_skipSpace hs
        omega
    · cases h

inductive Frame
  | list
  | object
  deriving DecidableEq

namespace Frame

def closing : Frame → Char
  | list => ']'
  | object => '\x7d'

def unfinished : Frame → Cause
  | list => .unfinishedList
  | object => .unfinishedObject

def unclosed : Frame → Cause
  | list => .noListEnd
  | object => .noObjectEnd

def ofOpening? (c : Char) : Option Frame :=
  if c = '[' then some list else if c = '\x7b' then some object else none

def skipName : Frame → List Char → Except Fault (List Char)
  | list, s => .ok s
  | object, s => Json.skipName s

theorem length_skipName {frame : Frame} {s rest : List Char} (h : frame.skipName s = .ok rest) :
    rest.length ≤ s.length := by
  cases frame with
  | list => cases h; exact Nat.le_refl _
  | object => exact Nat.le_of_lt (Json.length_skipName h)

end Frame

inductive Stage
  | value
  | first
  | more

/-- What follows a value, with the frames that it stands in, the innermost first. Nothing is kept of
the value, so that names may repeat and surrogates stand alone. -/
def skipFrom (stage : Stage) (frames : List Frame) (s : List Char) : Except Fault (List Char) :=
  match stage, frames with
  | .value, frames =>
    match _h : skipSpace s with
    | [] => .error (.before .unfinishedValue [])
    | c :: rest =>
      match Frame.ofOpening? c with
      | some frame => skipFrom .first (frame :: frames) rest
      | none =>
        match _h' : skipScalar (c :: rest) with
        | .error fault => .error fault
        | .ok rest => skipFrom .more frames rest
  | _, [] => .ok s
  | .first, frame :: frames =>
    match _h : skipSpace s with
    | [] => .error (.before frame.unfinished [])
    | c :: rest =>
      if c = frame.closing then skipFrom .more frames rest
      else
        match _h' : frame.skipName (c :: rest) with
        | .error fault => .error fault
        | .ok rest => skipFrom .value (frame :: frames) rest
  | .more, frame :: frames =>
    match _h : skipSpace s with
    | [] => .error (.before frame.unfinished [])
    | c :: rest =>
      if c = ',' then
        match _h' : frame.skipName rest with
        | .error fault => .error fault
        | .ok rest => skipFrom .value (frame :: frames) rest
      else if c = frame.closing then skipFrom .more frames rest
      else .error (.within frame.unclosed (c :: rest))
termination_by 2 * s.length + match stage with | .first => 1 | _ => 0
decreasing_by
  · have := length_of_skipSpace _h
    omega
  · have := length_skipSpace s
    have := length_skipScalar _h'
    rw [_h] at *
    omega
  · have := length_of_skipSpace _h
    omega
  · have := length_skipSpace s
    have := frame.length_skipName _h'
    rw [_h] at *
    omega
  · have := length_of_skipSpace _h
    have := frame.length_skipName _h'
    omega
  · have := length_of_skipSpace _h
    omega

theorem length_skipFrom {stage : Stage} {frames : List Frame} {s rest : List Char}
    (h : skipFrom stage frames s = .ok rest) : rest.length ≤ s.length := by
  fun_induction skipFrom stage frames s with
  | case1 => cases h
  | case2 s frames c more hs frame _ ih =>
    exact Nat.le_trans (ih h) (Nat.le_of_lt (length_of_skipSpace hs))
  | case3 => cases h
  | case4 s frames c more hs _ after hv ih =>
    have := length_skipSpace s
    have := length_skipScalar hv
    rw [hs] at *
    exact Nat.le_trans (ih h) (by omega)
  | case5 => cases h; exact Nat.le_refl _
  | case6 => cases h
  | case7 s frame frames more hs ih =>
    exact Nat.le_trans (ih h) (Nat.le_of_lt (length_of_skipSpace hs))
  | case8 => cases h
  | case9 s frame frames c more hs _ after hn ih =>
    have := length_skipSpace s
    have := frame.length_skipName hn
    rw [hs] at *
    exact Nat.le_trans (ih h) (by omega)
  | case10 => cases h
  | case11 => cases h
  | case12 s frame frames more after hn hs ih =>
    have := length_of_skipSpace hs
    have := frame.length_skipName hn
    exact Nat.le_trans (ih h) (by omega)
  | case13 s frame frames more hs _ ih =>
    exact Nat.le_trans (ih h) (Nat.le_of_lt (length_of_skipSpace hs))
  | case14 => cases h

def skipValue (s : List Char) : Except Fault (List Char) := skipFrom .value [] s

end RequestAuth.Json
