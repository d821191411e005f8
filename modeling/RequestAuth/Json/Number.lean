import RequestAuth.Json.Fault

namespace RequestAuth.Json

def skipDigits (s : List Char) : List Char := s.dropWhile Char.isDigit

def startsWithDigit (s : List Char) : Bool := s.head?.any Char.isDigit

def readSign : List Char → Bool × List Char
  | '+' :: s => (false, s)
  | '-' :: s => (true, s)
  | s => (false, s)

def skipExponent (s : List Char) : Except Fault (List Char) :=
  let digits := (readSign s).2
  if startsWithDigit digits then .ok (skipDigits digits)
  else .error (.within .badNumber digits)

def skipExponent? : List Char → Except Fault (List Char)
  | 'e' :: s | 'E' :: s => skipExponent s
  | s => .ok s

def skipFraction? : List Char → Except Fault (List Char)
  | '.' :: s =>
    if startsWithDigit s then skipExponent? (skipDigits s) else .error (.within .badNumber s)
  | s => skipExponent? s

def skipNumber : List Char → Except Fault (List Char)
  | '0' :: s => if startsWithDigit s then .error (.within .badNumber s) else skipFraction? s
  | s => if startsWithDigit s then skipFraction? (skipDigits s) else .error (.within .badNumber s)

theorem length_skipDigits (s : List Char) : (skipDigits s).length ≤ s.length :=
  (List.dropWhile_suffix Char.isDigit).length_le

theorem length_readSign (s : List Char) : (readSign s).2.length ≤ s.length := by
  unfold readSign
  split <;> simp

theorem length_skipExponent {s rest : List Char} (h : skipExponent s = .ok rest) :
    rest.length ≤ s.length := by
  simp only [skipExponent] at h
  split at h
  · cases h
    exact Nat.le_trans (length_skipDigits _) (length_readSign s)
  · cases h

theorem length_skipExponent? {s rest : List Char} (h : skipExponent? s = .ok rest) :
    rest.length ≤ s.length := by
  unfold skipExponent? at h
  split at h
  · exact Nat.le_succ_of_le (length_skipExponent h)
  · exact Nat.le_succ_of_le (length_skipExponent h)
  · cases h
    exact Nat.le_refl _

theorem length_skipFraction? {s rest : List Char} (h : skipFraction? s = .ok rest) :
    rest.length ≤ s.length := by
  unfold skipFraction? at h
  split at h
  · split at h
    · exact Nat.le_succ_of_le (Nat.le_trans (length_skipExponent? h) (length_skipDigits _))
    · cases h
  · exact length_skipExponent? h

theorem length_skipDigits_lt {s : List Char} (h : startsWithDigit s) :
    (skipDigits s).length < s.length := by
  cases s with
  | nil => cases h
  | cons c s =>
    simp only [startsWithDigit, List.head?_cons, Option.any_some] at h
    simp only [skipDigits, List.dropWhile_cons, h, if_true, List.length_cons]
    exact Nat.lt_succ_of_le (length_skipDigits s)

theorem length_skipNumber {s rest : List Char} (h : skipNumber s = .ok rest) :
    rest.length < s.length := by
  unfold skipNumber at h
  split at h
  · split at h
    · cases h
    · exact Nat.lt_succ_of_le (length_skipFraction? h)
  · split at h
    · exact Nat.lt_of_le_of_lt (length_skipFraction? h) (length_skipDigits_lt ‹_›)
    · cases h

inductive Number
  | integer (n : Int)
  | float (x : Float)

def Number.found : Number → Found
  | integer n => .integer n
  | float x => .float x

def takeDigits (limit n : Nat) : List Char → Nat × List Char
  | [] => (n, [])
  | c :: s =>
    let next := 10 * n + (c.toNat - 48)
    if c.isDigit ∧ next < limit then takeDigits limit next s else (n, c :: s)

def powerOfTen (k : Nat) : Float := Float.ofScientific 1 false k

def scaleUp? (x : Float) (k : Nat) : Option Float :=
  if k ≤ 308 then
    let y := x * powerOfTen k
    if y.isInf then none else some y
  else if x == 0 then some x
  else none

def scaleDown (x : Float) (k : Nat) : Float :=
  if k ≤ 308 then x / powerOfTen k
  else if x == 0 then x
  else scaleDown (x / powerOfTen 308) (k - 308)
termination_by k

def scale? (x : Float) : Int → Option Float
  | .ofNat k => scaleUp? x k
  | .negSucc k => some (scaleDown x (k + 1))

def wordLimit : Nat := 0x10000000000000000

/-- A number's sign, and its leading digits as far as they fit in 64 bits. -/
structure Significand where
  negative : Bool
  digits : Nat

namespace Significand

def toFloat (significand : Significand) : Float := (UInt64.ofNat significand.digits).toFloat

def signed (significand : Significand) (x : Float) : Float :=
  if significand.negative then -x else x

def integer (significand : Significand) : Number :=
  if ¬ significand.negative then .integer significand.digits
  else if significand.digits = 0 ∨ 0x8000000000000000 < significand.digits then
    .float (-significand.toFloat)
  else .integer (-significand.digits)

def scaled (significand : Significand) (power : Int) (s : List Char) :
    Except Fault (Number × List Char) :=
  match scale? significand.toFloat power with
  | some x => .ok (.float (significand.signed x), s)
  | none => .error (.before .numberTooLarge s)

/-- Goes on behind an exponent's letter. Only an exponent below `2 ^ 31` is read to its end before
it is judged. -/
def readExponent (significand : Significand) (power : Int) (s : List Char) :
    Except Fault (Number × List Char) :=
  match readSign s with
  | (_, []) => .error (.before .unfinishedValue [])
  | (minus, c :: s) =>
    if ¬ c.isDigit then .error (.within .badNumber (c :: s))
    else
      let (n, rest) := takeDigits 0x80000000 (c.toNat - 48) s
      if ¬ startsWithDigit rest then
        significand.scaled (if minus then power - n else power + n) rest
      else if significand.digits ≠ 0 ∧ ¬ minus then .error (.within .numberTooLarge rest)
      else .ok (.float (significand.signed 0), skipDigits rest)

def readExponent? (significand : Significand) (power : Int) :
    List Char → Except Fault (Number × List Char)
  | 'e' :: s | 'E' :: s => significand.readExponent power s
  | s => significand.scaled power s

def readFraction (significand : Significand) (power : Int) (s : List Char) :
    Except Fault (Number × List Char) :=
  let (digits, rest) := takeDigits wordLimit significand.digits s
  if rest.length = s.length ∧ ¬ startsWithDigit rest then
    .error (if rest = [] then .before .unfinishedValue [] else .within .badNumber rest)
  else
    { significand with digits }.readExponent?
      (power - (s.length - rest.length : Nat)) (skipDigits rest)

end Significand

def readNumber (negative : Bool) (s : List Char) : Except Fault (Number × List Char) :=
  match s with
  | [] => .error (.before .unfinishedValue [])
  | c :: rest =>
    if ¬ c.isDigit then .error (.within .badNumber s)
    else if c = '0' ∧ startsWithDigit rest then .error (.within .badNumber rest)
    else
      let (digits, rest) := takeDigits wordLimit 0 s
      let significand : Significand := ⟨negative, digits⟩
      let power := rest.length - (skipDigits rest).length
      match skipDigits rest with
      | '.' :: more => significand.readFraction power more
      | 'e' :: more | 'E' :: more => significand.readExponent power more
      | more => if power = 0 then .ok (significand.integer, more) else significand.scaled power more

end RequestAuth.Json
