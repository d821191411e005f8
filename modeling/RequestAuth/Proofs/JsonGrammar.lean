import RequestAuth.Hex
import RequestAuth.Radix

namespace RequestAuth.Json

def charUnits (c : Char) : List Nat :=
  if c.toNat < 0x10000 then [c.toNat]
  else [0xd800 + (c.toNat - 0x10000) / 0x400, 0xdc00 + (c.toNat - 0x10000) % 0x400]

def textUnits (text : String) : List Nat := text.toList.flatMap charUnits

/-- Strings and names are code units, of which surrogates may stand alone. -/
inductive Tree
  | null
  | boolean (b : Bool)
  | number (digits : List Char)
  | string (units : List Nat)
  | list (values : List Tree)
  | object (members : List (List Nat × Tree))

abbrev Member := List Nat × Tree

def Blank (s : List Char) : Prop := ∀ c ∈ s, c ∈ [' ', '\n', '\r', '\t']

def Pads (body s : List Char) : Prop :=
  ∃ before after, Blank before ∧ Blank after ∧ s = before ++ (body ++ after)

section String

def shortEscapes : List (Char × Char) :=
  [('"', '"'), ('\\', '\\'), ('/', '/'), ('b', '\x08'), ('f', '\x0c'), ('n', '\n'), ('r', '\r'),
    ('t', '\t')]

inductive SpellsEscape : Nat → List Char → Prop
  | short {letter c : Char} (h : (letter, c) ∈ shortEscapes) : SpellsEscape c.toNat [letter]
  | hex {values : List Nat} {digits : List Char} (hl : values.length = 4)
      (hv : ∀ n ∈ values, n < 16) (hd : digits.map Char.toLower = values.map Hex.digit) :
      SpellsEscape (Radix.value 16 values) ('u' :: digits)

inductive SpellsUnits : List Nat → List Char → Prop
  | plain {c : Char} (hq : c ≠ '"') (hb : c ≠ '\\') (hc : 0x20 ≤ c.toNat) :
      SpellsUnits (charUnits c) [c]
  | escape {unit : Nat} {s : List Char} (h : SpellsEscape unit s) :
      SpellsUnits [unit] ('\\' :: s)

inductive SpellsInner : List Nat → List Char → Prop
  | nil : SpellsInner [] []
  | cons {first units : List Nat} {s t : List Char} (head : SpellsUnits first s)
      (tail : SpellsInner units t) : SpellsInner (first ++ units) (s ++ t)

inductive SpellsString : List Nat → List Char → Prop
  | quote {units : List Nat} {inner : List Char} (h : SpellsInner units inner) :
      SpellsString units ('"' :: (inner ++ ['"']))

end String

section Number

def IsDigits (s : List Char) : Prop := ∀ c ∈ s, c.isDigit

inductive IsWhole : List Char → Prop
  | zero : IsWhole ['0']
  | positive {c : Char} {s : List Char} (hc : c.isDigit) (hz : c ≠ '0') (hs : IsDigits s) :
      IsWhole (c :: s)

inductive IsFraction : List Char → Prop
  | none : IsFraction []
  | point {c : Char} {s : List Char} (hc : c.isDigit) (hs : IsDigits s) :
      IsFraction ('.' :: c :: s)

inductive IsExponent : List Char → Prop
  | none : IsExponent []
  | power {e c : Char} {sign s : List Char} (he : e = 'e' ∨ e = 'E')
      (hsign : sign ∈ [[], ['+'], ['-']]) (hc : c.isDigit) (hs : IsDigits s) :
      IsExponent (e :: (sign ++ c :: s))

inductive IsNumber : List Char → Prop
  | mk {sign whole fraction exponent : List Char} (hsign : sign ∈ [[], ['-']])
      (hw : IsWhole whole) (hf : IsFraction fraction) (he : IsExponent exponent) :
      IsNumber (sign ++ (whole ++ (fraction ++ exponent)))

end Number

mutual

inductive Spells : Tree → List Char → Prop
  | null : Spells .null ['n', 'u', 'l', 'l']
  | boolean (b : Bool) :
      Spells (.boolean b) (if b then ['t', 'r', 'u', 'e'] else ['f', 'a', 'l', 's', 'e'])
  | number {s : List Char} (h : IsNumber s) : Spells (.number s) s
  | string {units : List Nat} {s : List Char} (h : SpellsString units s) : Spells (.string units) s
  | list {values : List Tree} {s : List Char} (h : SpellsValues values s) :
      Spells (.list values) ('[' :: (s ++ [']']))
  | object {members : List Member} {s : List Char} (h : SpellsMembers members s) :
      Spells (.object members) ('\x7b' :: (s ++ ['\x7d']))

inductive SpellsValues : List Tree → List Char → Prop
  | none {s : List Char} (h : Blank s) : SpellsValues [] s
  | one {value : Tree} {body s : List Char} (hb : Spells value body) (hs : Pads body s) :
      SpellsValues [value] s
  | more {value next : Tree} {values : List Tree} {body s t : List Char} (hb : Spells value body)
      (hs : Pads body s) (ht : SpellsValues (next :: values) t) :
      SpellsValues (value :: next :: values) (s ++ ',' :: t)

inductive SpellsMembers : List Member → List Char → Prop
  | none {s : List Char} (h : Blank s) : SpellsMembers [] s
  | one {name : List Nat} {value : Tree} {literal n body s : List Char}
      (hl : SpellsString name literal) (hn : Pads literal n) (hb : Spells value body)
      (hs : Pads body s) : SpellsMembers [(name, value)] (n ++ ':' :: s)
  | more {name : List Nat} {value : Tree} {next : Member} {members : List Member}
      {literal n body s t : List Char} (hl : SpellsString name literal) (hn : Pads literal n)
      (hb : Spells value body) (hs : Pads body s) (ht : SpellsMembers (next :: members) t) :
      SpellsMembers ((name, value) :: next :: members) (n ++ ':' :: (s ++ ',' :: t))

end

/-- The whole of a text is an object with these members. -/
def IsObjectText (members : List Member) (text : String) : Prop :=
  ∃ body, Spells (.object members) body ∧ Pads body text.toList

end RequestAuth.Json
