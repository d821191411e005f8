import RequestAuth.Bytes
import RequestAuth.Decimal.Shortest
import RequestAuth.Outcome

namespace RequestAuth.Json

inductive Found
  | null
  | boolean (b : Bool)
  | integer (n : Int)
  | float (x : Float)
  | string (text : String)
  | list
  | object

/-- Up to sixteen whole digits and five leading zeros are written out. -/
def floatLayout : Decimal.Layout := ⟨-5, 15⟩

open Text in
def Found.describe : Found → String
  | null => "null"
  | boolean b => "boolean `" ++ flag b ++ "`"
  | integer n => "integer `" ++ n.repr ++ "`"
  | float x => "floating point `" ++ floatLayout.write x ++ "`"
  | string text => "string " ++ quoted text
  | list => "sequence"
  | object => "map"

inductive Cause
  | unfinishedValue
  | unfinishedString
  | unfinishedList
  | unfinishedObject
  | noValue
  | noWord
  | noColon
  | noListEnd
  | noObjectEnd
  | keyNotString
  | trailingComma
  | trailingCharacters
  | controlCharacter
  | badEscape
  | loneSurrogate
  | unfinishedSurrogate
  | badNumber
  | numberTooLarge
  | mismatch (found : Found) (wanted : String)
  | duplicate (name : String)

def Cause.message : Cause → String
  | unfinishedValue => "EOF while parsing a value"
  | unfinishedString => "EOF while parsing a string"
  | unfinishedList => "EOF while parsing a list"
  | unfinishedObject => "EOF while parsing an object"
  | noValue => "expected value"
  | noWord => "expected ident"
  | noColon => "expected `:`"
  | noListEnd => "expected `,` or `]`"
  | noObjectEnd => "expected `,` or `\x7d`"
  | keyNotString => "key must be a string"
  | trailingComma => "trailing comma"
  | trailingCharacters => "trailing characters"
  | controlCharacter => "control character (\\u0000-\\u001F) found while parsing a string"
  | badEscape => "invalid escape"
  | loneSurrogate => "lone leading surrogate in hex escape"
  | unfinishedSurrogate => "unexpected end of hex escape"
  | badNumber => "invalid number"
  | numberTooLarge => "number out of range"
  | mismatch found wanted => "invalid type: " ++ found.describe ++ ", expected " ++ wanted
  | duplicate name => "duplicate field `" ++ name ++ "`"

/-- What keeps a text from being read, and where: so many bytes into the rest of the text. -/
structure Fault where
  cause : Cause
  rest : List Char
  bytes : Nat

def Fault.before (cause : Cause) (rest : List Char) : Fault := ⟨cause, rest, 0⟩

def Fault.within (cause : Cause) (rest : List Char) : Fault := ⟨cause, rest, 1⟩

structure Place where
  line : Nat
  column : Nat

def Place.next (place : Place) (byte : UInt8) : Place :=
  if byte = 10 then ⟨place.line + 1, 0⟩ else ⟨place.line, place.column + 1⟩

def Place.after (bytes : Bytes) : Place := bytes.foldl next ⟨0, 0⟩

def byteLength (s : List Char) : Nat := s.foldl (fun n c ↦ n + c.utf8Size) 0

def Fault.place (fault : Fault) (text : String) : Place :=
  let bytes := Bytes.ofText text
  .after (bytes.take (bytes.length - byteLength fault.rest + fault.bytes))

def Fault.message (fault : Fault) (text : String) : String :=
  let place := fault.place text
  fault.cause.message ++ " at line " ++ (place.line + 1).repr ++ " column " ++ place.column.repr

end RequestAuth.Json
