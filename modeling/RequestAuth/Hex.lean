import RequestAuth.Bytes

namespace RequestAuth.Hex

def digit (n : Nat) : Char := "0123456789abcdef".toList.getD n '0'

def digitValue? (byte : UInt8) : Option Nat :=
  if 48 ≤ byte ∧ byte ≤ 57 then some (byte.toNat - 48)
  else if 97 ≤ byte ∧ byte ≤ 102 then some (byte.toNat - 87)
  else if 65 ≤ byte ∧ byte ≤ 70 then some (byte.toNat - 55)
  else none

def encodeChars (bytes : Bytes) : List Char :=
  bytes.flatMap (fun b ↦ [digit (b.toNat / 16), digit (b.toNat % 16)])

def encode (bytes : Bytes) : String := String.ofList (encodeChars bytes)

inductive Fault
  | oddLength
  | invalid (byte : UInt8) (position : Nat)
  deriving DecidableEq, Repr

def decodePairs (position : Nat) : Bytes → Except Fault Bytes
  | high :: low :: rest =>
    match digitValue? high, digitValue? low with
    | none, _ => .error (.invalid high position)
    | some _, none => .error (.invalid low (position + 1))
    | some h, some l => (UInt8.ofNat (16 * h + l) :: ·) <$> decodePairs (position + 2) rest
  | _ => .ok []

/-- An odd number of bytes is refused before any digit is looked at. -/
def decodeBytes (text : Bytes) : Except Fault Bytes :=
  if text.length % 2 = 1 then .error .oddLength else decodePairs 0 text

def decode (text : String) : Except Fault Bytes := decodeBytes (Bytes.ofText text)

end RequestAuth.Hex
