import RequestAuth.Sha256

namespace RequestAuth.Base58

def alphabet : List Char :=
  "123456789ABCDEFGHJKLMNPQRSTUVWXYZabcdefghijkmnopqrstuvwxyz".toList

def digitChar (n : Nat) : Char := alphabet.getD n '1'

def digitValue? (c : Char) : Option Nat := alphabet.idxOf? c

inductive Fault
  | invalidCharacter (c : Char) (position : Nat)
  | nonAscii (position : Nat)
  | tooShort
  | checksum (calculated expected : Bytes)
  deriving DecidableEq, Repr

/-- A one for each leading zero byte, then the digits of the number that the bytes write. -/
def encodeChars (bytes : Bytes) : List Char :=
  (bytes.takeWhile (· == 0)).map (fun _ ↦ '1') ++
    (Radix.digits 58 (Bytes.toNat bytes)).map digitChar

def encode (bytes : Bytes) : String := String.ofList (encodeChars bytes)

def digitValues (position : Nat) : List Char → Except Fault (List Nat)
  | [] => .ok []
  | c :: rest =>
    if 127 < c.toNat then .error (.nonAscii position)
    else match digitValue? c with
      | none => .error (.invalidCharacter c position)
      | some d => (d :: ·) <$> digitValues (position + 1) rest

def decodeChars (text : List Char) : Except Fault Bytes := do
  let ds ← digitValues 0 text
  return (ds.takeWhile (· == 0)).map (fun _ ↦ 0) ++ Bytes.shortest (Radix.value 58 ds)

def decode (text : String) : Except Fault Bytes := decodeChars text.toList

def checksumLength : Nat := 4

def checksum (payload : Bytes) : Bytes := (Sha256.hashTwice payload).take checksumLength

@[simp] theorem length_checksum (payload : Bytes) : (checksum payload).length = 4 := by
  simp [checksum, checksumLength, Sha256.hashTwice]

def encodeCheck (payload : Bytes) : String := encode (payload ++ checksum payload)

def splitCheck (bytes : Bytes) : Except Fault Bytes :=
  if bytes.length < checksumLength then .error .tooShort
  else
    let payload := bytes.take (bytes.length - checksumLength)
    let expected := bytes.drop (bytes.length - checksumLength)
    if checksum payload = expected then .ok payload
    else .error (.checksum (checksum payload) expected)

def decodeCheck (text : String) : Except Fault Bytes := decode text >>= splitCheck

end RequestAuth.Base58
