import RequestAuth.Base58
import RequestAuth.Failure
import RequestAuth.Hex
import RequestAuth.Secp256k1.Key
import RequestAuth.Text.WhiteSpace

namespace RequestAuth.AccessKey

open Secp256k1

def secretLength : Nat := 32

inductive WifFault
  | base58 (fault : Base58.Fault)
  | empty
  | version (byte : UInt8)
  | length (n : Nat)
  | scalar
  deriving DecidableEq

inductive HexFault
  | hex (fault : Hex.Fault)
  | length (n : Nat)
  | scalar
  deriving DecidableEq

def badScalar : String := "invalid secret scalar: signature error"

def byteList (bytes : Bytes) : String :=
  "[" ++ ", ".intercalate (bytes.map (fun b ↦ toString b.toNat)) ++ "]"

def WifFault.reason : WifFault → String
  | base58 (.invalidCharacter c position) =>
    "provided string contained invalid character " ++ Text.quotedChar c ++ " at byte " ++
      toString position
  | base58 (.nonAscii position) =>
    "provided string contained non-ascii character starting at byte " ++ toString position
  | base58 .tooShort => "provided string is too small to contain a checksum"
  | base58 (.checksum calculated expected) =>
    "invalid checksum, calculated checksum: '" ++ byteList calculated ++
      "', expected checksum: " ++ byteList expected
  | empty => "empty payload"
  | version byte => "unknown version byte 0x" ++ Hex.encode [byte]
  | length n => "unexpected payload length " ++ toString n
  | scalar => badScalar

def HexFault.reason : HexFault → String
  | hex .oddLength => "Odd number of digits"
  | hex (.invalid byte position) =>
    "Invalid character " ++ Text.quotedChar (Char.ofNat byte.toNat) ++ " at position " ++
      toString position
  | length n => "expected " ++ toString secretLength ++ " bytes, got " ++ toString n
  | scalar => badScalar

def mainVersion : UInt8 := 0x80

def testVersion : UInt8 := 0xef

def compressedMark : UInt8 := 0x01

def ofWifPayload : Bytes → Except WifFault Scalar
  | [] => .error .empty
  | version :: rest =>
    if version = mainVersion ∨ version = testVersion then
      if rest.length = secretLength ∨
          rest.length = secretLength + 1 ∧ rest.drop secretLength = [compressedMark] then
        match Scalar.ofBytes? (rest.take secretLength) with
        | some k => .ok k
        | none => .error .scalar
      else .error (.length rest.length)
    else .error (.version version)

def ofWif (text : String) : Except WifFault Scalar :=
  match Base58.decodeCheck text with
  | .ok payload => ofWifPayload payload
  | .error fault => .error (.base58 fault)

def ofHex (text : String) : Except HexFault Scalar :=
  match Hex.decode text with
  | .ok bytes =>
    if bytes.length = secretLength then
      match Scalar.ofBytes? bytes with
      | some k => .ok k
      | none => .error .scalar
    else .error (.length bytes.length)
  | .error fault => .error (.hex fault)

def ofText (text : String) : Except Failure KeyPair :=
  if Text.IsBlank text then .error .noPrivateKey
  else match ofWif (Text.trim text) with
    | .ok k => .ok (.ofScalar k)
    | .error wif =>
      match ofHex (Text.trim text) with
      | .ok k => .ok (.ofScalar k)
      | .error hex => .error (.badPrivateKey wif.reason hex.reason)

def identity (pair : KeyPair) : String := Hex.encode pair.publicKey.compressed.toBytes

/-- The name that a server files the key under: the digest of the identity's text. -/
def fileName (pair : KeyPair) : String := Hex.encode (Sha256.hash (Bytes.ofText (identity pair)))

def describe (pair : KeyPair) : String :=
  Text.record "EcKeyPair" [Text.field "public_key" (Text.quoted (identity pair)), Text.more]

end RequestAuth.AccessKey
