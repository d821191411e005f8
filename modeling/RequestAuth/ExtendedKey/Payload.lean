import RequestAuth.Base58
import RequestAuth.Failure
import RequestAuth.Text.WhiteSpace

namespace RequestAuth.ExtendedKey

/-- The first four letters of a key's text together with its version bytes. -/
structure Label where
  letters : List Char
  version : Block 4
  deriving DecidableEq

namespace Label

/-- Only the letters tell public keys from private ones. -/
def IsPublic (label : Label) : Prop := label.letters.drop 1 = ['p', 'u', 'b']

def IsPrivate (label : Label) : Prop := label.letters.drop 1 = ['p', 'r', 'v']

instance (label : Label) : Decidable label.IsPublic :=
  inferInstanceAs (Decidable (label.letters.drop 1 = ['p', 'u', 'b']))

instance (label : Label) : Decidable label.IsPrivate :=
  inferInstanceAs (Decidable (label.letters.drop 1 = ['p', 'r', 'v']))

theorem not_isPublic_and_isPrivate (label : Label) : ¬ (label.IsPublic ∧ label.IsPrivate) := by
  rintro ⟨h, h'⟩
  exact absurd (h.symm.trans h') (by decide)

end Label

inductive Network
  | main
  | test
  | nestedSegwit
  | nativeSegwit
  deriving DecidableEq

namespace Network

def all : List Network := [main, test, nestedSegwit, nativeSegwit]

def privateLabel : Network → Label
  | main => ⟨['x', 'p', 'r', 'v'], Block.ofNat 4 0x0488ade4⟩
  | test => ⟨['t', 'p', 'r', 'v'], Block.ofNat 4 0x04358394⟩
  | nestedSegwit => ⟨['y', 'p', 'r', 'v'], Block.ofNat 4 0x049d7878⟩
  | nativeSegwit => ⟨['z', 'p', 'r', 'v'], Block.ofNat 4 0x04b2430c⟩

def publicLabel : Network → Label
  | main => ⟨['x', 'p', 'u', 'b'], Block.ofNat 4 0x0488b21e⟩
  | test => ⟨['t', 'p', 'u', 'b'], Block.ofNat 4 0x043587cf⟩
  | nestedSegwit => ⟨['y', 'p', 'u', 'b'], Block.ofNat 4 0x049d7cb2⟩
  | nativeSegwit => ⟨['z', 'p', 'u', 'b'], Block.ofNat 4 0x04b24746⟩

/-- The network of a private key; one with an unknown label counts as the main network's. -/
def ofPrivate (label : Label) : Network :=
  (all.find? (fun network ↦ network.privateLabel = label)).getD main

end Network

structure Place where
  depth : UInt8
  parent : Block 4
  child : Block 4
  chainCode : Block 32
  deriving DecidableEq

namespace Place

def toBytes (place : Place) : Bytes :=
  place.depth :: (place.parent.toBytes ++ place.child.toBytes ++ place.chainCode.toBytes)

@[simp] theorem length_toBytes (place : Place) : place.toBytes.length = 41 := by
  simp [toBytes]

def ofBytes (bytes : Bytes) : Place :=
  ⟨bytes.headD 0, Block.take 4 (bytes.drop 1), Block.take 4 (bytes.drop 5),
    Block.take 32 (bytes.drop 9)⟩

end Place

/-- The parts of a key's 78 bytes, with the letters of its text. -/
structure Payload where
  label : Label
  place : Place
  key : Block 33
  deriving DecidableEq

namespace Payload

def length : Nat := 78

def toBytes (payload : Payload) : Bytes :=
  payload.label.version.toBytes ++ payload.place.toBytes ++ payload.key.toBytes

@[simp] theorem length_toBytes (payload : Payload) : payload.toBytes.length = length := by
  simp [toBytes, length]

def text (payload : Payload) : String := Base58.encodeCheck payload.toBytes

def ofBytes (letters : List Char) (bytes : Bytes) : Payload :=
  ⟨⟨letters, Block.take 4 bytes⟩, Place.ofBytes (bytes.drop 4), Block.take 33 (bytes.drop 45)⟩

end Payload

inductive Malformed
  | base58
  | decoding
  | cryptographic
  | notPublic (letters : List Char)
  | notPrivate (letters : List Char)
  deriving DecidableEq

namespace Malformed

def reason : Malformed → String
  | base58 => "base58 error"
  | decoding => "decoding error"
  | cryptographic => "cryptographic error"
  | notPublic letters =>
    "expected an extended public key, got prefix " ++ String.ofList letters
  | notPrivate letters =>
    "expected an extended private key, got prefix " ++ String.ofList letters

def toFailure (malformed : Malformed) : Failure := .badExtendedKey malformed.reason

end Malformed

/-- Reads a key's text without looking at the key itself. Too long a payload is found out before its
checksum is. -/
def decode (text : String) : Except Malformed Payload :=
  match Base58.decodeCheck text with
  | .error _ => .error .base58
  | .ok bytes =>
    let letters := text.toList.take 4
    if Payload.length < bytes.length then .error .base58
    else if bytes.length = Payload.length ∧ letters.all Char.isAlpha then
      .ok (.ofBytes letters bytes)
    else .error .decoding

def decodeTrimmed (text : String) : Except Failure Payload :=
  if Text.IsBlank text then .error .noExtendedKey
  else (decode (Text.trim text)).mapError Malformed.toFailure

end RequestAuth.ExtendedKey
