import RequestAuth.ExtendedKey.Payload
import RequestAuth.Hex
import RequestAuth.Secp256k1.Key

namespace RequestAuth.ExtendedKey

open Secp256k1

structure PublicNode where
  label : Label
  place : Place
  key : PublicKey
  deriving DecidableEq

namespace PublicNode

/-- A payload, with the key in compressed form whatever form it was read from. -/
def toPayload (node : PublicNode) : Payload := ⟨node.label, node.place, node.key.compressed⟩

def text (node : PublicNode) : String := node.toPayload.text

def Same (a b : PublicNode) : Prop := a.text = b.text

instance (a b : PublicNode) : Decidable (Same a b) := inferInstanceAs (Decidable (a.text = b.text))

def ofPayload (payload : Payload) : Except Malformed PublicNode :=
  if payload.label.IsPublic then
    match PublicKey.ofCompressed? payload.key.toBytes with
    | some key => .ok ⟨payload.label, payload.place, key⟩
    | none => .error .cryptographic
  else .error .cryptographic

def ofText (text : String) : Except Failure PublicNode := do
  let payload ← decodeTrimmed text
  if payload.label.IsPublic then (ofPayload payload).mapError Malformed.toFailure
  else .error (Malformed.notPublic payload.label.letters).toFailure

def describe (node : PublicNode) : String := Text.labelled "HdPublicKey" (Text.quoted node.text)

end PublicNode

structure PrivateNode where
  label : Label
  place : Place
  pair : KeyPair

namespace PrivateNode

def ofPayload (payload : Payload) : Except Malformed PrivateNode :=
  match payload.key.toBytes with
  | 0 :: secret =>
    match Scalar.ofBytes? secret with
    | some k =>
      if payload.label.IsPrivate then .ok ⟨payload.label, payload.place, .ofScalar k⟩
      else .error .cryptographic
    | none => .error .cryptographic
  | _ => .error .cryptographic

def ofText (text : String) : Except Failure PrivateNode := do
  let payload ← decodeTrimmed text
  if payload.label.IsPrivate then (ofPayload payload).mapError Malformed.toFailure
  else .error (Malformed.notPrivate payload.label.letters).toFailure

/-- The node without its secret, on the network that its label belongs to. -/
def neuter (node : PrivateNode) : PublicNode :=
  ⟨(Network.ofPrivate node.label).publicLabel, node.place, node.pair.publicKey⟩

def describe (node : PrivateNode) : String :=
  Text.record "HdPrivateKey" [Text.field "xpub" (Text.quoted node.neuter.text), Text.more]

end PrivateNode

inductive Node
  | priv (node : PrivateNode)
  | pub (node : PublicNode)

namespace Node

/-- Reads a node of the kind that the letters tell; letters of neither kind are refused as a public
node's would be. -/
def ofText (text : String) : Except Failure Node := do
  let payload ← decodeTrimmed text
  if payload.label.IsPrivate then
    priv <$> (PrivateNode.ofPayload payload).mapError Malformed.toFailure
  else pub <$> (PublicNode.ofPayload payload).mapError Malformed.toFailure

def neuter : Node → PublicNode
  | priv node => node.neuter
  | pub node => node

def describe : Node → String
  | priv node => Text.labelled "Private" node.describe
  | pub node => Text.labelled "Public" node.describe

end Node

end RequestAuth.ExtendedKey
