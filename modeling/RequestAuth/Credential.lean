import RequestAuth.AccessKey
import RequestAuth.ExtendedKey.Node
import RequestAuth.HeaderSet
import RequestAuth.Host

namespace RequestAuth

open ExtendedKey Secp256k1

inductive KeyMaterial
  | extended (node : Node)
  | keyPair (pair : KeyPair)

def KeyMaterial.describe : KeyMaterial → String
  | extended node => Text.labelled "Extended" node.describe
  | keyPair pair => Text.labelled "EcKeyPair" (AccessKey.describe pair)

inductive CredentialKind
  | xpub
  | xpriv
  | accessKey
  deriving DecidableEq

namespace CredentialKind

def text : CredentialKind → String
  | xpub => "xpub"
  | xpriv => "xpriv"
  | accessKey => "access-key"

def describe : CredentialKind → String
  | xpub => "Xpub"
  | xpriv => "Xpriv"
  | accessKey => "AccessKey"

end CredentialKind

inductive Credential
  | xpub (node : PublicNode)
  /-- Identifies by the neutered node, and signs only if it was made to. -/
  | xpriv (node : PrivateNode) (signs : Bool)
  | accessKey (pair : KeyPair)

structure Built where
  outcome : Except Failure HeaderSet
  host : Host

namespace Credential

def ofXpub (text : String) : Except Failure Credential := xpub <$> PublicNode.ofText text

def ofXpriv (text : String) (signs : Bool := true) : Except Failure Credential :=
  (xpriv · signs) <$> PrivateNode.ofText text

def ofAccessKey (text : String) : Except Failure Credential := accessKey <$> AccessKey.ofText text

def ofKeyMaterial (material : KeyMaterial) (signs : Bool) : Credential :=
  match material with
  | .extended (.pub node) => xpub node
  | .extended (.priv node) => xpriv node signs
  | .keyPair pair => accessKey pair

def kind : Credential → CredentialKind
  | xpub _ => .xpub
  | xpriv _ _ => .xpriv
  | accessKey _ => .accessKey

def isSigning : Credential → Bool
  | xpub _ => false
  | xpriv _ signs => signs
  | accessKey _ => true

def identityHeader : Credential → IdentityHeader
  | xpub _ | xpriv _ _ => .xpub
  | accessKey _ => .key

def identity : Credential → String
  | xpub node => node.text
  | xpriv node _ => node.neuter.text
  | accessKey pair => AccessKey.identity pair

def accessKeyId : Credential → Option String
  | accessKey pair => some (AccessKey.fileName pair)
  | _ => none

def secret : Credential → Except Failure Scalar
  | xpub _ => .error .publicKeyOnly
  | xpriv node _ => .ok node.pair.secret
  | accessKey pair => .ok pair.secret

open Text in
def describe (credential : Credential) : String :=
  record "Credential"
    [field "kind" credential.kind.describe, field "identity" (quoted credential.identity),
      field "signing" (flag credential.isSigning)]

def unsignedSet (credential : Credential) : HeaderSet :=
  ⟨credential.identityHeader, credential.identity, none⟩

def signedSet (credential : Credential) (canonicalizer : Canonicalizer)
    (context : SigningContext) : Except Failure HeaderSet := do
  let secret ← credential.secret
  let signature ← signContext credential.identity context canonicalizer (.ofSecret secret)
  return ⟨credential.identityHeader, credential.identity, some signature⟩

def unsignedEvent (credential : Credential) (method : Http.Method) : Event :=
  ⟨.debug, "built unsigned auth headers",
    [("credential", credential.kind.text), ("method", method.text)]⟩

def signedEvent (credential : Credential) (method : Http.Method) (canonicalizer : Canonicalizer) :
    Event :=
  ⟨.debug, "built signed auth headers",
    [("credential", credential.kind.text), ("method", method.text),
      ("canonicalization", canonicalizer.name)]⟩

/-- The headers for one request. A credential that signs draws a nonce, which is spent even if
signing then fails. -/
def build (credential : Credential) (canonicalizer : Canonicalizer) (method : Http.Method)
    (body : Bytes) (place : Option Nat) (host : Host) : Built :=
  if credential.isSigning then
    let drawn := host.draw place
    let context := SigningContext.ofParts method body drawn.nonce host.now.millis
    match credential.signedSet canonicalizer context with
    | .ok set => ⟨.ok set, drawn.host.record (credential.signedEvent method canonicalizer)⟩
    | .error failure => ⟨.error failure, drawn.host⟩
  else ⟨.ok credential.unsignedSet, host.record (credential.unsignedEvent method)⟩

def buildPlain (credential : Credential) (method : Http.Method) (body : Bytes)
    (host : Host) : Built :=
  credential.build .standard method body none host

end Credential

end RequestAuth
