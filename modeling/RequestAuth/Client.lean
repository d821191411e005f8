import RequestAuth.Configuration
import RequestAuth.Credential

namespace RequestAuth

/-- A credential with the place of its source of nonces and its layout of messages. The system's
source has no place, and copies of a client share the one they hold. -/
structure Client where
  credential : Credential
  source : Option Nat
  canonicalizer : Canonicalizer

namespace Client

/-- A key that is there and not blank, without the white space around it. -/
def configured (key : Option String) : Option String :=
  (key.map Text.trim).filter (· ≠ "")

def resolve (configuration : Configuration) : Except Failure Credential :=
  match configured configuration.xpriv with
  | some text => Credential.ofXpriv text configuration.signRequest
  | none =>
    match configured configuration.xpub with
    | some text => Credential.ofXpub text
    | none =>
      match configured configuration.accessKey with
      | some text => Credential.ofAccessKey text
      | none => .error .noKeys

def ofCredential (credential : Credential) : Client := ⟨credential, none, .standard⟩

def resolvedEvent (credential : Credential) : Event :=
  ⟨.debug, "resolved credential",
    [("credential", credential.kind.text), ("signing", Text.flag credential.isSigning)]⟩

def ofConfiguration (configuration : Option Configuration) (host : Host) :
    Except Failure Client × Host :=
  match configuration with
  | none => (.error .noConfiguration, host)
  | some configuration =>
    match resolve configuration with
    | .error failure => (.error failure, host)
    | .ok credential => (.ok (ofCredential credential), host.record (resolvedEvent credential))

def withSource (client : Client) (place : Option Nat) : Client := { client with source := place }

def withCanonicalizer (client : Client) (canonicalizer : Canonicalizer) : Client :=
  { client with canonicalizer }

def buildFor (client : Client) (method : Http.Method) (body : Bytes) (host : Host) : Built :=
  client.credential.build client.canonicalizer method body client.source host

def build (client : Client) (body : String) (host : Host) : Built :=
  client.buildFor .post (Bytes.ofText body) host

def buildWithoutBody (client : Client) (host : Host) : Built := client.build "" host

open Text in
def describe (client : Client) : String :=
  record "HeaderBuilder"
    [field "credential" client.credential.describe,
      field "canonicalizer" (quoted client.canonicalizer.name), more]

end Client

end RequestAuth
