import RequestAuth.Text.Record

namespace RequestAuth

inductive Failure
  | noExtendedKey
  | noPrivateKey
  | noConfiguration
  | noKeys
  | badExtendedKey (reason : String)
  | badPrivateKey (wif hex : String)
  | badConfiguration (reason : String)
  | publicKeyOnly
  | signing (reason : String)
  | badHeader (name reason : String)
  deriving DecidableEq, Repr

inductive Phase
  | construction
  | request
  deriving DecidableEq

namespace Failure

def phase : Failure → Phase
  | publicKeyOnly | signing _ | badHeader _ _ => .request
  | _ => .construction

def message : Failure → String
  | noExtendedKey => "missing extended key"
  | noPrivateKey => "missing private key"
  | noConfiguration => "missing header configuration"
  | noKeys =>
    "missing keys: configure an extended private key, an extended public key or an access key"
  | badExtendedKey reason => "invalid extended key: " ++ reason
  | badPrivateKey wif hex =>
    "invalid private key encoding: not WIF (" ++ wif ++ "), not hex (" ++ hex ++ ")"
  | badConfiguration reason => "failed to read header configuration: " ++ reason
  | publicKeyOnly => "extended key carries no private material"
  | signing reason => "failed to sign request: " ++ reason
  | badHeader name reason => "invalid value for header " ++ name ++ ": " ++ reason

def kind : Failure → String
  | noExtendedKey => "MissingExtendedKey"
  | noPrivateKey => "MissingPrivateKey"
  | noConfiguration => "MissingHeaderConfiguration"
  | noKeys => "MissingKeys"
  | badExtendedKey _ => "InvalidExtendedKey"
  | badPrivateKey _ _ => "InvalidPrivateKeyEncoding"
  | badConfiguration _ => "Configuration"
  | publicKeyOnly => "PublicKeyOnly"
  | signing _ => "Signing"
  | badHeader _ _ => "InvalidHeader"

open Text in
def describe (failure : Failure) : String :=
  match failure with
  | badExtendedKey reason | badConfiguration reason | signing reason =>
    labelled failure.kind (quoted reason)
  | badPrivateKey wif hex =>
    record failure.kind [field "wif" (quoted wif), field "hex" (quoted hex)]
  | badHeader name reason =>
    record failure.kind [field "name" (quoted name), field "reason" (quoted reason)]
  | _ => failure.kind

end Failure

end RequestAuth
