import RequestAuth.Failure
import RequestAuth.Http.Request
import RequestAuth.Signing

namespace RequestAuth

open Http

inductive AuthHeader
  | xpub
  | key
  | hash
  | nonce
  | time
  | signature
  deriving DecidableEq

namespace AuthHeader

def text : AuthHeader → String
  | xpub => "X-Auth-Xpub"
  | key => "X-Auth-Key"
  | hash => "X-Auth-Hash"
  | nonce => "X-Auth-Nonce"
  | time => "X-Auth-Time"
  | signature => "X-Auth-Signature"

def name (header : AuthHeader) : HeaderName := .ofText header.text

def all : List AuthHeader := [xpub, key, hash, nonce, time, signature]

end AuthHeader

inductive IdentityHeader
  | xpub
  | key
  deriving DecidableEq

def IdentityHeader.toAuthHeader : IdentityHeader → AuthHeader
  | xpub => .xpub
  | key => .key

structure HeaderSet where
  identityHeader : IdentityHeader
  identity : String
  signature : Option SignatureHeaders
  deriving DecidableEq

namespace HeaderSet

def IsSigned (set : HeaderSet) : Prop := set.signature.isSome

instance (set : HeaderSet) : Decidable set.IsSigned :=
  inferInstanceAs (Decidable (set.signature.isSome = true))

def toList (set : HeaderSet) : List (AuthHeader × String) :=
  (set.identityHeader.toAuthHeader, set.identity) ::
    match set.signature with
    | none => []
    | some sig =>
      [(.hash, sig.hash), (.nonce, sig.nonce), (.time, sig.time), (.signature, sig.signature)]

def count (set : HeaderSet) : Nat := if set.IsSigned then 5 else 1

theorem length_toList (set : HeaderSet) : set.toList.length = set.count := by
  obtain ⟨_, _, _ | _⟩ := set <;> rfl

def get? (set : HeaderSet) (name : String) : Option String :=
  (set.toList.find? (fun pair ↦ pair.1.name = .ofText name)).map Prod.snd

def valueComplaint : String := "failed to parse header value"

def checkValue (pair : AuthHeader × String) : Except Failure (HeaderName × String) :=
  if IsValue pair.2 then .ok (pair.1.name, pair.2)
  else .error (.badHeader pair.1.text valueComplaint)

def toHeaders (set : HeaderSet) : Except Failure Headers :=
  Headers.mk <$> set.toList.mapM checkValue

def strip (headers : Headers) : Headers :=
  AuthHeader.all.foldl (fun headers header ↦ headers.remove header.name) headers

/-- Puts the set in the place of all the authenticating headers of a request. All values are checked
before any header goes. -/
def applyTo (set : HeaderSet) (request : Request) : Except Failure Request := do
  let fresh ← set.toHeaders
  return { request with headers := ⟨(strip request.headers).entries ++ fresh.entries⟩ }

open Text in
def describe (set : HeaderSet) : String :=
  record "AuthHeaderSet"
    [field "identity_name" (quoted set.identityHeader.toAuthHeader.text),
      field "identity" (quoted set.identity),
      field "signature" (maybe (set.signature.map (fun sig ↦
        record "SignatureHeaders"
          [field "hash" (quoted sig.hash), field "nonce" (quoted sig.nonce),
            field "time" (quoted sig.time), field "signature" (quoted sig.signature)])))]

end HeaderSet

end RequestAuth
