import RequestAuth.HeaderSet
import RequestAuth.ExtendedKey.Node

namespace RequestAuth.Verifier

open ExtendedKey Secp256k1

def publicKey? (header : IdentityHeader) (identity : String) : Option PublicKey :=
  match header with
  | .xpub => (PublicNode.ofText identity).toOption.map PublicNode.key
  | .key => (Hex.decode identity).toOption.bind PublicKey.ofCompressed?

def unsigned (text : String) : List Char :=
  match text.toList with
  | '+' :: rest => rest
  | chars => chars

def time? (text : String) : Option UInt64 :=
  let digits := unsigned text
  let n := Nat.ofDigitChars 10 digits 0
  if digits ≠ [] ∧ digits.all Char.isDigit ∧ n < UInt64.size then some (UInt64.ofNat n) else none

/-- What a server makes of a header set and the request that it came with, if it can read the set.
It sees nothing but the headers, the method and the body. -/
def verdict? (set : HeaderSet) (method : Http.Method) (body : Bytes) : Option Bool := do
  let sig ← set.signature
  let time ← time? sig.time
  let payload := Canonicalizer.standardPayload set.identity (.ofParts method body sig.nonce time)
  let key ← publicKey? set.identityHeader set.identity
  let signature ← (Hex.decode sig.signature).toOption.bind Signature.ofBytes?
  return payload.bodyHash == sig.hash && verify key payload.digest signature

def accepts (set : HeaderSet) (method : Http.Method) (body : Bytes) : Bool :=
  (verdict? set method body).getD false

end RequestAuth.Verifier
