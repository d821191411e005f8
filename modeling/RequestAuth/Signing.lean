import RequestAuth.Failure
import RequestAuth.Hex
import RequestAuth.Http.Method
import RequestAuth.Secp256k1.Signature

namespace RequestAuth

open Secp256k1

structure SigningContext where
  body : Bytes
  nonce : String
  time : UInt64
  deriving DecidableEq

namespace SigningContext

def ofParts (method : Http.Method) (body : Bytes) (nonce : String) (time : UInt64) :
    SigningContext :=
  ⟨method.effectiveBody body, nonce, time⟩

def timeText (context : SigningContext) : String := context.time.toNat.repr

end SigningContext

structure CanonicalPayload where
  bodyHash : String
  message : Bytes
  digest : Bytes
  deriving DecidableEq

structure Canonicalizer where
  name : String
  canonicalize : String → SigningContext → Except Failure CanonicalPayload

namespace Canonicalizer

def bodyHash (context : SigningContext) : String := Hex.encode (Sha256.hash context.body)

def standardMessage (identity : String) (context : SigningContext) : String :=
  identity ++ bodyHash context ++ context.nonce ++ context.timeText

def standardPayload (identity : String) (context : SigningContext) : CanonicalPayload :=
  let message := Bytes.ofText (standardMessage identity context)
  ⟨bodyHash context, message, Sha256.hash message⟩

theorem digest_standardPayload (identity : String) (context : SigningContext) :
    (standardPayload identity context).digest = Sha256.hash (Bytes.ofText
      (identity ++ Hex.encode (Sha256.hash context.body) ++ context.nonce ++
        context.time.toNat.repr)) := rfl

/-- Identity, hash of the body, nonce and time, one behind the other. -/
def standard : Canonicalizer where
  name := "sha256"
  canonicalize identity context := .ok (standardPayload identity context)

def fixed (name : String) (payload : CanonicalPayload) : Canonicalizer :=
  ⟨name, fun _ _ ↦ .ok payload⟩

def failing (name : String) (failure : Failure) : Canonicalizer := ⟨name, fun _ _ ↦ .error failure⟩

end Canonicalizer

abbrev Signer := Bytes → Except Failure Bytes

namespace Signer

def refusal : Failure := .signing "secp256k1 sign_prehash failed: signature error"

/-- The bytes of a signature whose `s` is in the lower half, whatever half `sign` leaves it in. -/
def ofSecret (secret : Scalar) : Signer := fun digest ↦
  match sign secret digest with
  | some sig => .ok sig.normalize.toBytes
  | none => .error refusal

section OfSecret

variable {secret : Scalar} {digest : Bytes}

theorem ofSecret_of_sign {sig : Signature} (h : sign secret digest = some sig) :
    ofSecret secret digest = .ok sig.toBytes := by
  rw [ofSecret, h]
  simp only [normalize_of_sign h]

theorem ofSecret_of_sign_none (h : sign secret digest = none) :
    ofSecret secret digest = .error refusal := by
  rw [ofSecret, h]

end OfSecret

end Signer

structure SignatureHeaders where
  hash : String
  nonce : String
  time : String
  signature : String
  deriving DecidableEq

def signContext (identity : String) (context : SigningContext) (canonicalizer : Canonicalizer)
    (signer : Signer) : Except Failure SignatureHeaders := do
  let payload ← canonicalizer.canonicalize identity context
  let signature ← signer payload.digest
  return ⟨payload.bodyHash, context.nonce, context.timeText, Hex.encode signature⟩

end RequestAuth
