import RequestAuth.Client

namespace RequestAuth

open Http

/-- Whatever can put authenticating headers on a request. A credential uses the system's nonces and
the standard layout. One from outside may heed how often such have been used. -/
inductive Authenticator
  | client (client : Client)
  | credential (credential : Credential)
  | shared (inner : Authenticator)
  | custom (stamp : Nat → Request → Except Failure Request)

namespace Authenticator

def refusing (failure : Failure) : Authenticator := custom (fun _ _ ↦ .error failure)

structure Result where
  outcome : Except Failure Request
  host : Host

def authenticate : Authenticator → Request → Host → Result
  | client c, request, host =>
    let built := c.buildFor request.method request.body host
    ⟨built.outcome >>= (·.applyTo request), built.host⟩
  | credential c, request, host =>
    let built := c.buildPlain request.method request.body host
    ⟨built.outcome >>= (·.applyTo request), built.host⟩
  | shared inner, request, host => inner.authenticate request host
  | custom stamp, request, host =>
    ⟨stamp host.uses request, { host with uses := host.uses + 1 }⟩

end Authenticator

end RequestAuth
