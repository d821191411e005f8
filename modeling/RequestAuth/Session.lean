import RequestAuth.Authenticator
import RequestAuth.Copies

namespace RequestAuth

open Http

/-- A client at work and copies of it, with the header sets that were built, the latest first, and
the request that is about to be sent. -/
structure Session where
  clients : Copies Client
  host : Host
  sets : List HeaderSet
  request : Request

namespace Session

inductive Via
  | client
  | shared
  | credential
  | refusing (failure : Failure)

inductive Step
  | build (body : String)
  | buildWithoutBody
  | buildFor (method : Method) (body : Bytes)
  | credentialHeaders (method : Method) (body : Bytes)
  | replaceRequest (request : Request)
  | authenticate (via : Via)
  /-- Puts a kept set on the request; the latest one has place zero. -/
  | apply (place : Nat)
  /-- Sets aside a clone of the client or a shared reference to it. -/
  | copy
  | turnTo (place : Nat)
  | addSource (source : NonceSource)
  | useSource (place : Option Nat)
  | useCanonicalizer (canonicalizer : Canonicalizer)
  | setClock (now : Instant)

inductive Answer
  | built (set : HeaderSet)
  | done
  | failed (failure : Failure)
  | noSet

def start (client : Client) (host : Host) : Session := ⟨.one client, host, [], .blank⟩

def client (session : Session) : Client := session.clients.current

def keep (session : Session) : Except Failure HeaderSet → Answer × Session
  | .ok set => (.built set, { session with sets := set :: session.sets })
  | .error failure => (.failed failure, session)

def send (session : Session) : Except Failure Request → Answer × Session
  | .ok request => (.done, { session with request })
  | .error failure => (.failed failure, session)

def ofBuilt (session : Session) (built : Built) : Answer × Session :=
  { session with host := built.host }.keep built.outcome

def authenticator (session : Session) : Via → Authenticator
  | .client => .client session.client
  | .shared => .shared (.client session.client)
  | .credential => .credential session.client.credential
  | .refusing failure => .refusing failure

def step (session : Session) : Step → Answer × Session
  | .build body => session.ofBuilt (session.client.build body session.host)
  | .buildWithoutBody => session.ofBuilt (session.client.buildWithoutBody session.host)
  | .buildFor method body => session.ofBuilt (session.client.buildFor method body session.host)
  | .credentialHeaders method body =>
    session.ofBuilt (session.client.credential.buildPlain method body session.host)
  | .replaceRequest request => (.done, { session with request })
  | .authenticate via =>
    let result := (session.authenticator via).authenticate session.request session.host
    { session with host := result.host }.send result.outcome
  | .apply place =>
    match session.sets[place]? with
    | none => (.noSet, session)
    | some set => session.send (set.applyTo session.request)
  | .copy => (.done, { session with clients := session.clients.copy })
  | .turnTo place => (.done, { session with clients := session.clients.turnTo place })
  | .addSource source => (.done, { session with host := session.host.addSource source })
  | .useSource place =>
    (.done, { session with clients := session.clients.modify (·.withSource place) })
  | .useCanonicalizer canonicalizer =>
    (.done, { session with clients := session.clients.modify (·.withCanonicalizer canonicalizer) })
  | .setClock now => (.done, { session with host := { session.host with now } })

def run (session : Session) : List Step → List Answer × Session
  | [] => ([], session)
  | first :: rest =>
    let (answer, session) := session.step first
    let (answers, session) := session.run rest
    (answer :: answers, session)

end Session

end RequestAuth
