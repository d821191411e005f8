import RequestAuth.Client
import RequestAuth.Command.Options
import RequestAuth.Configuration.File

namespace RequestAuth.Command

open RequestAuth.Configuration

/-- The keys of the options, if there is one, or else those of the file. An option tells whether to
sign if it is there. -/
def merge (options : Options) (file : Configuration) : Configuration :=
  let keys : Configuration :=
    if options.xpriv.isSome || options.xpub.isSome || options.accessKey.isSome then
      { file with xpriv := options.xpriv, xpub := options.xpub, accessKey := options.accessKey }
    else file
  { keys with signRequest := options.signRequest.getD file.signRequest }

inductive Trouble
  | loading (path : String) (failure : Failure)
  | building (failure : Failure)
  | method (text : String)
  | authenticating (failure : Failure)

namespace Trouble

def context : Trouble → String
  | loading path _ => "loading " ++ path
  | building _ => "building header builder"
  | method text => "invalid HTTP method " ++ Text.quoted text
  | authenticating _ => "authenticating request"

def cause : Trouble → String
  | loading _ failure | building failure | authenticating failure => failure.message
  | method _ => Http.Method.complaint

def indent (text : String) : String :=
  String.ofList (("    " ++ text).toList.flatMap
    (fun c ↦ if c = '\n' then "\n    ".toList else [c]))

def report (trouble : Trouble) : String :=
  trouble.context ++ "\n\nCaused by:\n" ++ indent trouble.cause

end Trouble

def load (files : Files) : Option String → Except Trouble Configuration
  | none => .ok default
  | some path => (ofFile files path).mapError (.loading path)

def methodOf (text : String) : Except Trouble Http.Method :=
  match Http.Method.ofText? (text.map Char.toUpper) with
  | some method => .ok method
  | none => .error (.method text)

def replacementEvent : Event := ⟨.debug, "key flags replace keys from the config file", []⟩

def headersEvent (credential : Credential) (set : HeaderSet) : Event :=
  ⟨.info, "built headers",
    [("credential", credential.kind.text), ("signed", Text.flag set.IsSigned)]⟩

def headers (options : Options) (files : Files) (host : Host) :
    Except Trouble HeaderSet × Host :=
  match load files options.config with
  | .error trouble => (.error trouble, host)
  | .ok file =>
    let replaced := file.hasKey &&
      (options.xpriv.isSome || options.xpub.isSome || options.accessKey.isSome)
    let host := if replaced then host.record replacementEvent else host
    match Client.ofConfiguration (merge options file) host with
    | (.error failure, host) => (.error (.building failure), host)
    | (.ok client, host) =>
      match methodOf options.method with
      | .error trouble => (.error trouble, host)
      | .ok method =>
        let result := client.buildFor method (Bytes.ofText options.body) host
        match result.outcome with
        | .error failure => (.error (.authenticating failure), result.host)
        | .ok set => (.ok set, result.host.record (headersEvent client.credential set))

def member (pair : String × String) : String :=
  String.ofList ("  ".toList ++ Json.writeString pair.1.toList ++ ": ".toList ++
    Json.writeString pair.2.toList)

def objectText (pairs : List (String × String)) : String :=
  let sorted := pairs.mergeSort (fun a b ↦ decide (a.1 ≤ b.1))
  "\x7b\n" ++ ",\n".intercalate (sorted.map member) ++ "\n\x7d\n"

def output (set : HeaderSet) : String :=
  objectText (set.toList.map (fun pair ↦ (pair.1.text, pair.2)))

inductive Outcome
  | misused
  | failed (trouble : Trouble)
  | printed (set : HeaderSet)

namespace Outcome

def status : Outcome → UInt32
  | printed _ => 0
  | failed _ => 1
  | misused => 2

def standardOutput : Outcome → String
  | printed set => output set
  | _ => ""

def standardError : Outcome → String
  | misused => "error: the arguments are not understood\n"
  | failed trouble => "Error: " ++ trouble.report ++ "\n"
  | printed _ => ""

end Outcome

def run (arguments : List String) (environment : Environment) (files : Files)
    (host : Host) : Outcome × Host :=
  match Options.parse? arguments environment with
  | none => (.misused, host)
  | some options =>
    match headers options files host with
    | (.ok set, host) => (.printed set, host)
    | (.error trouble, host) => (.failed trouble, host)

end RequestAuth.Command
