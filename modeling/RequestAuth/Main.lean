import RequestAuth.Command.Run
import Std.Time.DateTime

namespace RequestAuth

open Command RequestAuth.Configuration

def readClock : IO Instant := do
  let nanoseconds := (← Std.Time.Timestamp.now).toNanosecondsSinceUnixEpoch.toInt
  return ⟨nanoseconds / 1000000000, (nanoseconds % 1000000000).toNat⟩

def nameTooLongNumber : UInt32 := 36

/-- Opening gives an error's number with its sign turned, and reading gives it as it is. -/
def faultOfError : IO.Error → FileFault
  | .noFileOrDirectory .. => .notFound
  | .inappropriateType _ 21 _ => .isADirectory
  | .inappropriateType .. => .notADirectory
  | error@(.invalidArgument _ number _) =>
    if number = nameTooLongNumber || number = 0 - nameTooLongNumber then .nameTooLong
    else .other (toString error)
  | error => .other (toString error)

def readFiles (options : Option Options) : IO Files := do
  match options.bind Options.config with
  | none => return fun _ ↦ .error .notFound
  | some path =>
    try
      let content ← IO.FS.readBinFile path
      return fun _ ↦ .ok content.data.toList
    catch error => return fun _ ↦ .error (faultOfError error)

def readEnvironment : IO Environment := do
  let pairs ← (Setting.all.filterMap Setting.variableName).mapM (fun name ↦ do
    return (name, ← IO.getEnv name))
  return fun name ↦ (pairs.lookup name).join

def levelText : Level → String
  | .debug => "DEBUG"
  | .info => "INFO"
  | .warn => "WARN"

def eventText (event : Event) : String :=
  event.fields.foldl (fun text pair ↦ text ++ " " ++ pair.1 ++ "=" ++ pair.2)
    (levelText event.level ++ " " ++ event.message)

def printLog (verbose : Bool) (host : Host) : IO Unit :=
  for event in host.log do
    if verbose || event.level ≠ .debug then IO.eprintln (eventText event)

end RequestAuth

open RequestAuth Command in
def main (arguments : List String) : IO UInt32 := do
  let environment ← readEnvironment
  let options := Options.parse? arguments environment
  let files ← readFiles options
  let random ← IO.getRandomBytes 24
  let host := Host.start (← readClock) (fun _ ↦ Block.take 24 random.data.toList)
  let (outcome, host) := run arguments environment files host
  printLog (options.any Options.verbose) host
  IO.eprint outcome.standardError
  IO.print outcome.standardOutput
  return outcome.status
