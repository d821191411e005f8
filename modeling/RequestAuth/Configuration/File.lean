import RequestAuth.Configuration.Json

namespace RequestAuth.Configuration

inductive FileFault
  | notFound
  | notADirectory
  | isADirectory
  | nameTooLong
  | nullInPath
  | notText
  | other (text : String)

def FileFault.message : FileFault → String
  | notFound => "No such file or directory (os error 2)"
  | notADirectory => "Not a directory (os error 20)"
  | isADirectory => "Is a directory (os error 21)"
  | nameTooLong => "File name too long (os error 36)"
  | nullInPath => "file name contained an unexpected NUL byte"
  | notText => "stream did not contain valid UTF-8"
  | other text => text

abbrev Files := String → Except FileFault Bytes

def readFile (files : Files) (path : String) : Except FileFault String := do
  if path.toList.contains (Char.ofNat 0) then throw .nullInPath
  let bytes ← files path
  match Bytes.toText? bytes with
  | some text => return text
  | none => .error .notText

def ofFile (files : Files) (path : String) : Except Failure Configuration :=
  match readFile files path with
  | .error fault => .error (.badConfiguration (path ++ ": " ++ fault.message))
  | .ok text => ofJson text

end RequestAuth.Configuration
