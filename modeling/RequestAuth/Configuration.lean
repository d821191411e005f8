import RequestAuth.Text.Record

namespace RequestAuth

structure Configuration where
  xpriv : Option String
  xpub : Option String
  accessKey : Option String
  /-- Whether an extended private key signs. -/
  signRequest : Bool
  deriving DecidableEq

namespace Configuration

def default : Configuration := ⟨none, none, none, true⟩

def ofXpriv (text : String) : Configuration := { default with xpriv := some text }

def ofXpub (text : String) : Configuration := { default with xpub := some text }

def ofAccessKey (text : String) : Configuration := { default with accessKey := some text }

def hasKey (configuration : Configuration) : Bool :=
  configuration.xpriv.isSome || configuration.xpub.isSome || configuration.accessKey.isSome

open Text in
def describe (configuration : Configuration) : String :=
  let hidden (key : Option String) := maybe (key.map (fun _ ↦ quoted "<redacted>"))
  record "HeaderConfig"
    [field "xpriv" (hidden configuration.xpriv),
      field "xpub" (maybe (configuration.xpub.map quoted)),
      field "access_key" (hidden configuration.accessKey),
      field "sign_request" (flag configuration.signRequest)]

end Configuration

end RequestAuth
