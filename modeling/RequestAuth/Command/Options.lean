namespace RequestAuth.Command

inductive Setting
  | config
  | xpriv
  | xpub
  | accessKey
  | signRequest
  | method
  | body
  deriving DecidableEq

namespace Setting

def all : List Setting := [config, xpriv, xpub, accessKey, signRequest, method, body]

def name : Setting → String
  | config => "config"
  | xpriv => "xpriv"
  | xpub => "xpub"
  | accessKey => "access-key"
  | signRequest => "sign-request"
  | method => "method"
  | body => "body"

def variableName : Setting → Option String
  | config => some "WALLET_AUTH_CONFIG"
  | xpriv => some "WALLET_XPRIV"
  | xpub => some "WALLET_XPUB"
  | accessKey => some "WALLET_ACCESS_KEY"
  | signRequest => some "WALLET_SIGN_REQUEST"
  | method | body => none

def ofName? (name : List Char) : Option Setting :=
  all.find? (fun setting ↦ setting.name.toList = name)

end Setting

inductive Word
  | verbose
  | setting (setting : Setting)
  | assignment (setting : Setting) (value : String)

def verboseName : String := "verbose"

def Word.ofLong? (text : List Char) : Option Word :=
  match text.span (· ≠ '=') with
  | (name, []) =>
    if name = verboseName.toList then some verbose else (Setting.ofName? name).map setting
  | (name, _ :: value) => (Setting.ofName? name).map (assignment · (String.ofList value))

def Word.ofArgument? (argument : String) : Option Word :=
  match argument.toList with
  | '-' :: '-' :: text => ofLong? text
  | text => if text = ['-', 'v'] then some verbose else none

/-- Whether an argument can be the value of the option before it: a hyphen can, but nothing longer
that begins with one. -/
def isValue (argument : String) : Bool :=
  argument = "-" || argument.toList.head? ≠ some '-'

structure Given where
  values : List (Setting × String)
  verbose : Bool

namespace Given

def empty : Given := ⟨[], false⟩

def value? (given : Given) (setting : Setting) : Option String := given.values.lookup setting

def set? (given : Given) (setting : Setting) (value : String) : Option Given :=
  if (given.value? setting).isSome then none
  else some { given with values := given.values ++ [(setting, value)] }

def setVerbose? (given : Given) : Option Given :=
  if given.verbose then none else some { given with verbose := true }

def take? (given : Given) : List String → Option Given
  | [] => some given
  | argument :: rest =>
    if argument = "--" then if rest = [] then some given else none
    else
      match Word.ofArgument? argument, rest with
      | some .verbose, rest => given.setVerbose?.bind (·.take? rest)
      | some (.assignment setting value), rest => (given.set? setting value).bind (·.take? rest)
      | some (.setting setting), value :: rest =>
        if isValue value then (given.set? setting value).bind (·.take? rest) else none
      | _, _ => none

end Given

abbrev Environment := String → Option String

structure Options where
  config : Option String
  xpriv : Option String
  xpub : Option String
  accessKey : Option String
  signRequest : Option Bool
  method : String
  body : String
  verbose : Bool

namespace Options

def flag? (text : String) : Option Bool :=
  if text = "true" then some true else if text = "false" then some false else none

/-- The value of a setting, which a variable gives only if no option does. -/
def effective (given : Given) (environment : Environment) (setting : Setting) : Option String :=
  (given.value? setting).or (setting.variableName.bind environment)

def ofGiven? (given : Given) (environment : Environment) : Option Options := do
  let value := effective given environment
  let signRequest ← match value .signRequest with
    | none => some none
    | some text => (flag? text).map some
  if value .config = some "" then none
  else
    return {
      config := value .config
      xpriv := value .xpriv
      xpub := value .xpub
      accessKey := value .accessKey
      signRequest
      method := (value .method).getD "GET"
      body := (value .body).getD ""
      verbose := given.verbose }

def parse? (arguments : List String) (environment : Environment) : Option Options :=
  (Given.empty.take? arguments).bind (ofGiven? · environment)

end Options

end RequestAuth.Command
