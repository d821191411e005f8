namespace RequestAuth.Http

structure Uri where
  scheme : Option String
  authority : String
  path : String
  query : Option String
  deriving DecidableEq

namespace Uri

def root : Uri := ⟨none, "", "/", none⟩

def text (uri : Uri) : String :=
  (uri.scheme.map (· ++ "://")).getD "" ++ uri.authority ++ uri.path ++
    (uri.query.map ("?" ++ ·)).getD ""

def isSchemeChar (c : Char) : Bool := c.isAlphanum || "+-.~".toList.contains c

def isAuthorityChar (c : Char) : Bool := c.isAlphanum || "!$&'()*+,-.;=_~".toList.contains c

def isPathChar (c : Char) : Bool := 32 < c.toNat && !"#<>?`".toList.contains c

def isQueryChar (c : Char) : Bool := 32 < c.toNat && !"\"#<>".toList.contains c

def maxSchemeLength : Nat := 64

def maxLength : Nat := 65534

def schemeText (name : List Char) : String :=
  let lower := String.ofList (name.map Char.toLower)
  if lower = "http" ∨ lower = "https" then lower else String.ofList name

def splitScheme? (s : List Char) : Option (List Char × List Char) :=
  match s.span isSchemeChar with
  | (name, ':' :: '/' :: '/' :: rest) => some (name, rest)
  | _ => none

/-- What has been seen of an authority. An at sign starts the colons and percent signs afresh, and
so does the bracket behind an address. -/
structure Scan where
  colons : Nat
  percent : Bool
  opened : Bool
  closed : Bool

namespace Scan

def start : Scan := ⟨0, false, false, false⟩

def next? (scan : Scan) (c : Char) : Option Scan :=
  if c = ':' then if scan.colons < 8 then some { scan with colons := scan.colons + 1 } else none
  else if c = '[' then
    if scan.percent || scan.opened then none else some { scan with opened := true }
  else if c = ']' then
    if scan.opened && !scan.closed then some ⟨0, false, true, true⟩ else none
  else if c = '@' then some { scan with colons := 0, percent := false }
  else if c = '%' then some { scan with percent := true }
  else if isAuthorityChar c then some scan
  else none

def done (scan : Scan) : Bool :=
  scan.opened == scan.closed && scan.colons ≤ 1 && !scan.percent

end Scan

/-- Percent signs are for user names only, and so is an at sign, with a host behind it. -/
def isAuthority (s : List Char) : Bool :=
  (s.foldlM Scan.next? Scan.start).any Scan.done && s.getLast?.any (· ≠ '@')

def splitPath? (s : List Char) : Option (List Char × Option (List Char)) :=
  match (s.takeWhile (· ≠ '#')).span (· ≠ '?') with
  | (path, []) => if path.all isPathChar then some (path, none) else none
  | (path, _ :: query) =>
    if path.all isPathChar && query.all isQueryChar then some (path, some query) else none

def ofAbsolute? (scheme s : List Char) : Option Uri :=
  let (authority, rest) := s.span (fun c ↦ c ≠ '/' && c ≠ '?' && c ≠ '#')
  if isAuthority authority && scheme.length ≤ maxSchemeLength then
    (splitPath? rest).map (fun (path, query) ↦
      ⟨some (schemeText scheme), String.ofList authority,
        if path = [] then "/" else String.ofList path, query.map String.ofList⟩)
  else none

/-- A path, an asterisk, an authority on its own, or all of it behind a scheme. -/
def ofChars? (s : List Char) : Option Uri :=
  match s with
  | '/' :: _ =>
    (splitPath? s).map (fun (path, query) ↦
      ⟨none, "", String.ofList path, query.map String.ofList⟩)
  | ['*'] => some ⟨none, "", "*", none⟩
  | _ =>
    match splitScheme? s with
    | some (scheme, rest) => ofAbsolute? scheme rest
    | none => if isAuthority s then some ⟨none, String.ofList s, "", none⟩ else none

def ofText? (text : String) : Option Uri :=
  if maxLength < text.utf8ByteSize then none else ofChars? text.toList

end Uri

end RequestAuth.Http
