import RequestAuth.Configuration
import RequestAuth.Failure
import RequestAuth.Json.Found

namespace RequestAuth.Configuration

open Json

inductive Field
  | xpriv
  | xpub
  | accessKey
  | signRequest
  deriving DecidableEq

namespace Field

def name : Field → String
  | xpriv => "xpriv"
  | xpub => "xpub"
  | accessKey => "access_key"
  | signRequest => "sign_request"

def all : List Field := [xpriv, xpub, accessKey, signRequest]

def ofName? (name : String) : Option Field := all.find? (fun field ↦ field.name = name)

end Field

/-- The fields that have been read. A key that was null has been read. -/
structure Draft where
  xpriv : Option (Option String)
  xpub : Option (Option String)
  accessKey : Option (Option String)
  signRequest : Option Bool

namespace Draft

def empty : Draft := ⟨none, none, none, none⟩

def has (draft : Draft) : Field → Bool
  | .xpriv => draft.xpriv.isSome
  | .xpub => draft.xpub.isSome
  | .accessKey => draft.accessKey.isSome
  | .signRequest => draft.signRequest.isSome

def toConfiguration (draft : Draft) : Configuration where
  xpriv := draft.xpriv.join
  xpub := draft.xpub.join
  accessKey := draft.accessKey.join
  signRequest := draft.signRequest.getD default.signRequest

def readField (draft : Draft) (field : Field) (s : List Char) :
    Except Fault (Draft × List Char) :=
  match field with
  | .xpriv => (readText? s).map (fun p ↦ ({ draft with xpriv := some p.1 }, p.2))
  | .xpub => (readText? s).map (fun p ↦ ({ draft with xpub := some p.1 }, p.2))
  | .accessKey => (readText? s).map (fun p ↦ ({ draft with accessKey := some p.1 }, p.2))
  | .signRequest => (readBoolean s).map (fun p ↦ ({ draft with signRequest := some p.1 }, p.2))

/-- What is left when a repeated name ends the reading: an object that ends there is closed. -/
def afterRepeat (s : List Char) : List Char :=
  match skipSpace s with
  | '\x7d' :: rest => rest
  | rest => rest

def readMember (draft : Draft) (name : String) (s : List Char) :
    Except Fault (Draft × List Char) :=
  match Field.ofName? name with
  | none => (readColon s >>= skipValue).map (draft, ·)
  | some field =>
    if draft.has field then .error (.before (.duplicate name) (afterRepeat s))
    else readColon s >>= draft.readField field

theorem length_readField {draft draft' : Draft} {field : Field} {s rest : List Char}
    (h : draft.readField field s = .ok (draft', rest)) : rest.length ≤ s.length := by
  cases field <;> obtain ⟨p, hp, hq⟩ := exists_of_map_eq_ok h <;> cases hq
  · exact length_readText? hp
  · exact length_readText? hp
  · exact length_readText? hp
  · exact length_readBoolean hp

theorem length_readMember {draft draft' : Draft} {name : String} {s rest : List Char}
    (h : draft.readMember name s = .ok (draft', rest)) : rest.length ≤ s.length := by
  unfold readMember at h
  split at h
  · obtain ⟨after, ha, hq⟩ := exists_of_map_eq_ok h
    cases hq
    cases hc : readColon s with
    | error fault => rw [hc] at ha; cases ha
    | ok value =>
      rw [hc] at ha
      exact Nat.le_trans (length_skipFrom ha) (Nat.le_of_lt (length_readColon hc))
  · split at h
    · cases h
    · cases hc : readColon s with
      | error fault => rw [hc] at h; cases h
      | ok value =>
        rw [hc] at h
        exact Nat.le_trans (length_readField h) (Nat.le_of_lt (length_readColon hc))

def readMembers (draft : Draft) (first : Bool) (s : List Char) :
    Except Fault (Draft × List Char) :=
  match _h : nextName first s with
  | .error fault => .error fault
  | .ok (none, rest) => .ok (draft, rest)
  | .ok (some name, rest) =>
    match _h' : draft.readMember name rest with
    | .error fault => .error fault
    | .ok (draft, rest) => readMembers draft false rest
termination_by s.length
decreasing_by
  exact Nat.lt_of_le_of_lt (length_readMember _h') (length_nextName _h)

def readValues (draft : Draft) (first : Bool) : List Field → List Char →
    Except Fault (Draft × List Char)
  | [], s => (endList s).map (draft, ·)
  | field :: fields, s =>
    match nextValue first s with
    | .error fault => .error fault
    | .ok (false, rest) => .ok (draft, rest)
    | .ok (true, rest) =>
      match draft.readField field rest with
      | .error fault => .error fault
      | .ok (draft, rest) => readValues draft false fields rest

def read (s : List Char) : Except Fault (Draft × List Char) :=
  match readFound (skipSpace s) with
  | .error fault => .error fault
  | .ok (.object, rest) => empty.readMembers true rest.tail
  | .ok (.list, rest) => empty.readValues true Field.all rest.tail
  | .ok (found, rest) => .error (.before (.mismatch found "struct HeaderConfig") rest)

end Draft

def ofChars (s : List Char) : Except Fault Configuration :=
  match Draft.read s with
  | .error fault => .error fault
  | .ok (draft, rest) =>
    match skipSpace rest with
    | [] => .ok draft.toConfiguration
    | rest => .error (.within .trailingCharacters rest)

def ofJson (text : String) : Except Failure Configuration :=
  (ofChars text.toList).mapError (fun fault ↦ .badConfiguration (fault.message text))

def writeMember (field : Field) (value : List Char) : List Char :=
  writeString field.name.toList ++ ':' :: value

def writeFlag (b : Bool) : List Char := (Text.flag b).toList

def writeKey (field : Field) (key : Option String) : List (List Char) :=
  (key.map (fun text ↦ writeMember field (writeString text.toList))).toList

def members (configuration : Configuration) : List (List Char) :=
  writeKey .xpriv configuration.xpriv ++ writeKey .xpub configuration.xpub ++
    writeKey .accessKey configuration.accessKey ++
    [writeMember .signRequest (writeFlag configuration.signRequest)]

def toChars (configuration : Configuration) : List Char :=
  '\x7b' :: [','].intercalate configuration.members ++ ['\x7d']

def toJson (configuration : Configuration) : String := String.ofList configuration.toChars

end RequestAuth.Configuration
