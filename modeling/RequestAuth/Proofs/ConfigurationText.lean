import RequestAuth.Configuration.File
import RequestAuth.Proofs.JsonObject

namespace RequestAuth

open Json

namespace Configuration

theorem Field.ofName?_name (field : Field) : ofName? field.name = some field := by
  cases field <;> decide

namespace Draft

variable {draft draft' : Draft} {first : Bool} {s after rest : List Char}

theorem readMembers_of_none (h : nextName first s = .ok (none, rest)) :
    draft.readMembers first s = .ok (draft, rest) := by
  rw [readMembers]
  split
  · next hn => cases h.symm.trans hn
  · next hn =>
    cases h.symm.trans hn
    rfl
  · next hn => cases h.symm.trans hn

theorem readMembers_of_some {name : String} (h : nextName first s = .ok (some name, after))
    (hm : draft.readMember name after = .ok (draft', rest)) :
    draft.readMembers first s = draft'.readMembers false rest := by
  rw [readMembers]
  split
  · next hn => cases h.symm.trans hn
  · next hn => cases h.symm.trans hn
  · next hn =>
    cases h.symm.trans hn
    split
    · next hv => cases hm.symm.trans hv
    · next hv =>
      cases hm.symm.trans hv
      rfl

/-- A member is read to its end, whatever follows it. -/
def Takes (draft : Draft) (member : List Char) (draft' : Draft) : Prop :=
  ∃ name value, member = writeString name.toList ++ value ∧
    ∀ rest, draft.readMember name (value ++ rest) = .ok (draft', rest)

inductive Fills : Draft → List (List Char) → Draft → Prop
  | nil (draft : Draft) : Fills draft [] draft
  | cons {draft next draft' : Draft} {member : List Char} {members : List (List Char)}
      (take : draft.Takes member next) (fill : Fills next members draft') :
      Fills draft (member :: members) draft'

theorem Fills.append {middle : Draft} {left right : List (List Char)} (h : Fills draft left middle)
    (h' : Fills middle right draft') : Fills draft (left ++ right) draft' := by
  induction h with
  | nil draft => exact h'
  | cons take fill ih => exact .cons take (ih h')

theorem Takes.readMembers {member : List Char} (h : draft.Takes member draft') (rest : List Char) :
    draft.readMembers true (member ++ rest) = draft'.readMembers false rest ∧
      draft.readMembers false (',' :: (member ++ rest)) = draft'.readMembers false rest := by
  obtain ⟨name, value, rfl, hm⟩ := h
  obtain ⟨htrue, hfalse⟩ := nextName_written (skipSpace_writeString name.toList (value ++ rest))
  rw [List.append_assoc]
  exact ⟨readMembers_of_some htrue (hm rest), readMembers_of_some hfalse (hm rest)⟩

theorem Fills.readMembers {members : List (List Char)} (h : Fills draft members draft')
    (rest : List Char) :
    draft.readMembers false (members.flatMap (',' :: ·) ++ '\x7d' :: rest) =
      .ok (draft', rest) := by
  induction h with
  | nil draft => exact readMembers_of_none rfl
  | cons take fill ih =>
    rw [List.flatMap_cons, List.append_assoc, List.cons_append, (take.readMembers _).2, ih]

theorem Fills.readMembers_object {members : List (List Char)} (h : Fills draft members draft')
    (rest : List Char) :
    draft.readMembers true ([','].intercalate members ++ '\x7d' :: rest) = .ok (draft', rest) := by
  cases h with
  | nil => exact readMembers_of_none rfl
  | cons take fill =>
    rw [intercalate_cons, List.append_assoc, (take.readMembers _).1]
    exact fill.readMembers rest

end Draft

section Write

variable {draft draft' : Draft} {field : Field} {value : List Char}

theorem takes_writeMember (hh : draft.has field = false)
    (hv : ∀ rest, draft.readField field (value ++ rest) = .ok (draft', rest)) :
    draft.Takes (writeMember field value) draft' := by
  refine ⟨field.name, ':' :: value, rfl, fun rest ↦ ?_⟩
  rw [Draft.readMember, field.ofName?_name]
  simp only [hh, Bool.false_eq_true, if_false]
  exact hv rest

theorem fills_writeKey (field : Field) (put : Option (Option String) → Draft)
    (hh : (put none).has field = false)
    (hr : ∀ s, (put none).readField field s = (readText? s).map (fun p ↦ (put (some p.1), p.2)))
    (key : Option String) : (put none).Fills (writeKey field key) (put (key.map some)) := by
  cases key with
  | none => exact .nil (put none)
  | some text =>
    refine .cons (takes_writeMember hh fun rest ↦ ?_) (.nil _)
    rw [hr, readText?_written (skipSpace_writeString text.toList rest)]
    rfl

theorem readBoolean_writeFlag (b : Bool) (rest : List Char) :
    readBoolean (writeFlag b ++ rest) = .ok (b, rest) := by
  cases b <;> rfl

end Write

def draft (configuration : Configuration) : Draft :=
  ⟨configuration.xpriv.map some, configuration.xpub.map some, configuration.accessKey.map some,
    some configuration.signRequest⟩

theorem toConfiguration_draft (configuration : Configuration) :
    configuration.draft.toConfiguration = configuration := by
  obtain ⟨xpriv, xpub, accessKey, signRequest⟩ := configuration
  cases xpriv <;> cases xpub <;> cases accessKey <;> rfl

theorem fills_members (configuration : Configuration) :
    Draft.empty.Fills configuration.members configuration.draft := by
  obtain ⟨xpriv, xpub, accessKey, signRequest⟩ := configuration
  have hpriv := fills_writeKey .xpriv (⟨·, none, none, none⟩) rfl (fun _ ↦ rfl) xpriv
  have hpub := fills_writeKey .xpub (⟨xpriv.map some, ·, none, none⟩) rfl (fun _ ↦ rfl) xpub
  have hkey := fills_writeKey .accessKey (⟨xpriv.map some, xpub.map some, ·, none⟩) rfl
    (fun _ ↦ rfl) accessKey
  have hsign : Draft.Takes ⟨xpriv.map some, xpub.map some, accessKey.map some, none⟩
      (writeMember .signRequest (writeFlag signRequest))
      ⟨xpriv.map some, xpub.map some, accessKey.map some, some signRequest⟩ :=
    takes_writeMember rfl fun rest ↦ by
      rw [Draft.readField, readBoolean_writeFlag]
      rfl
  exact ((hpriv.append hpub).append hkey).append (.cons hsign (.nil _))

theorem read_toChars (configuration : Configuration) :
    Draft.read configuration.toChars = .ok (configuration.draft, []) := by
  have hf : readFound (skipSpace configuration.toChars) = .ok (.object, configuration.toChars) :=
    rfl
  rw [Draft.read, hf]
  exact configuration.fills_members.readMembers_object []

theorem ofChars_toChars (configuration : Configuration) :
    ofChars configuration.toChars = .ok configuration := by
  rw [ofChars, read_toChars]
  exact congrArg Except.ok configuration.toConfiguration_draft

theorem ofJson_toJson (configuration : Configuration) :
    ofJson configuration.toJson = .ok configuration := by
  rw [ofJson, toJson, String.toList_ofList, ofChars_toChars]
  rfl

theorem readFile_of_text {files : Files} {path text : String} (hp : Char.ofNat 0 ∉ path.toList)
    (hf : files path = .ok (Bytes.ofText text)) : readFile files path = .ok text := by
  rw [readFile, if_neg (by simpa using hp), hf]
  simp only [bind, Except.bind, Bytes.toText?_ofText]
  rfl

/-- A configuration is read from the text that is written for it, and from a file of that text. A
path with a NUL in it names no file. -/
theorem json_round_trips (configuration : Configuration) :
    ofJson configuration.toJson = .ok configuration ∧
      ∀ (files : Files) (path : String), Char.ofNat 0 ∉ path.toList →
        files path = .ok (Bytes.ofText configuration.toJson) →
          ofFile files path = .ok configuration := by
  refine ⟨configuration.ofJson_toJson, fun files path hp hf ↦ ?_⟩
  rw [ofFile, readFile_of_text hp hf]
  exact configuration.ofJson_toJson

end Configuration

end RequestAuth
