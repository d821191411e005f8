import Mathlib.Data.List.DropRight
import RequestAuth.AccessKey
import RequestAuth.ExtendedKey.Node
import RequestAuth.Outcome

namespace RequestAuth

namespace Text

theorem dropWhile_trimChars (cs : List Char) :
    (trimChars cs).dropWhile isWhiteSpace = trimChars cs := by
  have hp : trimChars cs <+: cs.dropWhile isWhiteSpace := List.rdropWhile_prefix _ _
  rw [List.dropWhile_eq_self_iff]
  intro hl
  have hd : 0 < (cs.dropWhile isWhiteSpace).length := hl.trans_le hp.length_le
  rw [hp.getElem hl]
  have hi : (cs.dropWhile isWhiteSpace).dropWhile isWhiteSpace = cs.dropWhile isWhiteSpace :=
    List.dropWhile_idempotent _ _
  exact List.dropWhile_eq_self_iff.1 hi hd

theorem trim_trim (text : String) : trim (trim text) = trim text := by
  have hr : (trimChars text.toList).rdropWhile isWhiteSpace = trimChars text.toList :=
    List.rdropWhile_idempotent _ _
  rw [trim, trim, String.toList_ofList]
  refine congrArg String.ofList ?_
  conv_lhs => rw [trimChars, dropWhile_trimChars]
  exact hr

theorem isBlank_congr {a b : String} (h : trim a = trim b) : IsBlank a ↔ IsBlank b := by
  rw [IsBlank, h, IsBlank]

end Text

/-- What a text is turned down for as a key, with the failure for a blank text and those told of the
faults of any other. -/
inductive Refuses {Fault : Type} (missing : Failure) (told : Fault → Failure) (text : String) :
    Failure → Prop
  | blank (h : Text.IsBlank text) : Refuses missing told text missing
  | malformed (h : ¬ Text.IsBlank text) (fault : Fault) : Refuses missing told text (told fault)

namespace Refuses

variable {Fault : Type} {missing failure : Failure} {told : Fault → Failure} {text : String}

theorem ne_missing (h : Refuses missing told text failure) (hb : ¬ Text.IsBlank text)
    (ht : ∀ fault, told fault ≠ .noExtendedKey ∧ told fault ≠ .noPrivateKey) :
    failure ≠ .noExtendedKey ∧ failure ≠ .noPrivateKey := by
  cases h with
  | blank h => exact absurd h hb
  | malformed _ fault => exact ht fault

theorem phase_eq {phase : Phase} (h : Refuses missing told text failure)
    (hm : missing.phase = phase) (ht : ∀ fault, (told fault).phase = phase) :
    failure.phase = phase := by
  cases h with
  | blank => exact hm
  | malformed _ fault => exact ht fault

end Refuses

namespace ExtendedKey

theorem decodeTrimmed_congr {a b : String} (h : Text.trim a = Text.trim b) :
    decodeTrimmed a = decodeTrimmed b := by
  rw [decodeTrimmed, decodeTrimmed, h]
  exact if_congr (Text.isBlank_congr h) rfl rfl

theorem not_isBlank_of_decodeTrimmed {text : String} {payload : Payload}
    (h : decodeTrimmed text = .ok payload) : ¬ Text.IsBlank text := by
  intro hb
  rw [decodeTrimmed, if_pos hb] at h
  cases h

theorem refuses_of_decodeTrimmed {text : String} {failure : Failure}
    (h : decodeTrimmed text = .error failure) :
    Refuses .noExtendedKey Malformed.toFailure text failure := by
  rw [decodeTrimmed] at h
  split at h
  · next hb =>
    cases h
    exact .blank hb
  · next hb =>
    obtain ⟨malformed, -, rfl⟩ := exists_of_mapError_eq_error h
    exact .malformed hb malformed

section Reading

variable {α : Type} {a b text : String} {failure : Failure}

theorem bind_decodeTrimmed_congr (f : Payload → Except Failure α)
    (h : Text.trim a = Text.trim b) : (decodeTrimmed a >>= f) = (decodeTrimmed b >>= f) := by
  rw [decodeTrimmed_congr h]

theorem refuses_of_bind {f : Payload → Except Failure α}
    (hf : ∀ payload own, f payload = .error own → ∃ m : Malformed, m.toFailure = own)
    (h : decodeTrimmed text >>= f = .error failure) :
    Refuses .noExtendedKey Malformed.toFailure text failure := by
  rcases error_of_bind_eq_error h with h | ⟨payload, hp, h⟩
  · exact refuses_of_decodeTrimmed h
  · obtain ⟨malformed, rfl⟩ := hf payload failure h
    exact .malformed (not_isBlank_of_decodeTrimmed hp) malformed

theorem exists_malformed_of_mapError {y : Except Malformed α}
    (h : y.mapError Malformed.toFailure = .error failure) :
    ∃ malformed : Malformed, malformed.toFailure = failure := by
  obtain ⟨malformed, -, hm⟩ := exists_of_mapError_eq_error h
  exact ⟨malformed, hm⟩

theorem refuses_of_ite {IsOwn : Label → Prop} [DecidablePred IsOwn]
    {read : Payload → Except Malformed α} {other : Payload → Malformed}
    (h : (decodeTrimmed text >>= fun payload ↦
      if IsOwn payload.label then (read payload).mapError Malformed.toFailure
      else .error (other payload).toFailure) = .error failure) :
    Refuses .noExtendedKey Malformed.toFailure text failure := by
  refine refuses_of_bind (fun payload own ho ↦ ?_) h
  split at ho
  · exact exists_malformed_of_mapError ho
  · exact ⟨other payload, Except.error.inj ho⟩

theorem PublicNode.refuses_of_ofText (h : PublicNode.ofText text = .error failure) :
    Refuses .noExtendedKey Malformed.toFailure text failure := refuses_of_ite h

theorem PrivateNode.refuses_of_ofText (h : PrivateNode.ofText text = .error failure) :
    Refuses .noExtendedKey Malformed.toFailure text failure := refuses_of_ite h

theorem Node.refuses_of_ofText (h : Node.ofText text = .error failure) :
    Refuses .noExtendedKey Malformed.toFailure text failure := by
  refine refuses_of_bind (fun payload own ho ↦ ?_) h
  split at ho
  · exact exists_malformed_of_mapError (eq_error_of_map_eq_error ho)
  · exact exists_malformed_of_mapError (eq_error_of_map_eq_error ho)

end Reading

end ExtendedKey

namespace AccessKey

theorem ofText_congr {a b : String} (h : Text.trim a = Text.trim b) : ofText a = ofText b := by
  rw [ofText, ofText, h]
  exact if_congr (Text.isBlank_congr h) rfl rfl

theorem exists_of_ofText_eq_error {text : String} {failure : Failure}
    (h : ofText text = .error failure) (hb : ¬ Text.IsBlank text) :
    ∃ wif hex, ofWif (Text.trim text) = .error wif ∧ ofHex (Text.trim text) = .error hex ∧
      failure = .badPrivateKey wif.reason hex.reason := by
  rw [ofText, if_neg hb] at h
  split at h
  · cases h
  · next wif hw =>
    split at h
    · cases h
    · next hex hh =>
      cases h
      exact ⟨wif, hex, hw, hh, rfl⟩

def malformed (faults : WifFault × HexFault) : Failure :=
  .badPrivateKey faults.1.reason faults.2.reason

theorem refuses_of_ofText {text : String} {failure : Failure}
    (h : ofText text = .error failure) : Refuses .noPrivateKey malformed text failure := by
  by_cases hb : Text.IsBlank text
  · rw [ofText, if_pos hb] at h
    cases h
    exact .blank hb
  · obtain ⟨wif, hex, -, -, rfl⟩ := exists_of_ofText_eq_error h hb
    exact .malformed hb (wif, hex)

end AccessKey

end RequestAuth
