import RequestAuth.Proofs.KeyText
import RequestAuth.Proofs.SigningMode

namespace RequestAuth

open ExtendedKey

namespace CredentialKind

def preferred : CredentialKind → List CredentialKind
  | xpriv => []
  | xpub => [xpriv]
  | accessKey => [xpriv, xpub]

def route (kind : CredentialKind) (text : String) (signs : Bool) : Credential.Route :=
  match kind with
  | xpriv => .xpriv text signs
  | xpub => .xpub text
  | accessKey => .accessKey text

end CredentialKind

namespace Configuration

def key (configuration : Configuration) : CredentialKind → Option String
  | .xpriv => configuration.xpriv
  | .xpub => configuration.xpub
  | .accessKey => configuration.accessKey

def HasBlank (configuration : Configuration) (kind : CredentialKind) : Prop :=
  ∀ text, configuration.key kind = some text → Text.IsBlank text

structure Chooses (configuration : Configuration) (kind : CredentialKind) (text : String) :
    Prop where
  present : configuration.key kind = some text
  filled : ¬ Text.IsBlank text
  first : ∀ other ∈ kind.preferred, configuration.HasBlank other

theorem not_hasBlank_iff {configuration : Configuration} {kind : CredentialKind} :
    ¬ configuration.HasBlank kind ↔
      ∃ text, configuration.key kind = some text ∧ ¬ Text.IsBlank text := by
  simp only [HasBlank, not_forall, exists_prop]

theorem Chooses.eq {configuration : Configuration} {kind kind' : CredentialKind}
    {text text' : String} (h : configuration.Chooses kind text)
    (h' : configuration.Chooses kind' text') : (kind, text) = (kind', text') := by
  by_cases hkind : kind = kind'
  · subst hkind
    rw [Option.some.inj (h.present.symm.trans h'.present)]
  exfalso
  have hp : kind ∈ kind'.preferred ∨ kind' ∈ kind.preferred := by
    cases kind <;> cases kind' <;> simp [CredentialKind.preferred] at hkind ⊢
  rcases hp with hp | hp
  · exact h.filled (h'.first kind hp text h.present)
  · exact h'.filled (h.first kind' hp text' h'.present)

theorem blank_or_exists_chooses (configuration : Configuration) :
    (∀ kind, configuration.HasBlank kind) ∨ ∃ kind text, configuration.Chooses kind text := by
  by_cases hpriv : configuration.HasBlank .xpriv
  · by_cases hpub : configuration.HasBlank .xpub
    · by_cases haccess : configuration.HasBlank .accessKey
      · left
        intro kind
        cases kind <;> assumption
      · obtain ⟨text, ht, hb⟩ := not_hasBlank_iff.1 haccess
        exact .inr ⟨.accessKey, text, ht, hb, by simp [CredentialKind.preferred, hpriv, hpub]⟩
    · obtain ⟨text, ht, hb⟩ := not_hasBlank_iff.1 hpub
      exact .inr ⟨.xpub, text, ht, hb, by simp [CredentialKind.preferred, hpriv]⟩
  · obtain ⟨text, ht, hb⟩ := not_hasBlank_iff.1 hpriv
    exact .inr ⟨.xpriv, text, ht, hb, by simp [CredentialKind.preferred]⟩

end Configuration

namespace Credential

theorem make_route_congr {kind : CredentialKind} {a b : String} {s s' : Bool}
    (ht : Text.trim a = Text.trim b) (hs : kind = .xpriv → s = s') :
    (kind.route a s).make = (kind.route b s').make := by
  cases kind with
  | xpriv =>
    obtain rfl := hs rfl
    exact congrArg (Functor.map (xpriv · s)) (bind_decodeTrimmed_congr _ ht)
  | xpub => exact congrArg (Functor.map xpub) (bind_decodeTrimmed_congr _ ht)
  | accessKey => exact congrArg (Functor.map accessKey) (AccessKey.ofText_congr ht)

theorem ne_missing_of_make {kind : CredentialKind} {text : String} {signs : Bool}
    {failure : Failure} (hb : ¬ Text.IsBlank text)
    (h : (kind.route text signs).make = .error failure) :
    failure ≠ .noExtendedKey ∧ failure ≠ .noPrivateKey := by
  have hx (malformed : Malformed) : malformed.toFailure ≠ .noExtendedKey ∧
      malformed.toFailure ≠ .noPrivateKey := ⟨nofun, nofun⟩
  cases kind with
  | xpriv => exact (PrivateNode.refuses_of_ofText (eq_error_of_map_eq_error h)).ne_missing hb hx
  | xpub => exact (PublicNode.refuses_of_ofText (eq_error_of_map_eq_error h)).ne_missing hb hx
  | accessKey =>
    exact (AccessKey.refuses_of_ofText (eq_error_of_map_eq_error h)).ne_missing hb
      (fun _ ↦ ⟨nofun, nofun⟩)

end Credential

namespace Client

open CredentialKind

theorem configured_of_not_isBlank {text : String} (h : ¬ Text.IsBlank text) :
    configured (some text) = some (Text.trim text) :=
  Option.filter_some_pos (decide_eq_true h)

theorem configured_of_hasBlank {configuration : Configuration} {kind : CredentialKind}
    (h : configuration.HasBlank kind) : configured (configuration.key kind) = none := by
  cases hk : configuration.key kind with
  | none => rfl
  | some text =>
    have hb : Text.trim text = "" := h text hk
    exact Option.filter_some_neg (by simpa using hb)

/-- Trimming a key twice, on choosing it and on reading it, does no more than trimming it once. -/
theorem resolve_of_chooses {configuration : Configuration} {kind : CredentialKind} {text : String}
    (h : configuration.Chooses kind text) :
    resolve configuration = (kind.route text configuration.signRequest).make := by
  have hk : configured (configuration.key kind) = some (Text.trim text) := by
    rw [h.present, configured_of_not_isBlank h.filled]
  have hp (other : CredentialKind) (ho : other ∈ kind.preferred) :
      configured (configuration.key other) = none := configured_of_hasBlank (h.first other ho)
  have hmake : (kind.route (Text.trim text) configuration.signRequest).make =
      (kind.route text configuration.signRequest).make :=
    Credential.make_route_congr (Text.trim_trim text) (fun _ ↦ rfl)
  rw [← hmake]
  cases kind with
  | xpriv =>
    have hpriv : configured configuration.xpriv = some (Text.trim text) := hk
    rw [resolve, hpriv]
    rfl
  | xpub =>
    have hpriv : configured configuration.xpriv = none := hp .xpriv (by simp [preferred])
    have hpub : configured configuration.xpub = some (Text.trim text) := hk
    rw [resolve, hpriv, hpub]
    rfl
  | accessKey =>
    have hpriv : configured configuration.xpriv = none := hp .xpriv (by simp [preferred])
    have hpub : configured configuration.xpub = none := hp .xpub (by simp [preferred])
    have haccess : configured configuration.accessKey = some (Text.trim text) := hk
    rw [resolve, hpriv, hpub, haccess]
    rfl

theorem resolve_of_hasBlank {configuration : Configuration}
    (h : ∀ kind, configuration.HasBlank kind) : resolve configuration = .error .noKeys := by
  have hpriv : configured configuration.xpriv = none := configured_of_hasBlank (h .xpriv)
  have hpub : configured configuration.xpub = none := configured_of_hasBlank (h .xpub)
  have haccess : configured configuration.accessKey = none := configured_of_hasBlank (h .accessKey)
  rw [resolve, hpriv, hpub, haccess]

theorem ne_missing_of_resolve {configuration : Configuration} {failure : Failure}
    (h : resolve configuration = .error failure) :
    failure ≠ .noExtendedKey ∧ failure ≠ .noPrivateKey := by
  rcases configuration.blank_or_exists_chooses with hb | ⟨kind, text, hc⟩
  · rw [resolve_of_hasBlank hb] at h
    cases h
    exact ⟨nofun, nofun⟩
  · rw [resolve_of_chooses hc] at h
    exact Credential.ne_missing_of_make hc.filled h

/-- The first key that is configured decides, be it malformed, and nothing after it is looked at. -/
theorem ofConfiguration_takes_first (configuration : Configuration) (host : Host) :
    ((∀ kind, configuration.HasBlank kind) →
        ofConfiguration (some configuration) host = (.error .noKeys, host)) ∧
      ((∀ kind, configuration.HasBlank kind) ∨
        ∃! chosen : CredentialKind × String, configuration.Chooses chosen.1 chosen.2) ∧
      (∀ kind text, configuration.Chooses kind text →
        ofConfiguration (some configuration) host =
            opened host (kind.route text configuration.signRequest).make ∧
          ∀ (other : Configuration) (text' : String), other.Chooses kind text' →
            Text.trim text' = Text.trim text →
            (kind = .xpriv → other.signRequest = configuration.signRequest) →
            ofConfiguration (some other) host = ofConfiguration (some configuration) host) ∧
      ∀ (given : Option Configuration) (failure : Failure),
        (ofConfiguration given host).1 = .error failure →
        failure ≠ .noExtendedKey ∧ failure ≠ .noPrivateKey := by
  refine ⟨?_, ?_, ?_, ?_⟩
  · intro h
    rw [ofConfiguration_some, resolve_of_hasBlank h]
    rfl
  · rcases configuration.blank_or_exists_chooses with h | ⟨kind, text, h⟩
    · exact .inl h
    · exact .inr ⟨(kind, text), h, fun _ h' ↦ h'.eq h⟩
  · intro kind text h
    refine ⟨by rw [ofConfiguration_some, resolve_of_chooses h], ?_⟩
    intro other text' h' ht hs
    rw [ofConfiguration_some, ofConfiguration_some, resolve_of_chooses h, resolve_of_chooses h',
      Credential.make_route_congr ht hs]
  · intro given failure h
    cases given with
    | none =>
      cases h
      exact ⟨nofun, nofun⟩
    | some configuration =>
      rw [ofConfiguration_some] at h
      exact ne_missing_of_resolve (eq_error_of_map_eq_error h)

theorem ofConfiguration_takes_first_malformed :
    let configuration : Configuration := ⟨some "\u2003nope\n", some "", some "01", false⟩
    let host : Host := .start ⟨0, 0⟩ (fun _ ↦ .ofNat 24 7)
    configuration.Chooses .xpriv "\u2003nope\n" ∧
      ofConfiguration (some configuration) host =
        (.error (.badExtendedKey "base58 error"), host) := by
  intro configuration host
  have h : configuration.Chooses .xpriv "\u2003nope\n" :=
    ⟨rfl, by decide +kernel, by simp [CredentialKind.preferred]⟩
  have hd : decodeTrimmed "\u2003nope\n" = .error (.badExtendedKey "base58 error") := by
    decide +kernel
  have hn : PrivateNode.ofText "\u2003nope\n" = .error (.badExtendedKey "base58 error") := by
    rw [PrivateNode.ofText, hd]
    rfl
  refine ⟨h, ?_⟩
  rw [((ofConfiguration_takes_first configuration host).2.2.1 _ _ h).1, route,
    Credential.Route.make, Credential.ofXpriv, hn]
  rfl

end Client

end RequestAuth
