import RequestAuth.Proofs.Neutering

namespace RequestAuth

open ExtendedKey

namespace ExtendedKey

variable {text : String}

theorem PrivateNode.ofText_ne_ok_of_public {node : PublicNode}
    (h : PublicNode.ofText text = .ok node) (other : PrivateNode) : ofText text ≠ .ok other := by
  intro ho
  obtain ⟨payload, hp, hof⟩ := PublicNode.ofText_eq_ok_iff.1 h
  obtain ⟨payload', hp', hof'⟩ := ofText_eq_ok_iff.1 ho
  obtain rfl := Except.ok.inj (hp.symm.trans hp')
  exact payload.label.not_isPublic_and_isPrivate
    ⟨(PublicNode.ofPayload_eq_ok_iff.1 hof).1, (ofPayload_eq_ok_iff.1 hof').1⟩

namespace Node

theorem ofText_of_public {node : PublicNode} (h : PublicNode.ofText text = .ok node) :
    ofText text = .ok (.pub node) := by
  obtain ⟨payload, hp, hof⟩ := PublicNode.ofText_eq_ok_iff.1 h
  have hpublic := (PublicNode.ofPayload_eq_ok_iff.1 hof).1
  have hprivate : ¬ payload.label.IsPrivate := fun hprivate ↦
    payload.label.not_isPublic_and_isPrivate ⟨hpublic, hprivate⟩
  rw [ofText, decodeTrimmed_eq_ok_iff.2 hp]
  simp only [bind, Except.bind, if_neg hprivate, hof]
  rfl

/-- What is read was read as a payload, and by the reader for its kind. -/
theorem exists_of_ofText {read : Node} (h : ofText text = .ok read) :
    (∃ node, read = .priv node ∧ PrivateNode.ofText text = .ok node) ∨
      ∃ node, read = .pub node ∧ PublicNode.ofText text = .ok node := by
  obtain ⟨payload, hp, h⟩ := exists_of_bind_eq_ok h
  rw [decodeTrimmed_eq_ok_iff] at hp
  split at h
  · obtain ⟨node, hof, rfl⟩ := exists_of_map_eq_ok h
    exact .inl ⟨node, rfl, PrivateNode.ofText_eq_ok_iff.2
      ⟨payload, hp, eq_ok_of_mapError_eq_ok hof⟩⟩
  · obtain ⟨node, hof, rfl⟩ := exists_of_map_eq_ok h
    exact .inr ⟨node, rfl, PublicNode.ofText_eq_ok_iff.2
      ⟨payload, hp, eq_ok_of_mapError_eq_ok hof⟩⟩

theorem ofText_eq_priv_iff {node : PrivateNode} :
    ofText text = .ok (.priv node) ↔ PrivateNode.ofText text = .ok node := by
  refine ⟨fun h ↦ ?_, ofText_of_private⟩
  rcases exists_of_ofText h with ⟨own, hown, hread⟩ | ⟨own, hown, -⟩
  · cases hown
    exact hread
  · cases hown

theorem ofText_eq_pub_iff {node : PublicNode} :
    ofText text = .ok (.pub node) ↔ PublicNode.ofText text = .ok node := by
  refine ⟨fun h ↦ ?_, ofText_of_public⟩
  rcases exists_of_ofText h with ⟨own, hown, -⟩ | ⟨own, hown, hread⟩
  · cases hown
  · cases hown
    exact hread

theorem ofText_eq_error_iff :
    (∃ failure, ofText text = .error failure) ↔
      (∃ failure, PrivateNode.ofText text = .error failure) ∧
        ∃ failure, PublicNode.ofText text = .error failure := by
  rw [exists_error_iff, exists_error_iff, exists_error_iff]
  constructor
  · intro h
    exact ⟨fun node hn ↦ h _ (ofText_of_private hn), fun node hn ↦ h _ (ofText_of_public hn)⟩
  · rintro ⟨hpriv, hpub⟩ read hread
    rcases exists_of_ofText hread with ⟨node, -, hn⟩ | ⟨node, -, hn⟩
    · exact hpriv node hn
    · exact hpub node hn

end Node

theorem tells_of_refuses {failure : Failure}
    (h : Refuses .noExtendedKey Malformed.toFailure text failure) :
    if Text.IsBlank text then failure = .noExtendedKey
    else ∃ reason, failure = .badExtendedKey reason := by
  cases h with
  | blank hb => rw [if_pos hb]
  | malformed hb malformed =>
    rw [if_neg hb]
    exact ⟨malformed.reason, rfl⟩

end ExtendedKey

namespace Credential

/-- The credentials present the same, and make the same of every request, given the same nonce at
the same time. -/
structure ActsAs (a b : Credential) : Prop where
  kind : a.kind = b.kind
  isSigning : a.isSigning = b.isSigning
  identity : a.identity = b.identity
  outcome : ∀ canonicalizer method body place place' host host',
    (host.draw place).nonce = (host'.draw place').nonce → host.now.millis = host'.now.millis →
      (a.build canonicalizer method body place host).outcome =
        (b.build canonicalizer method body place' host').outcome

theorem ActsAs.refl (c : Credential) : c.ActsAs c where
  kind := rfl
  isSigning := rfl
  identity := rfl
  outcome canonicalizer method body place place' host host' hnonce htime := by
    by_cases hc : c.isSigning
    · rw [outcome_build hc, outcome_build hc, hnonce, htime]
    · rw [outcome_build_of_not_isSigning hc, outcome_build_of_not_isSigning hc]

def ofTextOf (read : Node) (text : String) (signs : Bool) : Except Failure Credential :=
  match read with
  | .priv _ => ofXpriv text signs
  | .pub _ => ofXpub text

theorem ofTextOf_eq {text : String} {read : Node} (h : Node.ofText text = .ok read)
    (signs : Bool) : ofTextOf read text signs = .ok (ofKeyMaterial (.extended read) signs) := by
  cases read with
  | priv node =>
    rw [ofTextOf, ofXpriv, Node.ofText_eq_priv_iff.1 h]
    rfl
  | pub node =>
    rw [ofTextOf, ofXpub, Node.ofText_eq_pub_iff.1 h]
    rfl

end Credential

/-- Each text is read by at most one of the readers for one kind, and the reader for either kind
reads the same from it; the three refuse it for like reasons. What was read makes the credential
that the text makes. -/
theorem ExtendedKey.Node.ofText_agrees (text : String) :
    (∀ node, ofText text = .ok (.priv node) ↔ PrivateNode.ofText text = .ok node) ∧
    (∀ node, ofText text = .ok (.pub node) ↔ PublicNode.ofText text = .ok node) ∧
    (∀ node other, PublicNode.ofText text = .ok node → PrivateNode.ofText text ≠ .ok other) ∧
    ((∃ failure, ofText text = .error failure) ↔
      (∃ failure, PrivateNode.ofText text = .error failure) ∧
        ∃ failure, PublicNode.ofText text = .error failure) ∧
    (∀ failure, ofText text = .error failure ∨ PrivateNode.ofText text = .error failure ∨
        PublicNode.ofText text = .error failure →
      if Text.IsBlank text then failure = .noExtendedKey
      else ∃ reason, failure = .badExtendedKey reason) ∧
    ∀ read signs, ofText text = .ok read →
      ∃ c, Credential.ofTextOf read text signs = .ok c ∧
        c.ActsAs (Credential.ofKeyMaterial (.extended read) signs) := by
  refine ⟨fun node ↦ ofText_eq_priv_iff, fun node ↦ ofText_eq_pub_iff,
    fun node other h ↦ PrivateNode.ofText_ne_ok_of_public h other, ofText_eq_error_iff, ?_, ?_⟩
  · rintro failure (h | h | h)
    · exact tells_of_refuses (Node.refuses_of_ofText h)
    · exact tells_of_refuses (PrivateNode.refuses_of_ofText h)
    · exact tells_of_refuses (PublicNode.refuses_of_ofText h)
  · intro read signs h
    exact ⟨_, Credential.ofTextOf_eq h signs, .refl _⟩

end RequestAuth
