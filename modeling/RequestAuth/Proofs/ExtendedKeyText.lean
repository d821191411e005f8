import RequestAuth.ExtendedKey.Node
import RequestAuth.Proofs.Encoding
import RequestAuth.Proofs.Secp256k1.PublicKey

namespace RequestAuth

namespace Text

theorem dropWhile_eq_self {p : Char → Bool} {cs : List Char} (h : ∀ c ∈ cs, p c = false) :
    cs.dropWhile p = cs := by
  cases cs with
  | nil => rfl
  | cons c cs => rw [List.dropWhile_cons_of_neg (by simp [h c])]

theorem trim_eq_self {text : String} (h : ∀ c ∈ text.toList, isWhiteSpace c = false) :
    trim text = text := by
  rw [trim, trimChars, dropWhile_eq_self h, dropWhile_eq_self (fun c hc ↦ h c (by simpa using hc)),
    List.reverse_reverse, String.ofList_toList]

end Text

namespace Block

theorem drop_append {width : ℕ} (block : Block width) (rest : Bytes) :
    (block.toBytes ++ rest).drop width = rest := by
  conv_lhs => arg 1; rw [← block.length_toBytes]
  rw [List.drop_left]

theorem take_append {width : ℕ} (block : Block width) (rest : Bytes) :
    take width (block.toBytes ++ rest) = block := by
  apply ext
  rw [toBytes_take (by simp)]
  conv_lhs => arg 1; rw [← block.length_toBytes]
  rw [List.take_left]

end Block

namespace Base58

theorem digitChar_not_whiteSpace : ∀ n < 58, Text.isWhiteSpace (digitChar n) = false := by
  decide +kernel

theorem not_whiteSpace_of_mem_encode {bytes : Bytes} :
    ∀ c ∈ (encode bytes).toList, Text.isWhiteSpace c = false := by
  intro c hc
  rw [encode, String.toList_ofList, encodeChars_eq_map] at hc
  obtain ⟨d, hd, rfl⟩ := List.mem_map.1 hc
  exact digitChar_not_whiteSpace d (digitList_lt bytes d hd)

/-- The first characters of a text are those of the number without its last digits. -/
theorem exists_encode_eq_append {bytes : Bytes} {k c : ℕ} (h : bytes.takeWhile (· == 0) = [])
    (hc : Bytes.toNat bytes / 58 ^ k = c) (hpos : 0 < c) :
    ∃ rest, rest.length = k ∧
      (encode bytes).toList = (Radix.digits 58 c).map digitChar ++ rest := by
  subst hc
  obtain ⟨low, hlow, hd⟩ := Radix.exists_digits_eq_append (by decide) k hpos
  refine ⟨low.map digitChar, by rw [List.length_map, hlow], ?_⟩
  rw [encode, String.toList_ofList, encodeChars_eq_map, digitList, h, hd, List.length_nil,
    List.replicate_zero, List.nil_append, List.map_append]

end Base58

namespace ExtendedKey

open Secp256k1

theorem Place.ofBytes_append (place : Place) (rest : Bytes) :
    ofBytes (place.toBytes ++ rest) = place := by
  have hb : place.toBytes ++ rest = place.depth :: (place.parent.toBytes ++
      (place.child.toBytes ++ (place.chainCode.toBytes ++ rest))) := by
    simp [toBytes]
  have h5 : (place.toBytes ++ rest).drop 5 =
      place.child.toBytes ++ (place.chainCode.toBytes ++ rest) := by
    rw [hb, List.drop_succ_cons, Block.drop_append]
  have h9 : (place.toBytes ++ rest).drop 9 = place.chainCode.toBytes ++ rest := by
    rw [show 9 = 5 + 4 from rfl, ← List.drop_drop, h5, Block.drop_append]
  rw [ofBytes, h5, h9, hb, List.headD_cons, List.drop_one, List.tail_cons, Block.take_append,
    Block.take_append, Block.take_append]

theorem Payload.ofBytes_toBytes (payload : Payload) (letters : List Char) :
    ofBytes letters payload.toBytes = { payload with label.letters := letters } := by
  obtain ⟨⟨own, version⟩, place, key⟩ := payload
  have hv : (version.toBytes ++ (place.toBytes ++ key.toBytes)).drop 4 =
      place.toBytes ++ key.toBytes := Block.drop_append _ _
  have hk : (version.toBytes ++ (place.toBytes ++ key.toBytes)).drop 45 = key.toBytes ++ [] := by
    rw [show 45 = 4 + 41 from rfl, ← List.drop_drop, hv, ← place.length_toBytes, List.drop_left,
      List.append_nil]
  rw [ofBytes, toBytes, List.append_assoc, hv, hk, Block.take_append, Block.take_append,
    Place.ofBytes_append]

theorem decode_text {payload : Payload} (h : (payload.text.toList.take 4).all Char.isAlpha) :
    decode payload.text =
      .ok { payload with label.letters := payload.text.toList.take 4 } := by
  have hd : Base58.decodeCheck payload.text = .ok payload.toBytes :=
    Base58.decodeCheck_encodeCheck _
  rw [decode, hd]
  simp only [Payload.length_toBytes, lt_irrefl, if_false, h, and_self, if_true,
    Payload.ofBytes_toBytes]

theorem decodeTrimmed_text (payload : Payload)
    (h : (payload.text.toList.take 4).all Char.isAlpha) :
    decodeTrimmed payload.text =
      .ok { payload with label.letters := payload.text.toList.take 4 } := by
  have ht : Text.trim payload.text = payload.text :=
    Text.trim_eq_self Base58.not_whiteSpace_of_mem_encode
  have hb : ¬ Text.IsBlank payload.text := by
    rw [Text.IsBlank, ht]
    exact Base58.encodeCheck_ne_empty _
  rw [decodeTrimmed, if_neg hb, ht, decode_text h]
  rfl

namespace Label

theorem exists_letters_eq_cons {label : Label} {rest : List Char} (h : label.letters.drop 1 = rest)
    (hrest : rest ≠ []) : ∃ c, label.letters = c :: rest := by
  cases hl : label.letters with
  | nil =>
    rw [hl] at h
    exact absurd h.symm hrest
  | cons c own =>
    rw [hl] at h
    exact ⟨c, congrArg (c :: ·) h⟩

theorem IsPublic.exists_letters {label : Label} (h : label.IsPublic) :
    ∃ c, label.letters = [c, 'p', 'u', 'b'] := exists_letters_eq_cons h nofun

theorem IsPrivate.exists_letters {label : Label} (h : label.IsPrivate) :
    ∃ c, label.letters = [c, 'p', 'r', 'v'] := exists_letters_eq_cons h nofun

def digits (label : Label) : List ℕ := label.letters.map Base58.alphabet.idxOf

/-- Whether the numbers that a version and seventy-eight more bytes write have the same first digits
throughout, which are the label's letters. -/
def FixesLetters (label : Label) : Prop :=
  label.digits.map Base58.digitChar = label.letters ∧ (∀ d ∈ label.digits, d < 58) ∧
    label.digits.dropWhile (· == 0) = label.digits ∧ 0 < Radix.value 58 label.digits ∧
    label.version.toBytes.takeWhile (· == 0) = [] ∧
    Radix.value 58 label.digits * 58 ^ 107 ≤ Bytes.toNat label.version.toBytes * 256 ^ 78 ∧
    (Bytes.toNat label.version.toBytes + 1) * 256 ^ 78 ≤
      (Radix.value 58 label.digits + 1) * 58 ^ 107

instance (label : Label) : Decidable label.FixesLetters := inferInstanceAs (Decidable (_ ∧ _))

theorem FixesLetters.exists_text_eq_append {label : Label} (h : label.FixesLetters)
    {payload : Payload} (hv : payload.label.version = label.version) :
    ∃ rest, rest.length = 107 ∧ payload.text.toList = label.letters ++ rest := by
  obtain ⟨hletters, hlt, hhead, hpos, hzero, hlow, hhigh⟩ := h
  set low := payload.place.toBytes ++ payload.key.toBytes ++ Base58.checksum payload.toBytes with hl
  have hbytes : payload.toBytes ++ Base58.checksum payload.toBytes =
      label.version.toBytes ++ low := by
    rw [hl, Payload.toBytes, hv]
    simp
  have hlen : low.length = 78 := by simp [hl]
  have hfirst : (label.version.toBytes ++ low).takeWhile (· == 0) = [] := by
    rw [List.takeWhile_append, hzero, if_neg (by simp)]
  have hdiv : Bytes.toNat (label.version.toBytes ++ low) / 58 ^ 107 =
      Radix.value 58 label.digits := by
    have hrest := Bytes.toNat_lt low
    rw [hlen] at hrest
    rw [Bytes.toNat_append, hlen]
    apply Nat.div_eq_of_lt_le
    · exact hlow.trans (Nat.le_add_right _ _)
    · refine lt_of_lt_of_le ?_ hhigh
      rw [Nat.succ_mul]
      exact Nat.add_lt_add_left hrest _
  have ht := Base58.exists_encode_eq_append hfirst hdiv hpos
  rwa [Radix.digits_value (by decide) hlt, hhead, hletters, ← hbytes] at ht

end Label

theorem Network.fixesLetters (network : Network) :
    network.publicLabel.FixesLetters ∧ network.privateLabel.FixesLetters := by
  cases network <;> decide

theorem Network.exists_text_eq_append (network : Network) {payload : Payload}
    (h : payload.label = network.publicLabel) :
    ∃ rest, rest.length = 107 ∧ payload.text.toList = network.publicLabel.letters ++ rest :=
  network.fixesLetters.1.exists_text_eq_append (congrArg Label.version h)

theorem Network.length_letters (network : Network) : network.publicLabel.letters.length = 4 := by
  cases network <;> rfl

theorem Network.take_text (network : Network) {payload : Payload}
    (h : payload.label = network.publicLabel) :
    payload.text.toList.take 4 = network.publicLabel.letters := by
  obtain ⟨rest, -, ht⟩ := network.exists_text_eq_append h
  rw [ht, ← network.length_letters, List.take_left]

theorem Network.length_text (network : Network) {payload : Payload}
    (h : payload.label = network.publicLabel) : payload.text.length = 111 := by
  obtain ⟨rest, hr, ht⟩ := network.exists_text_eq_append h
  rw [← String.length_toList, ht, List.length_append, network.length_letters, hr]

namespace PublicNode

theorem ofText_text {node : PublicNode} (hletters : node.text.toList.take 4 = node.label.letters)
    (halpha : node.label.letters.all Char.isAlpha) (hpublic : node.label.IsPublic)
    (hkey : node.key.toPoint.OnCurve) : ofText node.text = .ok node := by
  have hd : decodeTrimmed node.text = .ok node.toPayload := by
    have hd := decodeTrimmed_text node.toPayload (by
      rw [← text, hletters]
      exact halpha)
    rw [← text, hletters] at hd
    exact hd
  have hk : PublicKey.ofCompressed? node.toPayload.key.toBytes = some node.key :=
    PublicKey.ofCompressed?_compressed hkey
  have hp : node.toPayload.label.IsPublic := hpublic
  have hof : ofPayload node.toPayload = .ok node := by
    rw [ofPayload, if_pos hp, hk]
    rfl
  rw [ofText, hd]
  simp only [bind, Except.bind, if_pos hp, hof]
  rfl

end PublicNode

theorem PrivateNode.length_text_neuter (node : PrivateNode) : node.neuter.text.length = 111 :=
  (Network.ofPrivate node.label).length_text rfl

theorem PrivateNode.ofText_neuter (node : PrivateNode) :
    PublicNode.ofText node.neuter.text = .ok node.neuter := by
  apply PublicNode.ofText_text
  · exact (Network.ofPrivate node.label).take_text rfl
  · cases h : Network.ofPrivate node.label <;> simp only [neuter, h] <;> decide
  · cases h : Network.ofPrivate node.label <;> simp only [neuter, h] <;> decide
  · rw [neuter, node.pair.publicKey_eq]
    exact node.pair.secret.onCurve_publicKey

end ExtendedKey

end RequestAuth
