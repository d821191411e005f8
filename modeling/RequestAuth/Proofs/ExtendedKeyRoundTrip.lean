import RequestAuth.Proofs.Credential
import RequestAuth.Proofs.Decoding
import RequestAuth.Proofs.ExtendedKeyText
import RequestAuth.Proofs.KeyText
import RequestAuth.Proofs.Secp256k1.Compression

namespace RequestAuth

namespace Text

theorem dropWhile_append_of_forall {p : Char → Bool} {before cs : List Char}
    (h : ∀ c ∈ before, p c = true) : (before ++ cs).dropWhile p = cs.dropWhile p := by
  rw [List.dropWhile_append, List.dropWhile_eq_nil_iff.2 h]
  rfl

theorem trim_between {before text after : String}
    (hbefore : ∀ c ∈ before.toList, isWhiteSpace c = true)
    (hafter : ∀ c ∈ after.toList, isWhiteSpace c = true)
    (h : ∀ c ∈ text.toList, isWhiteSpace c = false) : trim (before ++ text ++ after) = text := by
  have hrev : (text.toList ++ after.toList).reverse.dropWhile isWhiteSpace =
      text.toList.reverse := by
    rw [List.reverse_append, dropWhile_append_of_forall (by simpa using hafter),
      dropWhile_eq_self (by simpa using h)]
  have hchars : trimChars (before ++ text ++ after).toList = text.toList := by
    rw [trimChars, String.toList_append, String.toList_append, List.append_assoc,
      dropWhile_append_of_forall hbefore]
    cases ht : text.toList with
    | nil =>
      rw [List.nil_append, List.dropWhile_eq_nil_iff.2 hafter]
      rfl
    | cons c cs =>
      rw [ht] at h hrev
      rw [List.cons_append, List.dropWhile_cons_of_neg (by simp [h c]), ← List.cons_append, hrev,
        List.reverse_reverse]
  rw [trim, hchars, String.ofList_toList]

end Text

namespace ExtendedKey

open Secp256k1

theorem Place.toBytes_ofBytes {bytes : Bytes} (h : 41 ≤ bytes.length) :
    (ofBytes bytes).toBytes = bytes.take 41 := by
  cases bytes with
  | nil => cases h
  | cons depth rest =>
    rw [List.length_cons] at h
    have hparent : (Block.take 4 rest).toBytes = rest.take 4 := Block.toBytes_take (by omega)
    have hchild : (Block.take 4 (rest.drop 4)).toBytes = (rest.drop 4).take 4 :=
      Block.toBytes_take (by rw [List.length_drop]; omega)
    have hcode : (Block.take 32 (rest.drop 8)).toBytes = (rest.drop 8).take 32 :=
      Block.toBytes_take (by rw [List.length_drop]; omega)
    calc (ofBytes (depth :: rest)).toBytes
        = depth :: (rest.take 4 ++ (rest.drop 4).take 4 ++ (rest.drop 8).take 32) := by
          rw [← hparent, ← hchild, ← hcode]
          rfl
      _ = (depth :: rest).take 41 := by
          rw [← List.take_add, ← List.take_add, List.take_succ_cons]

theorem Payload.toBytes_ofBytes {bytes : Bytes} (h : bytes.length = length)
    (letters : List Char) : (ofBytes letters bytes).toBytes = bytes := by
  rw [length] at h
  have hversion : (Block.take 4 bytes).toBytes = bytes.take 4 := Block.toBytes_take (by omega)
  have hplace : (Place.ofBytes (bytes.drop 4)).toBytes = (bytes.drop 4).take 41 :=
    Place.toBytes_ofBytes (by rw [List.length_drop]; omega)
  have hkey : (Block.take 33 (bytes.drop 45)).toBytes = (bytes.drop 45).take 33 :=
    Block.toBytes_take (by rw [List.length_drop]; omega)
  calc (ofBytes letters bytes).toBytes
      = bytes.take 4 ++ (bytes.drop 4).take 41 ++ (bytes.drop 45).take 33 := by
        rw [← hversion, ← hplace, ← hkey]
        rfl
    _ = bytes := by rw [← List.take_add, ← List.take_add, List.take_of_length_le (by omega)]

theorem decode_eq_ok_iff {text : String} {payload : Payload} :
    decode text = .ok payload ↔
      payload.text = text ∧ payload.label.letters = text.toList.take 4 ∧
        payload.label.letters.all Char.isAlpha := by
  constructor
  · intro h
    rw [decode] at h
    split at h
    · cases h
    · next bytes hb =>
      dsimp only at h
      split at h
      · cases h
      · split at h
        · next hlong hlegible =>
          cases h
          refine ⟨?_, rfl, hlegible.2⟩
          rw [Payload.text, Payload.toBytes_ofBytes hlegible.1,
            Base58.decodeCheck_eq_ok_iff.1 hb]
        · cases h
  · rintro ⟨rfl, hletters, halpha⟩
    rw [hletters] at halpha
    rw [decode_text halpha, ← hletters]

theorem decodeTrimmed_eq_ok_iff {text : String} {payload : Payload} :
    decodeTrimmed text = .ok payload ↔ decode (Text.trim text) = .ok payload := by
  rw [decodeTrimmed]
  constructor
  · intro h
    split at h
    · cases h
    · exact eq_ok_of_mapError_eq_ok h
  · intro h
    have hb : ¬ Text.IsBlank text := by
      intro hb
      rw [Text.IsBlank] at hb
      rw [hb] at h
      exact Base58.encodeCheck_ne_empty _ (decode_eq_ok_iff.1 h).1
    rw [if_neg hb, h]
    rfl

section DecodeTrim

variable {payload : Payload} {before text after : String} (htext : payload.text = text)
  (hletters : payload.label.letters = text.toList.take 4)
  (halpha : payload.label.letters.all Char.isAlpha)

include htext hletters halpha

theorem decode_trim : decode (Text.trim text) = .ok payload := by
  have htrim : Text.trim payload.text = payload.text :=
    Text.trim_eq_self Base58.not_whiteSpace_of_mem_encode
  rw [← htext, htrim, decode_eq_ok_iff]
  exact ⟨rfl, htext ▸ hletters, halpha⟩

theorem decode_trim_between (hbefore : before.toList.all Text.isWhiteSpace)
    (hafter : after.toList.all Text.isWhiteSpace) :
    decode (Text.trim (before ++ text ++ after)) = .ok payload := by
  have htrim : Text.trim (before ++ payload.text ++ after) = payload.text :=
    Text.trim_between (List.all_eq_true.1 hbefore) (List.all_eq_true.1 hafter)
      Base58.not_whiteSpace_of_mem_encode
  rw [← htext, htrim, decode_eq_ok_iff]
  exact ⟨rfl, htext ▸ hletters, halpha⟩

end DecodeTrim

theorem Payload.take_toBytes (payload : Payload) :
    payload.toBytes.take 4 = payload.label.version.toBytes := by
  rw [toBytes, List.append_assoc]
  exact List.take_left' (Block.length_toBytes _)

theorem Payload.place_toBytes (payload : Payload) :
    (payload.toBytes.drop 4).take 41 = payload.place.toBytes := by
  rw [toBytes, List.append_assoc, Block.drop_append]
  exact List.take_left' (Place.length_toBytes _)

theorem Payload.drop_toBytes (payload : Payload) :
    payload.toBytes.drop 45 = payload.key.toBytes := by
  rw [toBytes]
  exact List.drop_left' (by simp)

theorem Payload.toBytes_eq_of_text_eq {payload : Payload} {text : String} {bytes : Bytes}
    (h : payload.text = text) (hb : Base58.decodeCheck text = .ok bytes) :
    payload.toBytes = bytes := by
  rw [← h, Payload.text, Base58.decodeCheck_encodeCheck] at hb
  exact Except.ok.inj hb

/-- What both readers do: those letters are turned down first that the payload would be turned down
for. -/
theorem exists_decode_iff {α : Type} {text : String} {a : α} {P : Payload → Prop}
    [DecidablePred P] {read : Payload → Except Malformed α} {complaint : Payload → Failure}
    (hread : ∀ payload a, read payload = .ok a → P payload) :
    (decodeTrimmed text >>= fun payload ↦
        if P payload then (read payload).mapError Malformed.toFailure
        else .error (complaint payload)) = .ok a ↔
      ∃ payload, decode (Text.trim text) = .ok payload ∧ read payload = .ok a := by
  constructor
  · intro h
    obtain ⟨payload, hp, h⟩ := exists_of_bind_eq_ok h
    split at h
    · exact ⟨payload, decodeTrimmed_eq_ok_iff.1 hp, eq_ok_of_mapError_eq_ok h⟩
    · cases h
  · rintro ⟨payload, hp, hr⟩
    rw [decodeTrimmed_eq_ok_iff.2 hp]
    simp only [bind, Except.bind, if_pos (hread payload a hr), hr]
    rfl

def TellsParity (text : String) : Prop :=
  ∃ bytes, Base58.decodeCheck (Text.trim text) = .ok bytes ∧
    PublicKey.TellsParity (bytes.drop 45)

namespace PublicNode

theorem ofPayload_eq_ok_iff {payload : Payload} {node : PublicNode} :
    ofPayload payload = .ok node ↔
      payload.label.IsPublic ∧ PublicKey.ofCompressed? payload.key.toBytes = some node.key ∧
        node.label = payload.label ∧ node.place = payload.place := by
  rw [ofPayload]
  constructor
  · intro h
    split at h
    · next hpublic =>
      split at h
      · next key hk =>
        cases h
        exact ⟨hpublic, hk, rfl, rfl⟩
      · cases h
    · cases h
  · obtain ⟨label, place, key⟩ := node
    rintro ⟨hpublic, hk, rfl, rfl⟩
    rw [if_pos hpublic, hk]

theorem ofText_eq_ok_iff {text : String} {node : PublicNode} :
    ofText text = .ok node ↔
      ∃ payload, decode (Text.trim text) = .ok payload ∧ ofPayload payload = .ok node :=
  exists_decode_iff (fun _ _ h ↦ (ofPayload_eq_ok_iff.1 h).1)

theorem toPayload_of_ofPayload {payload : Payload} {node : PublicNode}
    (h : ofPayload payload = .ok node) (ht : PublicKey.TellsParity payload.key.toBytes) :
    node.toPayload = payload := by
  obtain ⟨-, hk, hlabel, hplace⟩ := ofPayload_eq_ok_iff.1 h
  obtain ⟨label, place, key⟩ := payload
  rw [toPayload, hlabel, hplace, Block.ext (PublicKey.compressed_of_ofCompressed? hk ht)]

theorem text_of_ofText {text : String} {node : PublicNode} (h : ofText text = .ok node)
    (ht : TellsParity text) : node.text = Text.trim text := by
  obtain ⟨payload, hp, hof⟩ := ofText_eq_ok_iff.1 h
  obtain ⟨bytes, hb, htag⟩ := ht
  obtain ⟨hpt, -, -⟩ := decode_eq_ok_iff.1 hp
  rw [← Payload.toBytes_eq_of_text_eq hpt hb, Payload.drop_toBytes] at htag
  rw [PublicNode.text, toPayload_of_ofPayload hof htag, hpt]

theorem ofText_of_trim_eq_text {payload : Payload} {key : PublicKey} {text : String}
    (htext : Text.trim text = payload.text)
    (hletters : payload.label.letters = payload.text.toList.take 4)
    (halpha : payload.label.letters.all Char.isAlpha) (hpublic : payload.label.IsPublic)
    (hkey : PublicKey.ofCompressed? payload.key.toBytes = some key) :
    ofText text = .ok ⟨payload.label, payload.place, key⟩ := by
  rw [ofText_eq_ok_iff, htext]
  exact ⟨payload, decode_eq_ok_iff.2 ⟨rfl, hletters, halpha⟩,
    ofPayload_eq_ok_iff.2 ⟨hpublic, hkey, rfl, rfl⟩⟩

end PublicNode

/-- The bytes of a public key in compressed form, with a text that tells what they are. -/
structure IsPublicPayload (bytes : Bytes) : Prop where
  length_eq : bytes.length = Payload.length
  decodable : ∃ key, PublicKey.ofCompressed? (bytes.drop 45) = some key
  tellsParity : PublicKey.TellsParity (bytes.drop 45)
  letters : ∃ c, c.isAlpha ∧ (Base58.encodeCheck bytes).toList.take 4 = [c, 'p', 'u', 'b']

theorem IsPublicPayload.exists_ofText {bytes : Bytes} (h : IsPublicPayload bytes) {text : String}
    (htext : Text.trim text = Base58.encodeCheck bytes) :
    ∃ node, PublicNode.ofText text = .ok node ∧ node.text = Base58.encodeCheck bytes ∧
      node.key.compressed.toBytes = bytes.drop 45 := by
  obtain ⟨key, hkey⟩ := h.decodable
  obtain ⟨c, hc, hletters⟩ := h.letters
  obtain ⟨payload, rfl, hown⟩ : ∃ payload : Payload,
      payload.toBytes = bytes ∧ payload.label.letters = [c, 'p', 'u', 'b'] :=
    ⟨_, Payload.toBytes_ofBytes h.length_eq _, rfl⟩
  have hpublic : payload.label.IsPublic := by
    rw [Label.IsPublic, hown]
    rfl
  have hread := PublicNode.ofText_of_trim_eq_text htext (hown.trans hletters.symm)
    (by simpa [hown] using hc) hpublic (payload.drop_toBytes ▸ hkey)
  refine ⟨_, hread, ?_, PublicKey.compressed_of_ofCompressed? hkey h.tellsParity⟩
  rw [← htext]
  exact PublicNode.text_of_ofText hread
    ⟨_, by rw [htext, Base58.decodeCheck_encodeCheck], h.tellsParity⟩

/-- What a node's text says is what was read; and what is read can be put between white space, has
the key that the bytes write, and is sent on as it was given. -/
theorem PublicNode.text_round_trips :
    (∀ text node, ofText text = .ok node → TellsParity text → node.text = Text.trim text) ∧
    (∀ (bytes : Bytes) (before after : String), IsPublicPayload bytes →
      before.toList.all Text.isWhiteSpace → after.toList.all Text.isWhiteSpace →
      ∃ node, ofText (before ++ Base58.encodeCheck bytes ++ after) = .ok node ∧
        node.text = Base58.encodeCheck bytes ∧ node.key.compressed.toBytes = bytes.drop 45) ∧
    ∀ text c, Credential.ofXpub text = .ok c → TellsParity text →
      ∀ canonicalizer method body place host,
        ∃ set, (c.build canonicalizer method body place host).outcome = .ok set ∧
          set.toList = [(AuthHeader.xpub, Text.trim text)] := by
  refine ⟨fun text node ↦ text_of_ofText, ?_, ?_⟩
  · intro bytes before after h hbefore hafter
    exact h.exists_ofText (Text.trim_between (List.all_eq_true.1 hbefore)
      (List.all_eq_true.1 hafter) Base58.not_whiteSpace_of_mem_encode)
  · intro text c hc ht canonicalizer method body place host
    obtain ⟨node, hn, rfl⟩ := exists_of_map_eq_ok hc
    refine ⟨(Credential.xpub node).unsignedSet,
      Credential.outcome_build_of_not_isSigning nofun, ?_⟩
    rw [← text_of_ofText hn ht]
    rfl

theorem PublicNode.text_round_trips_master :
    ∃ node, ofText (" " ++ ("xpub661MyMwAqRbcFtXgS5sYJABqqG9YLmC4Q1Rdap9gSE8Nqt" ++
        "wybGhePY2gZ29ESFjqJoCu1Rupje8YtGqsefD265TMg7usUDFdp6W1EGMcet8") ++ "\n") = .ok node ∧
      node.text = "xpub661MyMwAqRbcFtXgS5sYJABqqG9YLmC4Q1Rdap9gSE8Nqt" ++
        "wybGhePY2gZ29ESFjqJoCu1Rupje8YtGqsefD265TMg7usUDFdp6W1EGMcet8" ∧
      node.key.compressed.toBytes =
        Bytes.ofNat 33 0x0339a36013301597daef41fbe593a02cc513d0b55527ec2df1050e2e8ff49c85c2 := by
  have htext : "xpub661MyMwAqRbcFtXgS5sYJABqqG9YLmC4Q1Rdap9gSE8Nqt" ++
      "wybGhePY2gZ29ESFjqJoCu1Rupje8YtGqsefD265TMg7usUDFdp6W1EGMcet8" = Base58.encodeCheck
        (Bytes.ofNat 13 0x0488b21e000000000000000000 ++
          Bytes.ofNat 32 0x873dff81c02f525623fd1fe5167eac3a55a049de3d314bb42ee227ffed37d508 ++
          Bytes.ofNat 33 0x0339a36013301597daef41fbe593a02cc513d0b55527ec2df1050e2e8ff49c85c2) := by
    decide +kernel
  have hpayload : IsPublicPayload
      (Bytes.ofNat 13 0x0488b21e000000000000000000 ++
        Bytes.ofNat 32 0x873dff81c02f525623fd1fe5167eac3a55a049de3d314bb42ee227ffed37d508 ++
        Bytes.ofNat 33 0x0339a36013301597daef41fbe593a02cc513d0b55527ec2df1050e2e8ff49c85c2) :=
    ⟨by decide, Option.isSome_iff_exists.1 (by decide +kernel), by decide,
      'x', by decide, by rw [← htext]; decide⟩
  rw [htext]
  exact text_round_trips.2.1 _ _ _ hpayload (by decide) (by decide)

end ExtendedKey

end RequestAuth
