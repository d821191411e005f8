import RequestAuth.Proofs.ExtendedKeyRoundTrip
import RequestAuth.Proofs.Secp256k1.Ecdsa

namespace RequestAuth

open ExtendedKey Secp256k1

/-- What a credential makes of requests whose secret and identity are these. Its signatures are valid
under the key that the identity shows, the point of the secret. -/
structure Credential.EmitsAs (c : Credential) (signs : Bool) (identity : String) (k : Scalar) :
    Prop where
  outcome : ∀ canonicalizer method body place host,
    (c.build canonicalizer method body place host).outcome =
      if signs then
        (fun sig ↦ (⟨.xpub, identity, some sig⟩ : HeaderSet)) <$>
          signContext identity (.ofParts method body (host.draw place).nonce host.now.millis)
            canonicalizer (.ofSecret k)
      else .ok ⟨.xpub, identity, none⟩
  valid : ∀ canonicalizer method body place host set sig,
    (c.build canonicalizer method body place host).outcome = .ok set → set.signature = some sig →
    ∃ shown payload signature, PublicNode.ofText identity = .ok shown ∧
      shown.key.toPoint = Point.multiple k.val Point.generator ∧
      canonicalizer.canonicalize identity
        (.ofParts method body (host.draw place).nonce host.now.millis) = .ok payload ∧
      sig.signature = Hex.encode signature.toBytes ∧
      verify shown.key payload.digest signature

theorem Signer.exists_of_ofSecret {k : Scalar} {digest bytes : Bytes}
    (h : ofSecret k digest = .ok bytes) : ∃ sig, sign k digest = some sig ∧ bytes = sig.toBytes := by
  cases hs : sign k digest with
  | none => cases (ofSecret_of_sign_none hs).symm.trans h
  | some sig => exact ⟨sig, rfl, (Except.ok.inj ((ofSecret_of_sign hs).symm.trans h)).symm⟩

theorem ExtendedKey.PrivateNode.toPoint_key_neuter (node : PrivateNode) :
    node.neuter.key.toPoint = Point.multiple node.pair.secret.val Point.generator := by
  have hkey : node.neuter.key = node.pair.publicKey := rfl
  rw [hkey, node.pair.publicKey_eq, Scalar.toPoint_publicKey, Point.ofGroup_nsmul,
    ofGroup_groupGenerator]

theorem Credential.emitsAs_xpriv (node : PrivateNode) (signs : Bool) :
    (xpriv node signs).EmitsAs signs node.neuter.text node.pair.secret where
  outcome canonicalizer method body place host := by
    cases signs with
    | false => exact outcome_build_of_not_isSigning nofun
    | true =>
      rw [outcome_build rfl, signedSet]
      rfl
  valid canonicalizer method body place host set sig h hsig := by
    cases signs with
    | false =>
      have hc : ¬ (xpriv node false).isSigning := nofun
      cases (outcome_build_of_not_isSigning hc).symm.trans h
      cases hsig
    | true =>
      rw [outcome_build rfl] at h
      obtain ⟨k, own, hk, hown, rfl⟩ := exists_of_signedSet h
      obtain rfl := Except.ok.inj hk
      obtain rfl := Option.some.inj hsig
      obtain ⟨payload, bytes, hp, hb, rfl⟩ := exists_of_signContext hown
      obtain ⟨signature, hs, rfl⟩ := Signer.exists_of_ofSecret hb
      refine ⟨node.neuter, payload, signature, PrivateNode.ofText_neuter node,
        node.toPoint_key_neuter, hp, rfl, ?_⟩
      have hkey : node.neuter.key = node.pair.secret.publicKey := node.pair.publicKey_eq
      rw [hkey]
      exact verify_of_sign hs

namespace ExtendedKey

theorem Network.ofPrivate_privateLabel (network : Network) :
    ofPrivate network.privateLabel = network := by
  cases network <;> rfl

theorem Network.label_eq_of_decode {text : String} {payload : Payload}
    (h : decode text = .ok payload) {network : Network}
    (hv : payload.label.version = network.privateLabel.version) :
    payload.label = network.privateLabel := by
  obtain ⟨ht, hletters, -⟩ := decode_eq_ok_iff.1 h
  obtain ⟨rest, -, hrest⟩ := network.fixesLetters.2.exists_text_eq_append hv
  have hlen : network.privateLabel.letters.length = 4 := by cases network <;> rfl
  rw [← ht, hrest, ← hlen, List.take_left] at hletters
  obtain ⟨⟨letters, version⟩, place, key⟩ := payload
  obtain rfl : letters = network.privateLabel.letters := hletters
  obtain rfl : version = network.privateLabel.version := hv
  rfl

theorem Network.ofPrivate_eq_of_decode {text : String} {payload : Payload}
    (h : decode text = .ok payload) {network : Network}
    (hv : payload.label.version = network.privateLabel.version) :
    ofPrivate payload.label = network := by
  rw [label_eq_of_decode h hv]
  exact network.ofPrivate_privateLabel

namespace PrivateNode

theorem ofPayload_eq_ok_iff {payload : Payload} {node : PrivateNode} :
    ofPayload payload = .ok node ↔
      payload.label.IsPrivate ∧ payload.key.toBytes = 0 :: node.pair.secret.toBytes ∧
        node.label = payload.label ∧ node.place = payload.place := by
  have hlen := payload.key.length_toBytes
  rw [ofPayload]
  constructor
  · intro h
    split at h
    · next secret hkey =>
      split at h
      · next k hk =>
        split at h
        · next hprivate =>
          cases h
          rw [hkey, List.length_cons] at hlen
          rw [hkey, (Scalar.ofBytes?_eq_some_iff (by omega)).1 hk]
          exact ⟨hprivate, rfl, rfl, rfl⟩
        · cases h
      · cases h
    · cases h
  · obtain ⟨label, place, pair⟩ := node
    rintro ⟨hprivate, hkey, rfl, rfl⟩
    have hk : Scalar.ofBytes? pair.secret.toBytes = some pair.secret :=
      (Scalar.ofBytes?_eq_some_iff pair.secret.length_toBytes).2 rfl
    simp only [hkey, hk, if_pos hprivate, KeyPair.ofScalar_secret]

theorem ofText_eq_ok_iff {text : String} {node : PrivateNode} :
    ofText text = .ok node ↔
      ∃ payload, decode (Text.trim text) = .ok payload ∧ ofPayload payload = .ok node :=
  exists_decode_iff (fun _ _ h ↦ (ofPayload_eq_ok_iff.1 h).1)

end PrivateNode

theorem Node.ofText_of_private {text : String} {node : PrivateNode}
    (h : PrivateNode.ofText text = .ok node) : Node.ofText text = .ok (.priv node) := by
  obtain ⟨payload, hp, hof⟩ := PrivateNode.ofText_eq_ok_iff.1 h
  rw [Node.ofText, decodeTrimmed_eq_ok_iff.2 hp]
  simp only [bind, Except.bind, if_pos (PrivateNode.ofPayload_eq_ok_iff.1 hof).1, hof]
  rfl

/-- A text holds the place that a private key's bytes hold and the point of its secret, on the
private key's network if that is known. -/
structure Neuters (bytes : Bytes) (k : Scalar) (network : Network) (q : PublicKey)
    (text : String) : Prop where
  length_eq : bytes.length = Payload.length
  secret : bytes.drop 45 = 0 :: k.toBytes
  network_eq : ∀ other : Network,
    bytes.take 4 = other.privateLabel.version.toBytes → network = other
  point : q.toPoint = Point.multiple k.val Point.generator
  text_eq : text = Base58.encodeCheck
    (network.publicLabel.version.toBytes ++ (bytes.drop 4).take 41 ++ q.compressed.toBytes)
  length_text : text.length = 111
  letters : text.toList.take 4 = network.publicLabel.letters

theorem PrivateNode.neuters {text : String} {payload : Payload} {node : PrivateNode}
    (hp : decode text = .ok payload) (hof : ofPayload payload = .ok node) :
    Neuters payload.toBytes node.pair.secret (.ofPrivate node.label) node.pair.publicKey
      node.neuter.text where
  length_eq := payload.length_toBytes
  secret := by rw [payload.drop_toBytes, (ofPayload_eq_ok_iff.1 hof).2.1]
  network_eq other hv := by
    obtain ⟨-, -, hlabel, -⟩ := ofPayload_eq_ok_iff.1 hof
    rw [payload.take_toBytes] at hv
    rw [hlabel]
    exact Network.ofPrivate_eq_of_decode hp (Block.ext hv)
  point := node.toPoint_key_neuter
  text_eq := by
    obtain ⟨-, -, -, hplace⟩ := ofPayload_eq_ok_iff.1 hof
    rw [payload.place_toBytes, ← hplace]
    rfl
  length_text := node.length_text_neuter
  letters := (Network.ofPrivate node.label).take_text rfl

/-- The text of the public half is that of the same place and the secret's point. It is read as what
it was written from, and every credential of the private key shows it and signs with the secret. -/
theorem PrivateNode.neuter_keeps_place {text : String} {node : PrivateNode}
    (h : ofText text = .ok node) :
    (∃ bytes network q, Base58.decodeCheck (Text.trim text) = .ok bytes ∧
      Neuters bytes node.pair.secret network q node.neuter.text ∧
      ∃ other, PublicNode.ofText node.neuter.text = .ok other ∧ other.Same node.neuter ∧
        other.key.compressed.toBytes = q.compressed.toBytes) ∧
    (∃ c, Credential.ofXpriv text = .ok c ∧
      c.EmitsAs true node.neuter.text node.pair.secret) ∧
    ∀ signs,
      (∃ c, Credential.ofXpriv text signs = .ok c ∧
        c.EmitsAs signs node.neuter.text node.pair.secret) ∧
      ∃ read, Node.ofText text = .ok read ∧ read.neuter = node.neuter ∧
        (Credential.ofKeyMaterial (.extended read) signs).EmitsAs signs node.neuter.text
          node.pair.secret := by
  have hxpriv : ∀ signs, ∃ c, Credential.ofXpriv text signs = .ok c ∧
      c.EmitsAs signs node.neuter.text node.pair.secret := by
    intro signs
    refine ⟨.xpriv node signs, ?_, Credential.emitsAs_xpriv node signs⟩
    rw [Credential.ofXpriv, h]
    rfl
  obtain ⟨payload, hp, hof⟩ := ofText_eq_ok_iff.1 h
  have hbytes : Base58.decodeCheck (Text.trim text) = .ok payload.toBytes :=
    Base58.decodeCheck_eq_ok_iff.2 (decode_eq_ok_iff.1 hp).1.symm
  refine ⟨⟨_, _, _, hbytes, neuters hp hof, node.neuter, ofText_neuter node, rfl, rfl⟩,
    hxpriv true, fun signs ↦ ⟨hxpriv signs, .priv node, Node.ofText_of_private h, rfl, ?_⟩⟩
  exact Credential.emitsAs_xpriv node signs

theorem PrivateNode.neuter_keeps_place_master :
    ∃ node, ofText ("xprv9s21ZrQH143K3QTDL4LXw2F7HEK3wJUD2nW2nRk4stbPy6cq3" ++
        "jPPqjiChkVvvNKmPGJxWUtg6LnF5kejMRNNU3TGtRBeJgk33yuGBxrMPHi") = .ok node ∧
      node.pair.secret.val = 0xe8f32e723decf4051aefac8e2c93c9c5b214313817cdb01a1494b917c8436b35 ∧
      node.neuter.text.length = 111 ∧ node.neuter.text.toList.take 4 = ['x', 'p', 'u', 'b'] := by
  have hdecode : decode (Text.trim ("xprv9s21ZrQH143K3QTDL4LXw2F7HEK3wJUD2nW2nRk4stbPy6cq3" ++
      "jPPqjiChkVvvNKmPGJxWUtg6LnF5kejMRNNU3TGtRBeJgk33yuGBxrMPHi")) =
      .ok ⟨Network.main.privateLabel, ⟨0, .ofNat 4 0, .ofNat 4 0,
        .ofNat 32 0x873dff81c02f525623fd1fe5167eac3a55a049de3d314bb42ee227ffed37d508⟩,
        .ofNat 33 0xe8f32e723decf4051aefac8e2c93c9c5b214313817cdb01a1494b917c8436b35⟩ :=
    decode_eq_ok_iff.2 ⟨by decide +kernel, by decide +kernel, by decide⟩
  have hread : ofText ("xprv9s21ZrQH143K3QTDL4LXw2F7HEK3wJUD2nW2nRk4stbPy6cq3" ++
      "jPPqjiChkVvvNKmPGJxWUtg6LnF5kejMRNNU3TGtRBeJgk33yuGBxrMPHi") =
      .ok ⟨_, _, .ofScalar ⟨0xe8f32e723decf4051aefac8e2c93c9c5b214313817cdb01a1494b917c8436b35,
        by decide, by decide⟩⟩ :=
    ofText_eq_ok_iff.2 ⟨_, hdecode, ofPayload_eq_ok_iff.2 ⟨rfl, by decide, rfl, rfl⟩⟩
  obtain ⟨⟨bytes, network, q, hbytes, hneuters, -⟩, -⟩ := neuter_keeps_place hread
  have hversion : bytes.take 4 = Network.main.privateLabel.version.toBytes := by
    rw [← Payload.toBytes_eq_of_text_eq (decode_eq_ok_iff.1 hdecode).1 hbytes]
    exact Payload.take_toBytes _
  obtain rfl := hneuters.network_eq .main hversion
  exact ⟨_, hread, rfl, hneuters.length_text, hneuters.letters⟩

namespace Network

theorem exists_letters (network : Network) :
    ∃ c, network.privateLabel.letters = [c, 'p', 'r', 'v'] ∧
      network.publicLabel.letters = [c, 'p', 'u', 'b'] := by
  cases network <;> exact ⟨_, rfl, rfl⟩

theorem ofPrivate_eq_main {label : Label} (h : ∀ network : Network, network.privateLabel ≠ label) :
    ofPrivate label = main := by
  rw [ofPrivate, List.find?_eq_none.2 (fun network _ ↦ by simpa using h network)]
  rfl

end Network

/-- The public half's text begins with the private key's letter just if the version is a known
network's, or the letter is the main network's, which every other key is moved to. -/
theorem PrivateNode.neuter_keeps_letter_iff {text : String} {node : PrivateNode}
    (h : ofText text = .ok node) :
    ∃ c bytes, c.isAlpha ∧ (Text.trim text).toList.take 4 = [c, 'p', 'r', 'v'] ∧
      Base58.decodeCheck (Text.trim text) = .ok bytes ∧
      (node.neuter.text.toList.take 4 = [c, 'p', 'u', 'b'] ↔
        c = 'x' ∨ ∃ network : Network, bytes.take 4 = network.privateLabel.version.toBytes) ∧
      (node.neuter.text.toList.take 4 ≠ [c, 'p', 'u', 'b'] →
        node.neuter.text.toList.take 4 = ['x', 'p', 'u', 'b']) := by
  obtain ⟨payload, hp, hof⟩ := ofText_eq_ok_iff.1 h
  obtain ⟨hprivate, -, hlabel, -⟩ := ofPayload_eq_ok_iff.1 hof
  obtain ⟨htext, hletters, halpha⟩ := decode_eq_ok_iff.1 hp
  obtain ⟨c, hc⟩ := hprivate.exists_letters
  have hshown : node.neuter.text.toList.take 4 =
      (Network.ofPrivate payload.label).publicLabel.letters :=
    (Network.take_text _ rfl).trans (by rw [hlabel])
  refine ⟨c, payload.toBytes, by simpa [hc] using halpha, hletters.symm.trans hc,
    Base58.decodeCheck_eq_ok_iff.2 htext.symm, ?_⟩
  rw [hshown, payload.take_toBytes]
  by_cases hknown : ∃ network : Network,
      payload.label.version.toBytes = network.privateLabel.version.toBytes
  · obtain ⟨network, hv⟩ := hknown
    obtain ⟨letter, hprv, hpub⟩ := network.exists_letters
    rw [Network.label_eq_of_decode hp (Block.ext hv), hprv] at hc
    obtain rfl : letter = c := (List.cons.inj hc).1
    rw [Network.ofPrivate_eq_of_decode hp (Block.ext hv), hpub]
    exact ⟨iff_of_true rfl (.inr ⟨network, hv⟩), fun hne ↦ absurd rfl hne⟩
  · have hmain : Network.ofPrivate payload.label = .main := by
      apply Network.ofPrivate_eq_main
      intro network hn
      exact hknown ⟨network, by rw [hn]⟩
    rw [hmain]
    refine ⟨⟨?_, ?_⟩, fun _ ↦ rfl⟩
    · intro hkept
      exact .inl (List.cons.inj hkept).1.symm
    · rintro (rfl | hother)
      · rfl
      · exact absurd hother hknown

theorem PrivateNode.ofText_of_decode {text : String} {payload : Payload} {k : Scalar}
    (hp : decode (Text.trim text) = .ok payload) (hprivate : payload.label.IsPrivate)
    (hkey : payload.key.toBytes = 0 :: k.toBytes) :
    ofText text = .ok ⟨payload.label, payload.place, .ofScalar k⟩ :=
  ofText_eq_ok_iff.2 ⟨payload, hp, ofPayload_eq_ok_iff.2 ⟨hprivate, hkey, rfl, rfl⟩⟩

theorem PrivateNode.neuter_keeps_letter_iff_native_segwit :
    ∃ node, ofText (" " ++ ("zprvAWgYBBk7JR8GjzqSzmunMCS7dAbwpYTCs1YUMDXqduMA5JFHZ" ++
        "3iX5s2UkAR6vBdcCYYa1S5o1fVLrKsrnpCQ4WpUd6aVUWP1bS2Yy5DoaKv") ++ "\n") = .ok node ∧
      node.neuter.text.toList.take 4 = ['z', 'p', 'u', 'b'] := by
  have hdecode : decode (Text.trim (" " ++ ("zprvAWgYBBk7JR8GjzqSzmunMCS7dAbwpYTCs1YUMDXqduMA5" ++
      "JFHZ3iX5s2UkAR6vBdcCYYa1S5o1fVLrKsrnpCQ4WpUd6aVUWP1bS2Yy5DoaKv") ++ "\n")) =
      .ok ⟨Network.nativeSegwit.privateLabel, ⟨0, .ofNat 4 0, .ofNat 4 0,
        .ofNat 32 0x873dff81c02f525623fd1fe5167eac3a55a049de3d314bb42ee227ffed37d508⟩,
        .ofNat 33 0xe8f32e723decf4051aefac8e2c93c9c5b214313817cdb01a1494b917c8436b35⟩ :=
    decode_trim_between (by decide +kernel) (by decide) (by decide) (by decide) (by decide)
  have hread := ofText_of_decode hdecode rfl
    (k := ⟨0xe8f32e723decf4051aefac8e2c93c9c5b214313817cdb01a1494b917c8436b35,
      by decide, by decide⟩) (by decide)
  obtain ⟨c, bytes, -, hc, hbytes, hkept, -⟩ := neuter_keeps_letter_iff hread
  obtain ⟨htext, hletters, -⟩ := decode_eq_ok_iff.1 hdecode
  obtain rfl : 'z' = c := (List.cons.inj (hletters.trans hc)).1
  refine ⟨_, hread, hkept.2 (.inr ⟨.nativeSegwit, ?_⟩)⟩
  rw [← Payload.toBytes_eq_of_text_eq htext hbytes]
  exact Payload.take_toBytes _

/-- A key of the segwit test network, which is not among the known ones, ends up on the main one. -/
theorem PrivateNode.neuter_leaves_segwit_test_network :
    ∃ node, ofText ("uprv8tXDerPXZ1QsVWsrpyyfJkxbmKsi7SViHSwNSF4QjsTkooB9H" ++
        "kthyYjne8dAveN1ALxYG46ziMibRtp3CL8L5LQUHQ6NYxHaEoiL29kHzK1") = .ok node ∧
      node.neuter.text.toList.take 4 = ['x', 'p', 'u', 'b'] := by
  have hdecode : decode (Text.trim ("uprv8tXDerPXZ1QsVWsrpyyfJkxbmKsi7SViHSwNSF4QjsTkooB9H" ++
      "kthyYjne8dAveN1ALxYG46ziMibRtp3CL8L5LQUHQ6NYxHaEoiL29kHzK1")) =
      .ok ⟨⟨['u', 'p', 'r', 'v'], .ofNat 4 0x044a4e28⟩, ⟨0, .ofNat 4 0, .ofNat 4 0,
        .ofNat 32 0x873dff81c02f525623fd1fe5167eac3a55a049de3d314bb42ee227ffed37d508⟩,
        .ofNat 33 0xe8f32e723decf4051aefac8e2c93c9c5b214313817cdb01a1494b917c8436b35⟩ :=
    decode_trim (by decide +kernel) (by decide) (by decide)
  have hread := ofText_of_decode hdecode rfl
    (k := ⟨0xe8f32e723decf4051aefac8e2c93c9c5b214313817cdb01a1494b917c8436b35,
      by decide, by decide⟩) (by decide)
  exact ⟨_, hread, Network.take_text .main rfl⟩

end ExtendedKey

end RequestAuth
