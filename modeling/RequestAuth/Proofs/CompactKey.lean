import RequestAuth.Proofs.PublicKeyEquality

namespace RequestAuth

namespace Base58

theorem eq_of_map_digitChar_eq {xs ys : List ℕ} (hx : ∀ d ∈ xs, d < 58) (hy : ∀ d ∈ ys, d < 58)
    (h : xs.map digitChar = ys.map digitChar) : xs = ys := by
  have hread := digitValues_digitChar 0 hx
  rw [h, digitValues_digitChar 0 hy] at hread
  exact (Except.ok.inj hread).symm

theorem exists_div_pow_of_take {bytes : Bytes} {d : ℕ} {ds : List ℕ} (hd : d ≠ 0)
    (hlt : ∀ e ∈ d :: ds, e < 58)
    (h : (encode bytes).toList.take (ds.length + 1) = (d :: ds).map digitChar) :
    bytes.takeWhile (· == 0) = [] ∧
      ∃ k, Bytes.toNat bytes / 58 ^ k = Radix.value 58 (d :: ds) := by
  rw [encode, String.toList_ofList, encodeChars_eq_map, ← List.map_take] at h
  have htake := eq_of_map_digitChar_eq
    (fun e he ↦ digitList_lt bytes e (List.mem_of_mem_take he)) hlt h
  obtain ⟨low, hlow⟩ : ∃ low, digitList bytes = d :: ds ++ low :=
    ⟨_, by rw [← htake, List.take_append_drop]⟩
  have hzeros := takeWhile_digitList bytes
  rw [hlow, List.cons_append, List.takeWhile_cons_of_neg (by simpa using hd), eq_comm,
    List.replicate_eq_nil_iff, List.length_eq_zero_iff] at hzeros
  refine ⟨hzeros, low.length, Radix.div_pow_of_digits_eq_append (by decide) ?_⟩
  rw [← hlow, digitList, hzeros]
  rfl

end Base58

namespace ExtendedKey

open Secp256k1

/-- The number that the letters of public keys write, by the first one's digit. -/
def leading (d : ℕ) : ℕ := Radix.value 58 [d, 47, 52, 34]

theorem leading_eq (d : ℕ) : leading d = d * 58 ^ 3 + 161158 := by
  rw [leading, Radix.value]
  simp only [List.foldl_cons, List.foldl_nil]
  omega

theorem exponent_of_div {d k n : ℕ} (hd : 9 ≤ d) (hd' : d < 58) (hlow : 256 ^ 81 ≤ n)
    (hhigh : n < 256 ^ 82) (h : n / 58 ^ k = leading d) : k = 107 ∨ k = 108 := by
  have hpos : 0 < 58 ^ k := Nat.pow_pos (by decide)
  have hletters : 9 * 58 ^ 3 ≤ leading d ∧ leading d + 1 ≤ 58 ^ 4 := by
    rw [leading_eq]
    omega
  rcases Nat.lt_or_ge 108 k with hk | hk
  · have hpow : 58 ^ 109 ≤ 58 ^ k := Nat.pow_le_pow_right (by decide) hk
    have hle : 9 * 58 ^ 3 * 58 ^ 109 ≤ n := calc
      9 * 58 ^ 3 * 58 ^ 109 ≤ leading d * 58 ^ k := Nat.mul_le_mul hletters.1 hpow
      _ ≤ n := by rw [← h]; exact Nat.div_mul_le_self n (58 ^ k)
    have habove : 256 ^ 82 ≤ 9 * 58 ^ 3 * 58 ^ 109 := by decide
    omega
  · rcases Nat.lt_or_ge k 107 with hk' | hk'
    · have hpow : 58 ^ k ≤ 58 ^ 106 := Nat.pow_le_pow_right (by decide) (by omega)
      have hlt : n < 58 ^ 4 * 58 ^ 106 := calc
        n < (leading d + 1) * 58 ^ k := by
          rw [← h, Nat.mul_comm]
          exact Nat.lt_mul_div_succ n hpos
        _ ≤ 58 ^ 4 * 58 ^ 106 := Nat.mul_le_mul hletters.2 hpow
      have hbelow : 58 ^ 4 * 58 ^ 106 ≤ 256 ^ 81 := by decide
      omega
    · omega

/-- All but the key of the payloads whose texts do not come back. With a compact key the number is
just past one where letters begin, and with the compressed key just short of it. -/
def brink : Bytes :=
  Bytes.ofNat 4 0x04b24745 ++ Bytes.ofNat 9 0x4f33d2674b1b35492b ++
    Bytes.ofNat 32 0xbb3daca70be5856026a2e2e77692b4442c3816878d877c7072051fc953d472b6

theorem toNat_brink : Bytes.toNat brink =
    0x04b247454f33d2674b1b35492bbb3daca70be5856026a2e2e77692b4442c3816878d877c7072051fc953d472b6 :=
  by decide

/-- Of the numbers where letters begin, just one has a byte from two to five in the tag's place. -/
theorem eq_of_tag_at_boundary : ∀ d < 58, 9 ≤ d → ∀ k ∈ [107, 108],
    2 ≤ leading d * 58 ^ k / 256 ^ 36 % 256 → leading d * 58 ^ k / 256 ^ 36 % 256 ≤ 5 →
      leading d * 58 ^ k / 256 ^ 36 = Bytes.toNat brink * 256 + 5 := by
  rw [toNat_brink]
  decide +kernel

/-- The number of a compact key keeps its letters when the tag goes down to two, whatever follows
the tag. -/
theorem div_pow_of_ne_brink {d k head low low' : ℕ} (hd : 9 ≤ d) (hd' : d < 58)
    (hk : k ∈ [107, 108]) (hlow : low < 256 ^ 36) (hlow' : low' < 256 ^ 36)
    (hhead : head ≠ Bytes.toNat brink)
    (h : ((head * 256 + 5) * 256 ^ 36 + low) / 58 ^ k = leading d) :
    ((head * 256 + 2) * 256 ^ 36 + low') / 58 ^ k = leading d := by
  have hpos : 0 < 58 ^ k := Nat.pow_pos (by decide)
  have hbegin := (Nat.le_div_iff_mul_le hpos).1 h.ge
  have hend := (Nat.div_lt_iff_lt_mul hpos).1 (Nat.lt_succ_of_le h.le)
  have hless : (head * 256 + 2) * 256 ^ 36 + low' < (head * 256 + 5) * 256 ^ 36 + low := calc
    _ < (head * 256 + 2) * 256 ^ 36 + 256 ^ 36 := Nat.add_lt_add_left hlow' _
    _ = (head * 256 + 3) * 256 ^ 36 := by ring
    _ ≤ (head * 256 + 5) * 256 ^ 36 := Nat.mul_le_mul_right _ (by omega)
    _ ≤ (head * 256 + 5) * 256 ^ 36 + low := Nat.le_add_right _ _
  apply Nat.div_eq_of_lt_le _ (hless.trans hend)
  by_contra hpassed
  have hafter : head * 256 + 2 ≤ leading d * 58 ^ k / 256 ^ 36 := by
    rw [Nat.le_div_iff_mul_le (by decide)]
    exact (Nat.le_add_right _ _).trans (Nat.le_of_not_le hpassed)
  have hbefore : leading d * 58 ^ k / 256 ^ 36 < head * 256 + 6 := by
    rw [Nat.div_lt_iff_lt_mul (by decide)]
    calc _ ≤ (head * 256 + 5) * 256 ^ 36 + low := hbegin
      _ < (head * 256 + 5) * 256 ^ 36 + 256 ^ 36 := Nat.add_lt_add_left hlow _
      _ = (head * 256 + 6) * 256 ^ 36 := by ring
  have hboundary := eq_of_tag_at_boundary d hd' hd k hk
  generalize leading d * 58 ^ k / 256 ^ 36 = boundary at hafter hbefore hboundary
  have hnear := hboundary (by omega) (by omega)
  omega

namespace Payload

def head (payload : Payload) : Bytes := payload.label.version.toBytes ++ payload.place.toBytes

@[simp] theorem length_head (payload : Payload) : payload.head.length = 45 := by simp [head]

theorem head_ne_nil (payload : Payload) : payload.head ≠ [] :=
  List.ne_nil_of_length_eq_add_one payload.length_head

theorem take_toBytes_head (payload : Payload) : payload.toBytes.take 45 = payload.head :=
  List.take_left' payload.length_head

def checked (payload : Payload) : Bytes := payload.toBytes ++ Base58.checksum payload.toBytes

@[simp] theorem length_checked (payload : Payload) : payload.checked.length = 82 := by
  simp [checked, length]

theorem takeWhile_checked (payload : Payload) :
    payload.checked.takeWhile (· == 0) = [] ↔ payload.head.takeWhile (· == 0) = [] := by
  rw [checked, toBytes, ← head, List.append_assoc]
  exact takeWhile_append_eq_nil_iff payload.head_ne_nil _

theorem exists_toNat_checked {payload : Payload} {tag : UInt8} {rest : Bytes}
    (h : payload.key.toBytes = tag :: rest) :
    ∃ low < 256 ^ 36, Bytes.toNat payload.checked =
      (Bytes.toNat payload.head * 256 + tag.toNat) * 256 ^ 36 + low := by
  have hrest : (rest ++ Base58.checksum payload.toBytes).length = 36 := by
    have hkey := payload.key.length_toBytes
    rw [h, List.length_cons] at hkey
    rw [List.length_append, Base58.length_checksum]
    omega
  have hbytes : payload.checked =
      payload.head ++ [tag] ++ (rest ++ Base58.checksum payload.toBytes) := by
    rw [checked, toBytes, ← head, h]
    simp
  refine ⟨_, hrest ▸ Bytes.toNat_lt (rest ++ Base58.checksum payload.toBytes), ?_⟩
  rw [hbytes, Bytes.toNat_append, Bytes.toNat_append, Bytes.toNat_singleton, hrest,
    List.length_singleton, Nat.pow_one]

theorem take_text {payload : Payload} {d : ℕ} {ds : List ℕ} {k : ℕ} (hd : d ≠ 0)
    (hlt : ∀ e ∈ d :: ds, e < 58) (hzero : payload.head.takeWhile (· == 0) = [])
    (h : Bytes.toNat payload.checked / 58 ^ k = Radix.value 58 (d :: ds)) :
    payload.text.toList.take (ds.length + 1) = (d :: ds).map Base58.digitChar := by
  have hpos : 0 < Radix.value 58 (d :: ds) := Nat.pos_of_ne_zero fun h0 ↦
    hd ((Radix.value_eq_zero_iff (by decide)).1 h0 d (by simp))
  obtain ⟨rest, -, ht⟩ :=
    Base58.exists_encode_eq_append (payload.takeWhile_checked.2 hzero) h hpos
  rw [Radix.digits_value (by decide) hlt, List.dropWhile_cons_of_neg (by simpa using hd)] at ht
  exact (congrArg (List.take _) ht).trans (List.take_left' (by simp))

variable {p q : Payload} {rest rest' : Bytes}

theorem exists_div_pow_of_letters {d : ℕ} (hd : 9 ≤ d) (hd' : d < 58)
    (hletters : p.text.toList.take 4 = [d, 47, 52, 34].map Base58.digitChar) :
    p.head.takeWhile (· == 0) = [] ∧
      ∃ k ∈ [107, 108], Bytes.toNat p.checked / 58 ^ k = leading d := by
  have hlt : ∀ e ∈ [d, 47, 52, 34], e < 58 := by simpa using hd'
  obtain ⟨hzero, k, hk⟩ := Base58.exists_div_pow_of_take (by omega) hlt hletters
  have hsize : Bytes.toNat p.checked < 256 ^ 82 := p.length_checked ▸ Bytes.toNat_lt p.checked
  refine ⟨p.takeWhile_checked.1 hzero, k, ?_, hk⟩
  simpa using exponent_of_div hd hd' (Bytes.pow_le_toNat p.length_checked hzero) hsize hk

/-- The letters of a public key with a compact key stay, unless it is on the brink. -/
theorem take_text_of_compact {d : ℕ} (hd : 9 ≤ d) (hd' : d < 58)
    (hp : p.key.toBytes = 5 :: rest) (hq : q.key.toBytes = 2 :: rest') (hhead : q.head = p.head)
    (hletters : p.text.toList.take 4 = [d, 47, 52, 34].map Base58.digitChar)
    (hbrink : p.head ≠ brink) : q.text.toList.take 4 = p.text.toList.take 4 := by
  obtain ⟨hzero, k, hk, hdiv⟩ := exists_div_pow_of_letters hd hd' hletters
  obtain ⟨low, hlow, hn⟩ := exists_toNat_checked hp
  obtain ⟨low', hlow', hn'⟩ := exists_toNat_checked hq
  have hne : Bytes.toNat p.head ≠ Bytes.toNat brink := fun h ↦
    hbrink (Bytes.eq_of_toNat_eq (by simp [brink]) h)
  have hlt : ∀ e ∈ [d, 47, 52, 34], e < 58 := by simpa using hd'
  rw [hn] at hdiv
  have hdiv' := div_pow_of_ne_brink hd hd' hk hlow hlow' hne hdiv
  rw [hletters]
  refine take_text (by omega) hlt ?_ ((congrArg (· / 58 ^ k) hn').trans ?_)
  · rwa [hhead]
  · rw [hhead]
    exact hdiv'

theorem eq_of_compact_on_brink {d : ℕ} (hd : 9 ≤ d) (hd' : d < 58)
    (hp : p.key.toBytes = 5 :: rest) (hhead : p.head = brink)
    (hletters : p.text.toList.take 4 = [d, 47, 52, 34].map Base58.digitChar) : d = 57 := by
  obtain ⟨-, k, hk, hdiv⟩ := exists_div_pow_of_letters hd hd' hletters
  obtain ⟨low, hlow, hn⟩ := exists_toNat_checked hp
  rw [hn, hhead] at hdiv
  have hpos : 0 < 58 ^ k := Nat.pow_pos (by decide)
  have hbegin := (Nat.le_div_iff_mul_le hpos).1 hdiv.ge
  have hend := (Nat.div_lt_iff_lt_mul hpos).1 (Nat.lt_succ_of_le hdiv.le)
  have hbelow : (Bytes.toNat brink * 256 + 5) * 256 ^ 36 + low <
      (Bytes.toNat brink * 256 + 6) * 256 ^ 36 := by
    rw [Nat.succ_mul _ (256 ^ 36)]
    exact Nat.add_lt_add_left hlow _
  have hcases : k = 107 ∨ k = 108 := by simpa using hk
  rcases hcases with rfl | rfl
  · have habove : (leading 57 - 1) * 58 ^ 107 ≤ (Bytes.toNat brink * 256 + 5) * 256 ^ 36 := by
      rw [toNat_brink]
      decide
    have hlower : leading 57 - 1 < leading d + 1 :=
      Nat.lt_of_mul_lt_mul_right ((habove.trans (Nat.le_add_right _ low)).trans_lt hend)
    have hupper : leading d < leading 57 + 1 := by
      refine Nat.lt_of_mul_lt_mul_right (hbegin.trans_lt (hbelow.trans_le ?_))
      rw [toNat_brink]
      decide
    simp only [leading_eq] at hupper hlower
    omega
  · have hupper : leading d < leading 9 := by
      refine Nat.lt_of_mul_lt_mul_right (hbegin.trans_lt (hbelow.trans_le ?_))
      rw [toNat_brink]
      decide
    simp only [leading_eq] at hupper
    omega

theorem take_text_of_brink (hq : q.key.toBytes = 2 :: rest') (hhead : q.head = brink) :
    q.text.toList.take 4 = ['z', 'p', 'u', 'a'] := by
  obtain ⟨low, hlow, hn⟩ := exists_toNat_checked hq
  have hdiv : Bytes.toNat q.checked / 58 ^ 107 = Radix.value 58 [57, 47, 52, 33] := by
    rw [hn, hhead, toNat_brink]
    apply Nat.div_eq_of_lt_le
    · exact le_trans (by decide) (Nat.le_add_right _ _)
    · exact (Nat.add_lt_add_left hlow _).trans_le (by decide)
  exact take_text (by decide) (by decide) (by rw [hhead]; decide) hdiv

end Payload

theorem le_of_isAlpha_digitChar : ∀ d < 58, (Base58.digitChar d).isAlpha → 9 ≤ d := by decide

theorem exists_digit_of_decode {text : String} {payload : Payload}
    (h : decode text = .ok payload) (hpublic : payload.label.IsPublic) :
    ∃ d, 9 ≤ d ∧ d < 58 ∧
      payload.text.toList.take 4 = [d, 47, 52, 34].map Base58.digitChar := by
  obtain ⟨rfl, hletters, halpha⟩ := decode_eq_ok_iff.1 h
  obtain ⟨c, hc⟩ := hpublic.exists_letters
  have hmem : c ∈ payload.text.toList := by
    apply List.mem_of_mem_take (i := 4)
    rw [← hletters, hc]
    exact List.mem_cons_self
  rw [Payload.text, Base58.encodeCheck, Base58.encode, String.toList_ofList,
    Base58.encodeChars_eq_map] at hmem
  obtain ⟨d, hd, rfl⟩ := List.mem_map.1 hmem
  have hlt := Base58.digitList_lt _ d hd
  refine ⟨d, le_of_isAlpha_digitChar d hlt ?_, hlt, hletters.symm.trans hc⟩
  rw [hc, List.all_cons, Bool.and_eq_true] at halpha
  exact halpha.1

namespace PublicNode

theorem ofText_of_other_letters {payload : Payload} {letters : List Char}
    (h : payload.text.toList.take 4 = letters) (halpha : letters.all Char.isAlpha)
    (hpublic : letters.drop 1 ≠ ['p', 'u', 'b']) :
    ofText payload.text = .error (Malformed.notPublic letters).toFailure := by
  subst h
  rw [ofText, decodeTrimmed_text payload halpha]
  exact if_neg hpublic

/-- A node whose key was in compact form is read back from its own text, just as it is. Only the
texts of the nodes on the brink begin with other letters, and are refused. -/
theorem ofText_text_of_compact {text : String} {node : PublicNode} {bytes : Bytes}
    (h : ofText text = .ok node) (hb : Base58.decodeCheck (Text.trim text) = .ok bytes)
    (hcompact : (bytes.drop 45).head? = some 5) :
    (bytes.take 45 ≠ brink → ofText node.text = .ok node) ∧
    (bytes.take 45 = brink →
      (Text.trim text).toList.take 4 = ['z', 'p', 'u', 'b'] ∧
        node.text.toList.take 4 = ['z', 'p', 'u', 'a'] ∧
        ofText node.text = .error (Malformed.notPublic ['z', 'p', 'u', 'a']).toFailure) := by
  obtain ⟨payload, hp, hof⟩ := ofText_eq_ok_iff.1 h
  obtain ⟨hpublic, hkey, hlabel, hplace⟩ := ofPayload_eq_ok_iff.1 hof
  obtain ⟨htext, hown, halpha⟩ := decode_eq_ok_iff.1 hp
  obtain rfl := Payload.toBytes_eq_of_text_eq htext hb
  rw [payload.drop_toBytes] at hcompact
  rw [payload.take_toBytes_head]
  obtain ⟨rest, hrest⟩ := List.head?_eq_some_iff.1 hcompact
  have hwritten := PublicKey.ofCompressed?_eq_some_iff.1 hkey
  have hshown : node.toPayload.key.toBytes = 2 :: rest :=
    PublicKey.compressed_of_isWrittenAs_compact (hrest ▸ hwritten)
  have hhead : node.toPayload.head = payload.head := by
    rw [Payload.head, Payload.head, toPayload, hlabel, hplace]
  obtain ⟨d, hd, hd', hletters⟩ := exists_digit_of_decode hp hpublic
  constructor
  · intro hbrink
    have hkept := Payload.take_text_of_compact hd hd' hrest hshown hhead hletters hbrink
    apply ofText_text
    · rw [hlabel, hown, ← htext]
      exact hkept
    · rwa [hlabel]
    · rwa [hlabel]
    · exact hwritten.onCurve
  · intro hbrink
    have hother := Payload.take_text_of_brink hshown (hhead.trans hbrink)
    refine ⟨?_, hother, ofText_of_other_letters hother (by decide) (by decide)⟩
    obtain rfl := Payload.eq_of_compact_on_brink hd hd' hrest hbrink hletters
    rw [← htext, hletters]
    rfl

theorem ofText_text_of_compact_near_brink :
    ∃ node, ofText ("zpub111111111111111111111111111111111111111111111111111111" ++
        "119aCCPELfsHqdYrtdigTcSLvUskszb6ZjtyMH1Vh9LTNayvhixuN") = .ok node ∧
      ofText node.text = .ok node := by
  have htext : Payload.text ⟨⟨['z', 'p', 'u', 'b'], .ofNat 4 0x04b24745⟩,
      ⟨0x4f, .ofNat 4 0x33d2674b, .ofNat 4 0x1b35492b,
        .ofNat 32 0xbb3daca70be5856026a2e2e77692b4442c3816878d877c7072051fc953d472b7⟩,
      ⟨5 :: Bytes.ofNat 32 0x79be667ef9dcbbac55a06295ce870b07029bfcdb2dce28d959f2815b16f81798,
        rfl⟩⟩ =
      "zpub111111111111111111111111111111111111111111111111111111" ++
        "119aCCPELfsHqdYrtdigTcSLvUskszb6ZjtyMH1Vh9LTNayvhixuN" := by
    decide +kernel
  have hdecode := decode_trim htext (by decide) (by decide)
  have hread := ofText_of_decode hdecode rfl (PublicKey.isWrittenAs_generator (.inr rfl))
  have hbytes := Base58.decodeCheck_eq_ok_iff.2 (decode_eq_ok_iff.1 hdecode).1.symm
  refine ⟨_, hread, (ofText_text_of_compact hread hbytes ?_).1 ?_⟩
  · rw [Payload.drop_toBytes]
    rfl
  · rw [Payload.take_toBytes_head]
    decide

theorem ofText_text_on_brink :
    ∃ node bytes, ofText ("zpub111111111111111111111111111111111111111111111111111111" ++
        "1111ThvJfFKuGhxuTxBXpX9rmjDbSPg96PpZqFL8VwxDP8orn6UoL") = .ok node ∧
      Base58.decodeCheck ("zpub111111111111111111111111111111111111111111111111111111" ++
        "1111ThvJfFKuGhxuTxBXpX9rmjDbSPg96PpZqFL8VwxDP8orn6UoL") = .ok bytes ∧
      (bytes.drop 45).head? = some 5 ∧
      node.text = "zpuazzzzzzzzzzzzzzzzzzzzzzzzzzzzzzzzzzzzzzzzzzzzzzzzzzzzzz" ++
        "zzzudUPcK9mdF2ZSiqTnxXHtyQUFbEj2ZmTecvbgSFyFMyKvtqG1J" ∧
      ofText node.text = .error (Malformed.notPublic ['z', 'p', 'u', 'a']).toFailure := by
  have htext : Payload.text ⟨⟨['z', 'p', 'u', 'b'], .ofNat 4 0x04b24745⟩,
      ⟨0x4f, .ofNat 4 0x33d2674b, .ofNat 4 0x1b35492b,
        .ofNat 32 0xbb3daca70be5856026a2e2e77692b4442c3816878d877c7072051fc953d472b6⟩,
      ⟨5 :: Bytes.ofNat 32 0xf000000000000000000000000000000000000000000000000000000000000000,
        rfl⟩⟩ =
      "zpub111111111111111111111111111111111111111111111111111111" ++
        "1111ThvJfFKuGhxuTxBXpX9rmjDbSPg96PpZqFL8VwxDP8orn6UoL" := by
    decide +kernel
  have hx : (0xf000000000000000000000000000000000000000000000000000000000000000 : Coordinate).val =
    0xf000000000000000000000000000000000000000000000000000000000000000 := by decide
  have hkey : PublicKey.IsWrittenAs
      ⟨0xf000000000000000000000000000000000000000000000000000000000000000,
        0xd85bdeabdd9d14b027fb23c3c4f03cb7ff1aa3abfd1b3fadc087362e95a17a2a⟩
      (5 :: Bytes.ofNat 32 0xf000000000000000000000000000000000000000000000000000000000000000) := by
    rw [← hx]
    exact .even (.inr rfl) (by decide +kernel) (by decide)
  have hdecode := decode_trim htext (by decide) (by decide)
  have hread := ofText_of_decode hdecode rfl hkey
  refine ⟨_, _, hread, Base58.decodeCheck_eq_ok_iff.2 htext.symm, ?_, by decide +kernel, ?_⟩
  · rw [Payload.drop_toBytes]
    rfl
  · refine ofText_of_other_letters (Payload.take_text_of_brink
      (PublicKey.compressed_of_isWrittenAs_compact hkey) ?_) (by decide) (by decide)
    decide

end PublicNode

end ExtendedKey

end RequestAuth
