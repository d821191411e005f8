import RequestAuth.Outcome
import RequestAuth.Proofs.Encoding

namespace RequestAuth

namespace Radix

theorem length_digits_le {b n m : ℕ} (hb : 1 < b) (h : n < b ^ m) : (digits b n).length ≤ m := by
  induction m generalizing n with
  | zero =>
    obtain rfl : n = 0 := by simpa using h
    rw [digits_zero, List.length_nil]
  | succ m ih =>
    rcases Nat.eq_zero_or_pos n with rfl | hn
    · simp [digits_zero]
    · have hd : n / b < b ^ m := Nat.div_lt_of_lt_mul (by rwa [Nat.pow_succ'] at h)
      rw [digits_of_pos hb hn, List.length_append, List.length_singleton]
      exact Nat.add_le_add_right (ih hd) 1

end Radix

namespace Bytes

theorem toNat_replicate_zero (k : ℕ) : toNat (List.replicate k 0) = 0 := by
  rw [toNat, Radix.value_eq_zero_iff (by decide)]
  simp

theorem map_toNat_shortest (n : ℕ) : (shortest n).map UInt8.toNat = Radix.digits 256 n := by
  rw [shortest, List.map_map]
  refine (List.map_congr_left fun d hd ↦ ?_).trans (List.map_id _)
  have hlt : d < 256 := Radix.lt_of_mem_digits hd
  rw [Function.comp_apply, UInt8.toNat_ofNat', Nat.mod_eq_of_lt hlt]
  rfl

theorem toNat_shortest (n : ℕ) : toNat (shortest n) = n := by
  rw [toNat, map_toNat_shortest, Radix.value_digits (by decide)]

theorem takeWhile_shortest (n : ℕ) : (shortest n).takeWhile (· == 0) = [] := by
  have h := Radix.digits_takeWhile_zero (b := 256) (by decide) n
  rw [← map_toNat_shortest, List.takeWhile_map, List.map_eq_nil_iff] at h
  refine Eq.trans ?_ h
  congr 1
  funext u
  simp [← UInt8.toNat_inj]

end Bytes

namespace Base58

theorem lt_and_digitChar_of_digitValue? {c : Char} {d : ℕ} (h : digitValue? c = some d) :
    d < 58 ∧ digitChar d = c := by
  rw [digitValue?, List.idxOf?, List.findIdx?_eq_some_iff_getElem] at h
  obtain ⟨hd, hc, -⟩ := h
  refine ⟨hd.trans_eq (by decide), ?_⟩
  rw [digitChar, List.getD_eq_getElem?_getD, List.getElem?_eq_getElem hd, Option.getD_some]
  simpa using hc

theorem eq_map_of_digitValues {position : ℕ} {cs : List Char} {ds : List ℕ}
    (h : digitValues position cs = .ok ds) : cs = ds.map digitChar ∧ ∀ d ∈ ds, d < 58 := by
  induction cs generalizing position ds with
  | nil =>
    cases h
    exact ⟨rfl, by simp⟩
  | cons c cs ih =>
    rw [digitValues] at h
    split at h
    · cases h
    · split at h
      · cases h
      · next d hd =>
        obtain ⟨rest, hr, rfl⟩ := exists_of_map_eq_ok h
        obtain ⟨hlt, hc⟩ := lt_and_digitChar_of_digitValue? hd
        obtain ⟨hcs, hrest⟩ := ih hr
        refine ⟨by rw [List.map_cons, hc, ← hcs], ?_⟩
        simpa using ⟨hlt, hrest⟩

theorem digitList_bytes {ds : List ℕ} (h : ∀ d ∈ ds, d < 58) :
    digitList ((ds.takeWhile (· == 0)).map (fun _ ↦ 0) ++
      Bytes.shortest (Radix.value 58 ds)) = ds := by
  have hz : ∀ u ∈ (ds.takeWhile (· == 0)).map (fun _ ↦ (0 : UInt8)), (u == 0) = true := by simp
  have hnat : Bytes.toNat ((ds.takeWhile (· == 0)).map (fun _ ↦ 0) ++
      Bytes.shortest (Radix.value 58 ds)) = Radix.value 58 ds := by
    rw [List.map_const', Bytes.toNat_append, Bytes.toNat_replicate_zero, Bytes.toNat_shortest,
      Nat.zero_mul, Nat.zero_add]
  rw [digitList, hnat, List.takeWhile_append_of_pos hz, Bytes.takeWhile_shortest, List.append_nil,
    List.length_map, Radix.digits_value (by decide) h, replicate_length_takeWhile,
    List.takeWhile_append_dropWhile]

theorem decode_eq_ok_iff {text : String} {bytes : Bytes} :
    decode text = .ok bytes ↔ text = encode bytes := by
  constructor
  · intro h
    obtain ⟨ds, hds, h⟩ := exists_of_bind_eq_ok h
    obtain ⟨hcs, hlt⟩ := eq_map_of_digitValues hds
    cases h
    rw [encode, encodeChars_eq_map, digitList_bytes hlt, ← hcs, String.ofList_toList]
  · rintro rfl
    exact decode_encode bytes

theorem eq_append_of_splitCheck {bytes payload : Bytes} (h : splitCheck bytes = .ok payload) :
    bytes = payload ++ checksum payload := by
  rw [splitCheck] at h
  split at h
  · cases h
  · dsimp only at h
    split at h
    · next hc =>
      cases h
      rw [hc, List.take_append_drop]
    · cases h

theorem decodeCheck_eq_ok_iff {text : String} {payload : Bytes} :
    decodeCheck text = .ok payload ↔ text = encodeCheck payload := by
  constructor
  · intro h
    obtain ⟨bytes, hb, hs⟩ := exists_of_bind_eq_ok h
    rw [decode_eq_ok_iff.1 hb, eq_append_of_splitCheck hs, encodeCheck]
  · rintro rfl
    exact decodeCheck_encodeCheck payload

theorem length_encode_le {bytes : Bytes} {m : ℕ} (h : bytes.takeWhile (· == 0) = [])
    (hm : 256 ^ bytes.length ≤ 58 ^ m) : (encode bytes).length ≤ m := by
  rw [encode, String.length_ofList, encodeChars_eq_map, List.length_map, digitList, h,
    List.length_nil, List.replicate_zero, List.nil_append]
  exact Radix.length_digits_le (by decide) ((Bytes.toNat_lt bytes).trans_le hm)

end Base58

namespace Bytes

theorem utf8EncodeChar_ofNat : ∀ k < 128,
    String.utf8EncodeChar (Char.ofNat k) = [UInt8.ofNat k] := by
  decide +kernel

theorem utf8EncodeChar_of_ascii {c : Char} (h : c.toNat < 128) :
    String.utf8EncodeChar c = [UInt8.ofNat c.toNat] := by
  have hc := utf8EncodeChar_ofNat c.toNat h
  rwa [Char.ofNat_toNat] at hc

theorem toList_of_ascii {text : String} (h : ∀ u ∈ ofText text, u.toNat < 128) :
    text.toList = (ofText text).map (fun u ↦ Char.ofNat u.toNat) := by
  have hb : ofText (String.ofList ((ofText text).map (fun u ↦ Char.ofNat u.toNat))) =
      ofText text := by
    generalize ofText text = bytes at h
    rw [ofText_ofList]
    induction bytes with
    | nil => rfl
    | cons u bytes ih =>
      have hu := utf8EncodeChar_ofNat u.toNat (h u (by simp))
      rw [UInt8.ofNat_toNat] at hu
      rw [List.map_cons, List.flatMap_cons, hu, ih (fun v hv ↦ h v (by simp [hv]))]
      rfl
  rw [← String.toList_ofList (l := (ofText text).map _), ofText_injective hb]

end Bytes

namespace Hex

theorem digit_of_digitValue?_ofNat : ∀ k < 256, ∀ n ∈ digitValue? (UInt8.ofNat k),
    n < 16 ∧ k < 128 ∧ (Char.ofNat k).toLower = digit n := by
  decide +kernel

theorem digit_of_digitValue? {u : UInt8} {n : ℕ} (h : digitValue? u = some n) :
    n < 16 ∧ u.toNat < 128 ∧ (Char.ofNat u.toNat).toLower = digit n := by
  apply digit_of_digitValue?_ofNat u.toNat u.toNat_lt
  rwa [UInt8.ofNat_toNat]

theorem digitValue?_of_toLower_ofNat : ∀ k < 128, ∀ n < 16, (Char.ofNat k).toLower = digit n →
    digitValue? (UInt8.ofNat k) = some n := by
  decide +kernel

theorem toNat_lt_of_toLower {c : Char} {n : ℕ} (hn : n < 16) (h : c.toLower = digit n) :
    c.toNat < 128 := by
  by_cases hu : 65 ≤ c.val ∧ c.val ≤ 90
  · have hz : c.toNat ≤ 90 := hu.2
    omega
  · have hc : c.toLower = c := dif_neg hu
    have hdigit : ∀ n < 16, (digit n).toNat < 128 := by decide
    rw [← hc, h]
    exact hdigit n hn

theorem utf8EncodeChar_of_toLower {c : Char} {n : ℕ} (hn : n < 16) (h : c.toLower = digit n) :
    ∃ u, String.utf8EncodeChar c = [u] ∧ digitValue? u = some n := by
  have hascii := toNat_lt_of_toLower hn h
  refine ⟨UInt8.ofNat c.toNat, Bytes.utf8EncodeChar_of_ascii hascii, ?_⟩
  exact digitValue?_of_toLower_ofNat c.toNat hascii n hn (by rwa [Char.ofNat_toNat])

theorem encodeChars_cons_ofNat {high low : ℕ} (hh : high < 16) (hl : low < 16) (bytes : Bytes) :
    encodeChars (UInt8.ofNat (16 * high + low) :: bytes) =
      digit high :: digit low :: encodeChars bytes := by
  have hu : (UInt8.ofNat (16 * high + low)).toNat = 16 * high + low :=
    UInt8.toNat_ofNat_of_lt' (by rw [UInt8.size]; omega)
  rw [encodeChars_cons, hu, show (16 * high + low) / 16 = high by omega,
    show (16 * high + low) % 16 = low by omega]

theorem toLower_of_decodePairs {position : ℕ} {text bytes : Bytes} (he : text.length % 2 = 0)
    (h : decodePairs position text = .ok bytes) :
    (∀ u ∈ text, u.toNat < 128) ∧
      text.map (fun u ↦ (Char.ofNat u.toNat).toLower) = encodeChars bytes := by
  match text, he with
  | [], _ =>
    cases h
    exact ⟨by simp, rfl⟩
  | [_], he => cases he
  | high :: low :: rest, he =>
    rw [decodePairs] at h
    split at h
    · cases h
    · cases h
    · next a b ha hb =>
      obtain ⟨tail, hr, rfl⟩ := exists_of_map_eq_ok h
      obtain ⟨hlt, hascii, hhigh⟩ := digit_of_digitValue? ha
      obtain ⟨hlt', hascii', hlow⟩ := digit_of_digitValue? hb
      have he' : rest.length % 2 = 0 := by
        rw [List.length_cons, List.length_cons] at he
        omega
      obtain ⟨hrest, hmap⟩ := toLower_of_decodePairs he' hr
      refine ⟨by simpa using ⟨hascii, hascii', hrest⟩, ?_⟩
      rw [encodeChars_cons_ofNat hlt hlt', ← hmap, ← hhigh, ← hlow, List.map_cons, List.map_cons]

theorem decodePairs_of_toLower (position : ℕ) {cs : List Char} {bytes : Bytes}
    (h : cs.map Char.toLower = encodeChars bytes) :
    (cs.flatMap String.utf8EncodeChar).length = 2 * bytes.length ∧
      decodePairs position (cs.flatMap String.utf8EncodeChar) = .ok bytes := by
  induction bytes generalizing position cs with
  | nil =>
    rw [List.map_eq_nil_iff.1 h]
    exact ⟨rfl, rfl⟩
  | cons u bytes ih =>
    rw [encodeChars_cons] at h
    obtain ⟨high, cs, rfl, hh, h⟩ := List.map_eq_cons_iff.1 h
    obtain ⟨low, cs, rfl, hl, h⟩ := List.map_eq_cons_iff.1 h
    have hu := u.toNat_lt
    obtain ⟨a, ha, hav⟩ := utf8EncodeChar_of_toLower (by omega) hh
    obtain ⟨b, hb, hbv⟩ := utf8EncodeChar_of_toLower (by omega) hl
    obtain ⟨hlen, hrest⟩ := ih (position + 2) h
    rw [List.flatMap_cons, List.flatMap_cons, ha, hb]
    refine ⟨by simp [hlen]; omega, ?_⟩
    simp only [List.singleton_append, decodePairs, hav, hbv, hrest, Nat.div_add_mod,
      UInt8.ofNat_toNat]
    rfl

theorem decode_eq_ok_iff {text : String} {bytes : Bytes} :
    decode text = .ok bytes ↔ text.map Char.toLower = encode bytes := by
  rw [decode, decodeBytes]
  constructor
  · intro h
    split at h
    · cases h
    · obtain ⟨hascii, hd⟩ := toLower_of_decodePairs (by omega) h
      rw [← String.toList_inj, String.toList_map, Bytes.toList_of_ascii hascii, List.map_map,
        encode, String.toList_ofList, ← hd]
      rfl
  · intro h
    have hc : text.toList.map Char.toLower = encodeChars bytes := by
      rw [← String.toList_map, h, encode, String.toList_ofList]
    obtain ⟨hlen, hd⟩ := decodePairs_of_toLower 0 hc
    rw [← Bytes.ofText_ofList, String.ofList_toList] at hlen hd
    rw [if_neg (by omega), hd]

end Hex

end RequestAuth
