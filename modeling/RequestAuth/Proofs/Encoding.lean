import RequestAuth.Base58
import RequestAuth.Hex
import RequestAuth.Proofs.Positional

namespace RequestAuth

theorem injective_of_decode {α β ε : Type} {encode : α → β} {decode : β → Except ε α}
    (h : ∀ a, decode (encode a) = .ok a) : Function.Injective encode := by
  intro a b heq
  have hd := h a
  rw [heq, h b] at hd
  exact (Except.ok.inj hd).symm

namespace Bytes

theorem ofText_ofList (cs : List Char) :
    ofText (String.ofList cs) = cs.flatMap String.utf8EncodeChar := by
  rw [ofText, String.toByteArray_ofList, List.utf8Encode, List.toList_data_toByteArray]

theorem ofText_injective : Function.Injective ofText := by
  intro s t h
  apply String.toByteArray_inj.1
  exact ByteArray.ext (Array.toList_inj.1 h)

theorem toText?_ofText (text : String) : toText? (ofText text) = some text := by
  rw [toText?, ofText, Array.toArray_toList, String.fromUTF8?, dif_pos text.isValidUTF8]
  rfl

end Bytes

namespace Hex

def digitByte (n : ℕ) : UInt8 := (digit n).val.toUInt8

theorem utf8EncodeChar_digit : ∀ n < 16, String.utf8EncodeChar (digit n) = [digitByte n] := by
  decide

theorem digitValue?_digitByte : ∀ n < 16, digitValue? (digitByte n) = some n := by decide

theorem encodeChars_cons (u : UInt8) (bytes : Bytes) :
    encodeChars (u :: bytes) = digit (u.toNat / 16) :: digit (u.toNat % 16) :: encodeChars bytes :=
  rfl

@[simp] theorem length_encodeChars (bytes : Bytes) :
    (encodeChars bytes).length = 2 * bytes.length := by
  induction bytes with
  | nil => rfl
  | cons u bytes ih =>
    rw [encodeChars_cons, List.length_cons, List.length_cons, ih, List.length_cons]
    omega

theorem length_encode (bytes : Bytes) : (encode bytes).length = 2 * bytes.length := by
  rw [encode, String.length_ofList, length_encodeChars]

theorem encodeChars_append (a b : Bytes) : encodeChars (a ++ b) = encodeChars a ++ encodeChars b :=
  List.flatMap_append

theorem digit_mem : ∀ n < 16, digit n ∈ "0123456789abcdef".toList := by decide

theorem mem_of_mem_encodeChars {bytes : Bytes} {c : Char} (h : c ∈ encodeChars bytes) :
    c ∈ "0123456789abcdef".toList := by
  obtain ⟨u, -, hc⟩ := List.mem_flatMap.1 h
  have hu := u.toNat_lt
  have hc' : c = digit (u.toNat / 16) ∨ c = digit (u.toNat % 16) := by simpa using hc
  rcases hc' with rfl | rfl
  · exact digit_mem _ (by omega)
  · exact digit_mem _ (by omega)

def numeral (width n : ℕ) : List Char :=
  (List.range width).map (fun i ↦ digit (n / 16 ^ (width - 1 - i) % 16))

@[simp] theorem length_numeral (width n : ℕ) : (numeral width n).length = width := by
  rw [numeral, List.length_map, List.length_range]

theorem numeral_succ (width n : ℕ) :
    numeral (width + 1) n = numeral width (n / 16) ++ [digit (n % 16)] := by
  rw [numeral, List.range_succ, List.map_append, numeral]
  congr 1
  · apply List.map_congr_left
    intro i hi
    have hlt := List.mem_range.1 hi
    have he : width + 1 - 1 - i = width - 1 - i + 1 := by omega
    rw [Nat.div_div_eq_div_mul, ← Nat.pow_succ', he]
  · simp

theorem encodeChars_ofNat (width n : ℕ) :
    encodeChars (Bytes.ofNat width n) = numeral (2 * width) n := by
  induction width generalizing n with
  | zero => rfl
  | succ width ih =>
    have hd : n / 16 / 16 = n / 256 := Nat.div_div_eq_div_mul n 16 16
    have hu : (UInt8.ofNat n).toNat = n % 256 := UInt8.toNat_ofNat'
    rw [Bytes.ofNat_succ, encodeChars_append, ih, Nat.mul_succ, numeral_succ, numeral_succ, hd,
      List.append_assoc, encodeChars_cons, hu, show n % 256 / 16 = n / 16 % 16 by omega,
      show n % 256 % 16 = n % 16 by omega]
    rfl

theorem ofText_encode_cons (u : UInt8) (bytes : Bytes) :
    Bytes.ofText (encode (u :: bytes)) =
      digitByte (u.toNat / 16) :: digitByte (u.toNat % 16) :: Bytes.ofText (encode bytes) := by
  have hu := u.toNat_lt
  rw [encode, Bytes.ofText_ofList, encodeChars_cons, List.flatMap_cons, List.flatMap_cons,
    utf8EncodeChar_digit _ (by omega), utf8EncodeChar_digit _ (by omega), encode,
    Bytes.ofText_ofList]
  rfl

theorem length_ofText_encode (bytes : Bytes) :
    (Bytes.ofText (encode bytes)).length = 2 * bytes.length := by
  induction bytes with
  | nil => rfl
  | cons u bytes ih =>
    rw [ofText_encode_cons, List.length_cons, List.length_cons, ih, List.length_cons]
    omega

theorem decodePairs_encode (position : ℕ) (bytes : Bytes) :
    decodePairs position (Bytes.ofText (encode bytes)) = .ok bytes := by
  induction bytes generalizing position with
  | nil => rfl
  | cons u bytes ih =>
    have hu := u.toNat_lt
    rw [ofText_encode_cons, decodePairs, digitValue?_digitByte _ (by omega),
      digitValue?_digitByte _ (by omega)]
    simp only [ih, Nat.div_add_mod, UInt8.ofNat_toNat]
    rfl

theorem decode_encode (bytes : Bytes) : decode (encode bytes) = .ok bytes := by
  rw [decode, decodeBytes, length_ofText_encode, if_neg (by omega), decodePairs_encode]

theorem encode_injective : Function.Injective encode := injective_of_decode decode_encode

end Hex

namespace Base58

theorem digitChar_ascii : ∀ n < 58, ¬ 127 < (digitChar n).toNat := by decide

theorem digitValue?_digitChar : ∀ n < 58, digitValue? (digitChar n) = some n := by decide

theorem digitValues_digitChar (position : ℕ) {ds : List ℕ} (h : ∀ d ∈ ds, d < 58) :
    digitValues position (ds.map digitChar) = .ok ds := by
  induction ds generalizing position with
  | nil => rfl
  | cons d ds ih =>
    have hd := h d (by simp)
    rw [List.map_cons, digitValues, if_neg (digitChar_ascii d hd), digitValue?_digitChar d hd]
    simp only [ih (position + 1) (fun d' hd' ↦ h d' (by simp [hd']))]
    rfl

def digitList (bytes : Bytes) : List ℕ :=
  List.replicate (bytes.takeWhile (· == 0)).length 0 ++ Radix.digits 58 (Bytes.toNat bytes)

theorem encodeChars_eq_map (bytes : Bytes) :
    encodeChars bytes = (digitList bytes).map digitChar := by
  rw [encodeChars, digitList, List.map_append, List.map_replicate, List.map_const']
  rfl

theorem digitList_lt (bytes : Bytes) : ∀ d ∈ digitList bytes, d < 58 := by
  intro d hd
  rcases List.mem_append.1 hd with hd | hd
  · rw [List.eq_of_mem_replicate hd]
    decide
  · exact Radix.lt_of_mem_digits hd

theorem takeWhile_digitList (bytes : Bytes) :
    (digitList bytes).takeWhile (· == 0) =
      List.replicate (bytes.takeWhile (· == 0)).length 0 := by
  rw [digitList, List.takeWhile_append_of_pos (fun d hd ↦ by simp [List.eq_of_mem_replicate hd]),
    Radix.digits_takeWhile_zero (by decide), List.append_nil]

theorem value_digitList (bytes : Bytes) : Radix.value 58 (digitList bytes) = Bytes.toNat bytes := by
  rw [digitList, Radix.value_append, Radix.value_digits (by decide),
    (Radix.value_eq_zero_iff (by decide)).2 (fun d ↦ List.eq_of_mem_replicate), Nat.zero_mul,
    Nat.zero_add]

theorem replicate_length_takeWhile {α : Type} [BEq α] [LawfulBEq α] (a : α) (l : List α) :
    List.replicate (l.takeWhile (· == a)).length a = l.takeWhile (· == a) := by
  rw [eq_comm, List.eq_replicate_iff]
  exact ⟨rfl, fun b hb ↦ by simpa using List.mem_takeWhile_imp hb⟩

theorem decode_encode (bytes : Bytes) : decode (encode bytes) = .ok bytes := by
  rw [decode, encode, String.toList_ofList, decodeChars, encodeChars_eq_map,
    digitValues_digitChar 0 (digitList_lt bytes)]
  simp only [bind, Except.bind, pure, Except.pure, takeWhile_digitList, value_digitList,
    Bytes.shortest_toNat, List.map_replicate, replicate_length_takeWhile,
    List.takeWhile_append_dropWhile]

theorem encode_injective : Function.Injective encode := injective_of_decode decode_encode

theorem encode_nil : encode [] = "" := by
  simp [encode, encodeChars, Bytes.toNat, Radix.value, Radix.digits_zero]

theorem encodeCheck_ne_empty (payload : Bytes) : encodeCheck payload ≠ "" := by
  intro h
  have hnil : payload ++ checksum payload = [] := encode_injective (h.trans encode_nil.symm)
  have hlen := congrArg List.length hnil
  simp at hlen

theorem decodeCheck_encodeCheck (payload : Bytes) :
    decodeCheck (encodeCheck payload) = .ok payload := by
  have hl : (payload ++ checksum payload).length - checksumLength = payload.length := by
    rw [List.length_append, length_checksum, checksumLength, Nat.add_sub_cancel]
  rw [decodeCheck, encodeCheck, decode_encode]
  change splitCheck _ = _
  rw [splitCheck, if_neg (by rw [List.length_append, length_checksum, checksumLength]; omega)]
  simp only [hl, List.take_left, List.drop_left, if_true]

theorem encodeCheck_injective : Function.Injective encodeCheck :=
  injective_of_decode decodeCheck_encodeCheck

end Base58

end RequestAuth
