import Mathlib.Data.List.GetD
import RequestAuth.Nonce

namespace RequestAuth

namespace ChaCha20

theorem slice_add (key : Key) (offset m n : ℕ) :
    slice key offset (m + n) = slice key offset m ++ slice key (offset + m) n := by
  simp only [slice, List.range_add, List.map_append, List.map_map, Function.comp_def,
    Nat.add_assoc]

theorem take_slice (key : Key) (offset : ℕ) {m n : ℕ} (h : m ≤ n) :
    (slice key offset n).take m = slice key offset m := by
  obtain ⟨rest, rfl⟩ := Nat.exists_eq_add_of_le h
  rw [slice_add, List.take_left' (length_slice key offset m)]

theorem drop_slice (key : Key) (offset m n : ℕ) :
    (slice key offset (m + n)).drop m = slice key (offset + m) n := by
  rw [slice_add, List.drop_left' (length_slice key offset m)]

theorem length_block (key : Key) (counter : ℕ) : (block key counter).length = 64 := by
  rw [block, Generator.length_flatMap_wordBytes, length_blockWords]

theorem slice_block (key : Key) (counter : ℕ) :
    slice key (64 * counter) 64 = block key counter := by
  refine List.ext_getElem (by rw [length_slice, length_block]) (fun i hi hi' ↦ ?_)
  have hlt : i < 64 := by rwa [length_slice] at hi
  have hdiv : (64 * counter + i) / 64 = counter := by omega
  have hmod : (64 * counter + i) % 64 = i := by omega
  simp only [slice, keystream, List.getElem_map, List.getElem_range, hdiv, hmod]
  exact List.getD_eq_getElem _ _ hi'

theorem slice_blocks (key : Key) (counter n : ℕ) :
    slice key (64 * counter) (64 * n) =
      (List.range n).flatMap (fun i ↦ block key (counter + i)) := by
  induction n with
  | zero => rfl
  | succ n ih =>
    rw [Nat.mul_succ, slice_add, ih, ← Nat.mul_add, slice_block, List.range_succ,
      List.flatMap_append, List.flatMap_singleton]

namespace Generator

/-- The first `offset` bytes of the keystream have been read or given up, and those of the words at
hand come next. -/
structure IsAt (g : Generator) (key : Key) (offset : ℕ) : Prop where
  key_eq : g.key = key
  bytes : g.unread.flatMap wordBytes = slice key offset (4 * g.unread.length)
  made : offset + 4 * g.unread.length = 256 * g.refills

theorem isAt_ofSeed (key : Key) : (ofSeed key).IsAt key 0 := ⟨rfl, rfl, rfl⟩

variable {g : Generator} {key : Key} {offset : ℕ}

theorem IsAt.refill (h : g.IsAt key offset) (hu : g.unread = []) : g.refill.IsAt key offset := by
  have hoff : offset = 64 * (4 * g.refills) := by
    have hmade := h.made
    rw [hu, List.length_nil] at hmade
    omega
  refine ⟨h.key_eq, ?_, ?_⟩
  · rw [Generator.refill, length_refillWords, hoff, show 4 * 64 = 64 * 4 from rfl, slice_blocks,
      refillWords, h.key_eq, List.flatMap_assoc]
    rfl
  · rw [Generator.refill, length_refillWords, hoff]
    dsimp only
    omega

theorem IsAt.supplied (h : g.IsAt key offset) : g.supplied.IsAt key offset := by
  rw [Generator.supplied]
  split
  · next hu => exact h.refill hu
  · exact h

theorem IsAt.atHand (h : g.IsAt key offset) (width : ℕ) :
    g.atHand width = slice key offset (g.atHand width).length := by
  rw [length_atHand, Generator.atHand, h.bytes]
  rcases Nat.le_total width (4 * g.unread.length) with hw | hw
  · rw [Nat.min_eq_left hw, take_slice key offset hw]
  · rw [Nat.min_eq_right hw, List.take_of_length_le (by rwa [length_slice])]

theorem flatMap_drop_wordBytes (words : List Word) (n : ℕ) :
    (words.drop n).flatMap wordBytes = (words.flatMap wordBytes).drop (4 * n) := by
  induction words generalizing n with
  | nil => simp
  | cons w words ih =>
    cases n with
    | zero => rfl
    | succ n =>
      have hl : 4 * (n + 1) = (wordBytes w).length + 4 * n := by
        rw [length_wordBytes]
        omega
      rw [List.drop_succ_cons, ih, List.flatMap_cons, hl, List.drop_length_add_append]

theorem IsAt.advance (h : g.IsAt key offset) {n : ℕ} (hn : n ≤ g.unread.length) :
    (g.advance (4 * n)).IsAt key (offset + 4 * n) := by
  have hc : (4 * n + 3) / 4 = n := by omega
  have hlen : 4 * g.unread.length = 4 * n + 4 * (g.unread.length - n) := by omega
  refine ⟨h.key_eq, ?_, ?_⟩
  · rw [Generator.advance, hc, flatMap_drop_wordBytes, h.bytes, List.length_drop, hlen, drop_slice]
  · have hmade := h.made
    rw [Generator.advance, hc, List.length_drop]
    dsimp only
    omega

/-- However the words are refilled, reading whole words of keystream goes on where the last reading
ended. -/
theorem IsAt.fill (h : g.IsAt key offset) (n : ℕ) :
    (g.fill (4 * n)).1 = slice key offset (4 * n) ∧
      (g.fill (4 * n)).2.IsAt key (offset + 4 * n) := by
  induction n using Nat.strongRecOn generalizing g offset with
  | ind n ih =>
    rcases Nat.eq_zero_or_pos n with rfl | hn
    · rw [fill_zero]
      exact ⟨rfl, h⟩
    · have hs := h.supplied
      have hpos := g.length_unread_supplied_pos
      have hlen := g.supplied.length_atHand (4 * n)
      obtain ⟨m, hm⟩ : ∃ m, (g.supplied.atHand (4 * n)).length = 4 * m :=
        ⟨min n g.supplied.unread.length, by omega⟩
      have hbytes := hs.atHand (4 * n)
      rw [hm] at hbytes
      obtain ⟨hrest, hat⟩ := ih (n - m) (by omega) (hs.advance (n := m) (by omega))
      have hw : 4 * n - 4 * m = 4 * (n - m) := by omega
      have hsum : 4 * n = 4 * m + 4 * (n - m) := by omega
      rw [fill_of_pos g (by omega), hm, hw, hrest, hbytes]
      refine ⟨?_, ?_⟩
      · rw [← slice_add, ← hsum]
      · rwa [Nat.add_assoc, ← hsum] at hat

end Generator

end ChaCha20

namespace NonceSource

theorem isAt_generator (seed : ChaCha20.Key) (drawn : ℕ) :
    (generator seed drawn).IsAt seed (24 * drawn) := by
  induction drawn with
  | zero => exact ChaCha20.Generator.isAt_ofSeed seed
  | succ drawn ih => exact (ih.fill 6).2

/-- A seed's nonces cut its keystream into pieces of equal width, though the generator makes it in
pieces of another. -/
theorem seededPart_eq_slice (seed : ChaCha20.Key) (i : ℕ) :
    seededPart seed i = ChaCha20.slice seed (24 * i) 24 :=
  ((isAt_generator seed i).fill 6).1

end NonceSource

end RequestAuth
