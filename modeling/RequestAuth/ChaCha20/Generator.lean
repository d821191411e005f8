import RequestAuth.ChaCha20

namespace RequestAuth.ChaCha20

/-- A reader of the keystream, which makes it four blocks at a time. -/
structure Generator where
  key : Key
  unread : List Word
  refills : Nat

namespace Generator

def ofSeed (seed : Key) : Generator := ⟨seed, [], 0⟩

def refillWords (g : Generator) : List Word :=
  (List.range 4).flatMap (fun i ↦ blockWords g.key (4 * g.refills + i))

def refill (g : Generator) : Generator :=
  { g with unread := g.refillWords, refills := g.refills + 1 }

def supplied (g : Generator) : Generator := if g.unread = [] then g.refill else g

def atHand (g : Generator) (width : Nat) : Bytes := (g.unread.flatMap wordBytes).take width

/-- Gives up the words that so many bytes were read from, the last of them even if only a part of it
was. -/
def advance (g : Generator) (count : Nat) : Generator :=
  { g with unread := g.unread.drop ((count + 3) / 4) }

theorem length_flatMap_wordBytes (words : List Word) :
    (words.flatMap wordBytes).length = 4 * words.length := by
  induction words with
  | nil => rfl
  | cons w words ih =>
    rw [List.flatMap_cons, List.length_append, ih, length_wordBytes, List.length_cons]
    omega

theorem length_atHand (g : Generator) (width : Nat) :
    (g.atHand width).length = min width (4 * g.unread.length) := by
  rw [atHand, List.length_take, length_flatMap_wordBytes]

theorem length_refillWords (g : Generator) : g.refillWords.length = 64 := by
  simp only [refillWords, List.length_flatMap, length_blockWords]
  rfl

theorem length_unread_supplied_pos (g : Generator) : 0 < g.supplied.unread.length := by
  rw [supplied]
  split
  · rw [refill, length_refillWords]
    decide
  · next h => exact List.length_pos_iff.2 h

def fill (g : Generator) (width : Nat) : Bytes × Generator :=
  if _h : width = 0 then ([], g)
  else
    let bytes := g.supplied.atHand width
    let rest := (g.supplied.advance bytes.length).fill (width - bytes.length)
    (bytes ++ rest.1, rest.2)
termination_by width
decreasing_by
  have := g.length_unread_supplied_pos
  have := g.supplied.length_atHand width
  omega

theorem fill_zero (g : Generator) : g.fill 0 = ([], g) := by
  rw [fill, dif_pos rfl]

theorem fill_of_pos (g : Generator) {width : Nat} (h : 0 < width) :
    g.fill width =
      (g.supplied.atHand width ++ ((g.supplied.advance (g.supplied.atHand width).length).fill
          (width - (g.supplied.atHand width).length)).1,
        ((g.supplied.advance (g.supplied.atHand width).length).fill
          (width - (g.supplied.atHand width).length)).2) := by
  rw [fill, dif_neg (by omega)]

@[simp] theorem length_fill (g : Generator) (width : Nat) : (g.fill width).1.length = width := by
  fun_induction fill g width with
  | case1 => rfl
  | case2 g width hw bytes rest ih =>
    have hle : bytes.length ≤ width :=
      Nat.le_trans (Nat.le_of_eq (g.supplied.length_atHand width)) (Nat.min_le_left _ _)
    rw [List.length_append, ih, Nat.add_sub_cancel' hle]

end Generator

end RequestAuth.ChaCha20
