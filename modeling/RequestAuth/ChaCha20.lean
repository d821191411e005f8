import RequestAuth.Bytes

namespace RequestAuth.ChaCha20

abbrev Word := UInt32

abbrev State := Vector Word 16

abbrev Key := Block 32

def rotateLeft (x n : Word) : Word := (x <<< n) ||| (x >>> (32 - n))

def quarterRound (a b c d : Fin 16) (s : State) : State :=
  let s := s.set a (s[a] + s[b])
  let s := s.set d (rotateLeft (s[d] ^^^ s[a]) 16)
  let s := s.set c (s[c] + s[d])
  let s := s.set b (rotateLeft (s[b] ^^^ s[c]) 12)
  let s := s.set a (s[a] + s[b])
  let s := s.set d (rotateLeft (s[d] ^^^ s[a]) 8)
  let s := s.set c (s[c] + s[d])
  s.set b (rotateLeft (s[b] ^^^ s[c]) 7)

def doubleRound (s : State) : State :=
  let s := quarterRound 0 4 8 12 s
  let s := quarterRound 1 5 9 13 s
  let s := quarterRound 2 6 10 14 s
  let s := quarterRound 3 7 11 15 s
  let s := quarterRound 0 5 10 15 s
  let s := quarterRound 1 6 11 12 s
  let s := quarterRound 2 7 8 13 s
  quarterRound 3 4 9 14 s

def rounds : Nat → State → State
  | 0, s => s
  | n + 1, s => rounds n (doubleRound s)

def wordAt (bytes : Bytes) (i : Nat) : Word :=
  (List.range 4).foldr (fun j w ↦ (w <<< 8) ||| (bytes.getD (4 * i + j) 0).toUInt32) 0

def wordBytes (w : Word) : Bytes :=
  [w.toUInt8, (w >>> 8).toUInt8, (w >>> 16).toUInt8, (w >>> 24).toUInt8]

def start (key : Key) (counter : Nat) : State :=
  let k := wordAt key.toBytes
  #v[0x61707865, 0x3320646e, 0x79622d32, 0x6b206574, k 0, k 1, k 2, k 3, k 4, k 5, k 6, k 7,
    UInt32.ofNat counter, UInt32.ofNat (counter >>> 32), 0, 0]

/-- The sixteen words of keystream at a counter, after twenty rounds. -/
def blockWords (key : Key) (counter : Nat) : List Word :=
  let s := start key counter
  (s.zipWith (· + ·) (rounds 10 s)).toList

def block (key : Key) (counter : Nat) : Bytes := (blockWords key counter).flatMap wordBytes

def keystream (key : Key) (i : Nat) : UInt8 := (block key (i / 64)).getD (i % 64) 0

def slice (key : Key) (offset width : Nat) : Bytes :=
  (List.range width).map (fun i ↦ keystream key (offset + i))

@[simp] theorem length_wordBytes (w : Word) : (wordBytes w).length = 4 := rfl

@[simp] theorem length_blockWords (key : Key) (counter : Nat) :
    (blockWords key counter).length = 16 := by
  simp [blockWords]

@[simp] theorem length_slice (key : Key) (offset width : Nat) :
    (slice key offset width).length = width := by
  simp [slice]

end RequestAuth.ChaCha20
