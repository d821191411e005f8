import RequestAuth.Radix

namespace RequestAuth

abbrev Bytes := List UInt8

namespace Bytes

def ofText (text : String) : Bytes := text.toByteArray.data.toList

def toText? (bytes : Bytes) : Option String := String.fromUTF8? ⟨bytes.toArray⟩

/-- The number written by `bytes`, most significant byte first. -/
def toNat (bytes : Bytes) : Nat := Radix.value 256 (bytes.map UInt8.toNat)

/-- The last `width` bytes of `n`, most significant byte first. -/
def ofNat (width n : Nat) : Bytes :=
  (List.range width).map (fun i ↦ UInt8.ofNat (n >>> (8 * (width - 1 - i))))

def shortest (n : Nat) : Bytes := (Radix.digits 256 n).map UInt8.ofNat

@[simp] theorem length_ofNat (width n : Nat) : (ofNat width n).length = width := by
  simp [ofNat]

def padLeft (width : Nat) (bytes : Bytes) : Bytes :=
  List.replicate (width - bytes.length) 0 ++ bytes

end Bytes

def Block (width : Nat) := { bytes : Bytes // bytes.length = width }

namespace Block

def toBytes {width : Nat} (block : Block width) : Bytes := block.1

@[simp] theorem length_toBytes {width : Nat} (block : Block width) :
    block.toBytes.length = width := block.2

@[ext] theorem ext {width : Nat} {a b : Block width} (h : a.toBytes = b.toBytes) : a = b :=
  Subtype.ext h

instance {width : Nat} : DecidableEq (Block width) := fun a b ↦
  decidable_of_iff (a.toBytes = b.toBytes) ⟨ext, congrArg toBytes⟩

/-- The first `width` bytes, with zeros after them if there are too few. -/
def take (width : Nat) (bytes : Bytes) : Block width :=
  ⟨bytes.take width ++ List.replicate (width - bytes.length) 0, by
    simp only [List.length_append, List.length_take, List.length_replicate]
    omega⟩

theorem toBytes_take {width : Nat} {bytes : Bytes} (h : width ≤ bytes.length) :
    (take width bytes).toBytes = bytes.take width := by
  simp [take, toBytes, Nat.sub_eq_zero_of_le h]

def ofNat (width n : Nat) : Block width := ⟨Bytes.ofNat width n, Bytes.length_ofNat width n⟩

end Block

end RequestAuth
