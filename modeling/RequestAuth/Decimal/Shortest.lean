import RequestAuth.Radix

namespace RequestAuth.Decimal

/-- A finite number without its sign, as `mantissa * 2 ^ exponent`. -/
structure Binary where
  mantissa : Nat
  exponent : Int
  /-- Whether the next smaller number is only half as far away as the next larger one. -/
  narrowBelow : Bool

def hidden : Nat := 0x10000000000000

def Binary.ofFloat (x : Float) : Binary :=
  let bits := x.toBits.toNat
  let exponent : Nat := (bits >>> 52) % 0x800
  let fraction : Nat := bits % hidden
  if exponent = 0 then ⟨fraction, -1074, false⟩
  else ⟨hidden + fraction, Int.subNatNat exponent 1075, fraction = 0 && 1 < exponent⟩

structure Bounds where
  lower : Nat
  value : Nat
  upper : Nat
  denominator : Nat
  closed : Bool

def Binary.bounds (x : Binary) (place : Int) : Bounds :=
  let e := x.exponent - 2
  let scale := Nat.pow 2 e.toNat * Nat.pow 10 (-place).toNat
  { lower := (4 * x.mantissa - if x.narrowBelow then 1 else 2) * scale
    value := 4 * x.mantissa * scale
    upper := (4 * x.mantissa + 2) * scale
    denominator := Nat.pow 2 (-e).toNat * Nat.pow 10 place.toNat
    closed := x.mantissa % 2 = 0 }

def Bounds.contains (b : Bounds) (n : Nat) : Bool :=
  let scaled := n * b.denominator
  if b.closed then b.lower ≤ scaled && scaled ≤ b.upper
  else b.lower < scaled && scaled < b.upper

def Bounds.nearest? (b : Bounds) : Option Nat :=
  let below := b.value / b.denominator
  match b.contains below, b.contains (below + 1) with
  | false, false => none
  | true, false => some below
  | false, true => some (below + 1)
  | true, true =>
    let excess := 2 * (b.value % b.denominator)
    if excess < b.denominator ∨ (excess = b.denominator ∧ below % 2 = 0) then some below
    else some (below + 1)

def places : List Int := (List.range 640).map (fun i ↦ Int.subNatNat 309 i)

/-- The digits of a positive number's shortest decimal, and the place of the last one. -/
def shortest (x : Float) : List Nat × Int :=
  let binary := Binary.ofFloat x
  match places.findSome? (fun place ↦
    ((binary.bounds place).nearest?.filter (0 < ·)).map (fun n ↦ (n, place))) with
  | some (n, place) => (Radix.digits 10 n, place)
  | none => ([0], 0)

structure Layout where
  least : Int
  greatest : Int

def digitText (digits : List Nat) : String := String.ofList (digits.map Nat.digitChar)

def pointed (digits : List Nat) (whole : Int) : String :=
  if whole ≤ 0 then "0." ++ digitText (List.replicate (-whole).toNat 0 ++ digits)
  else
    let padded := digits ++ List.replicate (whole.toNat - digits.length) 0
    let fraction := padded.drop whole.toNat
    digitText (padded.take whole.toNat) ++ "." ++
      digitText (if fraction = [] then [0] else fraction)

def scientific (digits : List Nat) (power : Int) : String :=
  let fraction := digits.drop 1
  digitText (digits.take 1) ++ (if fraction = [] then "" else "." ++ digitText fraction) ++
    (if power < 0 then "e-" else "e+") ++ power.natAbs.repr

def Layout.writeDigits (layout : Layout) (digits : List Nat) (last : Int) : String :=
  let first := last + digits.length - 1
  if layout.least ≤ first ∧ first ≤ layout.greatest then pointed digits (first + 1)
  else scientific digits first

def Layout.write (layout : Layout) (x : Float) : String :=
  let magnitude :=
    if x == 0 then "0.0" else
      let (digits, last) := shortest x.abs
      layout.writeDigits digits last
  if x.toBits.toNat < 0x8000000000000000 then magnitude else "-" ++ magnitude

end RequestAuth.Decimal
