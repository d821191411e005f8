import RequestAuth.ModularInverse

namespace RequestAuth.Secp256k1

def p : Nat := 0xfffffffffffffffffffffffffffffffffffffffffffffffffffffffefffffc2f

def order : Nat := 0xfffffffffffffffffffffffffffffffebaaedce6af48a03bbfd25e8cd0364141

instance : @NeZero Nat Zero.ofOfNat0 p := ⟨by decide⟩

abbrev Coordinate := Fin p

def Coordinate.inverse (a : Coordinate) : Coordinate :=
  Fin.ofNat p (ModularInverse.inverse p a.val)

def cubic (x : Coordinate) : Coordinate := x * x * x + 7

inductive Point
  | infinity
  | affine (x y : Coordinate)
  deriving DecidableEq

namespace Point

def OnCurve : Point → Prop
  | infinity => True
  | affine x y => y * y = cubic x

instance : DecidablePred OnCurve
  | infinity => .isTrue trivial
  | affine x y => inferInstanceAs (Decidable (y * y = cubic x))

/-- The third point of the line of slope `slope` through `(x₁, y₁)` and a point over `x₂`, reflected
in the axis. -/
def onLine (slope x₁ y₁ x₂ : Coordinate) : Point :=
  let x := slope * slope - x₁ - x₂
  affine x (slope * (x₁ - x) - y₁)

def double : Point → Point
  | infinity => infinity
  | affine x y =>
    if y = 0 then infinity else onLine (3 * x * x * Coordinate.inverse (2 * y)) x y x

def add : Point → Point → Point
  | infinity, q => q
  | q, infinity => q
  | affine x₁ y₁, affine x₂ y₂ =>
    if x₁ = x₂ then if y₁ = y₂ then double (affine x₁ y₁) else infinity
    else onLine ((y₂ - y₁) * Coordinate.inverse (x₂ - x₁)) x₁ y₁ x₂

def multiple (k : Nat) (q : Point) : Point :=
  if k = 0 then infinity
  else
    let rest := multiple (k / 2) (double q)
    if k % 2 = 1 then add q rest else rest
termination_by k
decreasing_by omega

def generator : Point :=
  affine 0x79be667ef9dcbbac55a06295ce870b07029bfcdb2dce28d959f2815b16f81798
    0x483ada7726a3c4655da4fbfc0e1108a8fd17b448a68554199c47d08ffb10d4b8

theorem multiple_zero (q : Point) : multiple 0 q = infinity := by
  rw [multiple]
  rfl

theorem multiple_of_pos {k : Nat} (hk : 0 < k) (q : Point) :
    multiple k q = if k % 2 = 1 then add q (multiple (k / 2) (double q))
      else multiple (k / 2) (double q) := by
  rw [multiple, if_neg (by omega)]

end Point

end RequestAuth.Secp256k1
