import TypeCoverage.Number.Shortest
import TypeCoverage.Text.Basic

/-!
# Writing floating-point numbers

Three notations. The compact one is the data format's: shortest digits, of two equally near
decimals the even one, a point always, and an exponent of ten from `10 ^ 16` on and below
`10 ^ -5`. The plain one takes the greater of two equally near decimals, never uses an exponent
and writes whole numbers without a point. The fixed one has two places and rounds the exact
value, a half to the even neighbour.
-/

set_option autoImplicit false

namespace TypeCoverage

namespace Decimal

/-- The digits of a decimal and the count of those before the point, which may be negative or
exceed the number of digits. -/
def layout (d : Decimal) : Text × Int :=
  let ds := Text.ofNat d.digits
  (ds, (ds.length : Int) + d.exponent)

/-- Positional notation. `whole` is written after a number without fractional digits. -/
def positional (d : Decimal) (whole : Text) : Text :=
  let (ds, point) := d.layout
  if point ≤ 0 then ['0', '.'] ++ List.replicate (-point).toNat '0' ++ ds
  else if (ds.length : Int) ≤ point then
    ds ++ List.replicate (point.toNat - ds.length) '0' ++ whole
  else ds.take point.toNat ++ ['.'] ++ ds.drop point.toNat

/-- One digit before the point and a signed exponent of ten. -/
def scientific (d : Decimal) : Text :=
  let (ds, point) := d.layout
  let e := point - 1
  let tail := ds.drop 1
  ds.take 1 ++ (if tail = [] then [] else '.' :: tail) ++
    (if e < 0 then ['e', '-'] else ['e', '+']) ++ Text.ofNat e.natAbs

end Decimal

namespace Binary64

/-- The sign of a number, written only if it is negative. -/
def signText (negative : Bool) : Text := if negative then ['-'] else []

/-- Compact notation: shortest digits, always with a point or an exponent. -/
def compact : Binary64 → Text
  | .nan => ['N', 'a', 'N']
  | .infinite s => signText s ++ ['i', 'n', 'f']
  | .finite s m e =>
    if m = 0 then signText s ++ ['0', '.', '0']
    else
      let d := Decimal.shortest .toEven m e
      let lead := d.layout.2 - 1
      signText s ++ (if lead < -5 ∨ 16 ≤ lead then d.scientific else d.positional ['.', '0'])

/-- Plain notation: shortest digits, never an exponent. -/
def plain : Binary64 → Text
  | .nan => ['N', 'a', 'N']
  | .infinite s => signText s ++ ['i', 'n', 'f']
  | .finite s m e =>
    if m = 0 then signText s ++ ['0'] else signText s ++ (Decimal.shortest .away m e).positional []

def fixedTwo : Binary64 → Text
  | .nan => ['N', 'a', 'N']
  | .infinite s => signText s ++ ['i', 'n', 'f']
  | .finite s m e =>
    let (num, den) := unscale (100 * m) 1 (-e)
    let hundredths := roundHalfEven num den
    signText s ++ Text.ofNat (hundredths / 100) ++ ['.'] ++ Text.ofNat (hundredths / 10 % 10)
      ++ Text.ofNat (hundredths % 10)

end Binary64

end TypeCoverage
