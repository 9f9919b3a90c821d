import TypeCoverage.Number.Binary64

/-!
# The fewest digits that read back

Among the decimals that lie closer to a number of the 64-bit format than to any other, this
module finds one with the fewest digits, and of these the nearest. The candidates with a given
count of digits are the two neighbours of the number on that decimal grid: if any point of the
grid lies in the interval, one of these two does. Where both are equally near, the notation
says which is taken.
-/

set_option autoImplicit false

namespace TypeCoverage

/-- The decimal number `digits * 10 ^ exponent`. -/
structure Decimal where
  digits : Nat
  exponent : Int
  deriving DecidableEq, Repr

namespace Decimal

/-- Numerator and denominator of `num / den / 10 ^ k`. -/
def unscale (num den : Nat) : Int → Nat × Nat
  | .ofNat k => (num, den * Nat.pow 10 k)
  | .negSucc k => (num * Nat.pow 10 (k + 1), den)

/-- The exponent of the leading digit of a positive quotient: `p` with
`10 ^ p ≤ num / den < 10 ^ (p + 1)`. -/
def leadExponent (num den : Nat) : Int :=
  if den ≤ num then ((Nat.toDigits 10 (num / den)).length : Int) - 1
  else
    let t := (Nat.toDigits 10 (den / num)).length
    if den ≤ num * Nat.pow 10 (t - 1) then -((t : Int) - 1) else -(t : Int)

/-- The decimal without trailing zeros; `fuel` bounds how many are dropped. -/
def trimZeros : Nat → Decimal → Decimal
  | 0, d => d
  | fuel + 1, d =>
    if d.digits ≠ 0 ∧ d.digits % 10 = 0 then trimZeros fuel ⟨d.digits / 10, d.exponent + 1⟩ else d

/-- The interval of values that round to `mantissa * 2 ^ exponent`, in quarters of
`2 ^ exponent`: half a step up, and half a step down, where the step below a power of two is
half as long. -/
def quarters (mantissa : Nat) (exponent : Int) : Nat × Nat :=
  (4 * mantissa - (if mantissa = Nat.pow 2 52 ∧ -1074 < exponent then 1 else 2), 4 * mantissa + 2)

/-- Which of two decimals that are equally near is taken. -/
inductive Tie where
  | toEven
  | away
  deriving DecidableEq, Repr

/-- The whole number nearest to a quotient. -/
def Tie.round (tie : Tie) (num den : Nat) : Nat :=
  match tie with
  | .toEven => Binary64.roundHalfEven num den
  | .away => (2 * num + den) / (2 * den)

/-- Whether a whole number of units of `10 ^ k` lies in the interval, where `quarter` is the
numerator and the denominator of a quarter of `2 ^ exponent` in these units. The ends of the
interval round to an even mantissa. -/
def isInside (mantissa : Nat) (exponent : Int) (quarter : Nat × Nat) (digits : Nat) : Bool :=
  let low := (quarters mantissa exponent).1 * quarter.1
  let high := (quarters mantissa exponent).2 * quarter.1
  let point := digits * quarter.2
  if mantissa % 2 = 0 then low ≤ point && point ≤ high else low < point && point < high

/-- The point of the grid with `count` digits that reads back as `mantissa * 2 ^ exponent` and
is nearest to it, if there is one. -/
def onGrid? (tie : Tie) (mantissa : Nat) (exponent : Int) (count : Nat) : Option Decimal :=
  let unit := Binary64.unscale 1 1 (2 - exponent)
  let k := leadExponent (4 * mantissa * unit.1) unit.2 - count + 1
  let quarter := unscale unit.1 unit.2 k
  let below := 4 * mantissa * quarter.1 / quarter.2
  let nearer := tie.round (4 * mantissa * quarter.1) quarter.2
  ([nearer, below, below + 1].find? (isInside mantissa exponent quarter)).map fun digits =>
    ⟨digits, k⟩

/-- The decimal with the fewest digits that reads back as `mantissa * 2 ^ exponent`. Seventeen
digits always suffice. -/
def shortest (tie : Tie) (mantissa : Nat) (exponent : Int) : Decimal :=
  if mantissa = 0 then ⟨0, 0⟩
  else
    match (List.range 17).findSome? fun i => onGrid? tie mantissa exponent (i + 1) with
    | some d => trimZeros 20 d
    | none => ⟨0, 0⟩

end Decimal

end TypeCoverage
