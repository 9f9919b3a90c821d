/-!
# Binary floating point

The numbers of the 64-bit binary format, held as a sign, a natural mantissa and a binary
exponent, with correct rounding of exact quotients. All arithmetic is on natural numbers, so
every result is the nearest representable number by definition and ties go to the even
mantissa.
-/

set_option autoImplicit false

namespace TypeCoverage

/-- A number of the 64-bit binary format. `finite s m e` has magnitude `m * 2 ^ e`, where
`m < 2 ^ 53` and `-1074 ≤ e ≤ 971`, and `m < 2 ^ 52` only at the least exponent. -/
inductive Binary64 where
  | nan
  | infinite (negative : Bool)
  | finite (negative : Bool) (mantissa : Nat) (exponent : Int)
  deriving DecidableEq, Repr, Inhabited

namespace Binary64

/-- The quotient rounded to the nearest natural number, a half to the even neighbour. -/
def roundHalfEven (num den : Nat) : Nat :=
  let q := num / den
  let r := num % den
  if 2 * r < den then q
  else if den < 2 * r then q + 1
  else q + q % 2

/-- Numerator and denominator of `num / den / 2 ^ e`. -/
def unscale (num den : Nat) : Int → Nat × Nat
  | .ofNat k => (num, den * Nat.pow 2 k)
  | .negSucc k => (num * Nat.pow 2 (k + 1), den)

/-- The quotient in units of `2 ^ e`, rounded. -/
def mantissaAt (num den : Nat) (e : Int) : Nat :=
  roundHalfEven (unscale num den e).1 (unscale num den e).2

/-- The exponent at which a positive quotient has a mantissa of 53 bits, or the least exponent of
the format. The logarithms leave two exponents to choose from. -/
def unitExponent (num den : Nat) : Int :=
  let low : Int := max ((Nat.log2 num : Int) - (Nat.log2 den : Int) - 53) (-1074)
  if (unscale num den low).2 * Nat.pow 2 53 ≤ (unscale num den low).1 then low + 1 else low

/-- The number of the format with a mantissa of at most `2 ^ 53`. -/
def settle (negative : Bool) (mantissa : Nat) (e : Int) : Binary64 :=
  if mantissa = Nat.pow 2 53 then
    if 971 < e + 1 then .infinite negative else .finite negative (Nat.pow 2 52) (e + 1)
  else if 971 < e then .infinite negative else .finite negative mantissa e

/-- The nearest number of the format to `num / den`, with the given sign. -/
def round (negative : Bool) (num den : Nat) : Binary64 :=
  if num = 0 then .finite negative 0 (-1074)
  else settle negative (mantissaAt num den (unitExponent num den)) (unitExponent num den)

/-- The nearest number of the format to `num / den * 2 ^ e`. -/
def roundScaled (negative : Bool) (num den : Nat) (e : Int) : Binary64 :=
  round negative (unscale num den (-e)).1 (unscale num den (-e)).2

/-- The nearest number of the format to a natural number. -/
def ofNat (n : Nat) : Binary64 := round false n 1

/-- The nearest number of the format to `10 ^ n`. -/
def tenPow (n : Nat) : Binary64 := round false (Nat.pow 10 n) 1

/-- The product of two finite numbers; `nan` if one of them is not finite. -/
def mul : Binary64 → Binary64 → Binary64
  | .finite s m e, .finite s' m' e' => roundScaled (s != s') (m * m') 1 (e + e')
  | _, _ => .nan

/-- The quotient of two finite numbers, the second not zero; `nan` otherwise. -/
def div : Binary64 → Binary64 → Binary64
  | .finite s m e, .finite s' m' e' =>
    if m' = 0 then .nan else roundScaled (s != s') m m' (e - e')
  | _, _ => .nan

def neg : Binary64 → Binary64
  | .nan => .nan
  | .infinite s => .infinite !s
  | .finite s m e => .finite (!s) m e

def isZero : Binary64 → Bool
  | .finite _ m _ => m == 0
  | _ => false

def isInfinite : Binary64 → Bool
  | .infinite _ => true
  | _ => false

/-- The signed value of a finite number in units of `2 ^ unit`, for a unit not above its
exponent. -/
def inUnits (negative : Bool) (mantissa : Nat) (exponent unit : Int) : Int :=
  let n : Int := (mantissa * Nat.pow 2 (exponent - unit).toNat : Nat)
  if negative then -n else n

/-- The numerical order. It holds never if one side is `nan`, and not between the two zeros. -/
def lt : Binary64 → Binary64 → Bool
  | .nan, _ => false
  | _, .nan => false
  | .infinite s, .infinite s' => s && !s'
  | .infinite s, .finite .. => s
  | .finite .., .infinite s => !s
  | .finite s m e, .finite s' m' e' =>
    inUnits s m e (min e e') < inUnits s' m' e' (min e e')

/-- Numerically at most. It holds never if one side is `nan`, and always between zeros. -/
def le : Binary64 → Binary64 → Bool
  | .nan, _ => false
  | _, .nan => false
  | a, b => !lt b a

end Binary64

end TypeCoverage
