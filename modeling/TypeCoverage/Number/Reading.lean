import TypeCoverage.Number.Binary64
import TypeCoverage.Text.Basic

/-!
# Reading numbers from option values

Counts are digits after an optional plus sign and must fit in 64 bits. Floating-point numbers
have an optional sign, digits with at most one point, and an optional exponent; `inf`,
`infinity` and `nan` are read in any case. The result is the nearest number of the format.
-/

set_option autoImplicit false

namespace TypeCoverage

def maxCount : Nat := Nat.pow 2 64 - 1

namespace Text

def digitsValue (ds : Text) : Nat := ds.foldl (fun n c => 10 * n + (c.toNat - 48)) 0

/-- The number a text of digits denotes; `none` for the empty text and any other character. -/
def digits? (s : Text) : Option Nat :=
  if s ≠ [] ∧ s.all Char.isDigit then some (digitsValue s) else none

/-- A count that fits in 64 bits, with or without a plus sign. -/
def count? (s : Text) : Option Nat :=
  let body := match s with
    | '+' :: rest => rest
    | _ => s
  (digits? body).filter (· ≤ maxCount)

end Text

namespace Binary64

/-- The nearest number of the format to `digits * 10 ^ exponent`. Exponents beyond the range of
the format are answered without building the power of ten. -/
def ofDecimal (negative : Bool) (digits : Nat) (exponent : Int) : Binary64 :=
  let size : Int := (Nat.toDigits 10 digits).length
  if digits = 0 then .finite negative 0 (-1074)
  else if 400 < exponent + size then .infinite negative
  else if exponent + size < -400 then .finite negative 0 (-1074)
  else match exponent with
    | .ofNat k => round negative (digits * Nat.pow 10 k) 1
    | .negSucc k => round negative digits (Nat.pow 10 (k + 1))

/-- The exponent that a number's text ends with: nothing, or a mark, an optional sign and
digits. -/
def exponentPart? : Text → Option Int
  | [] => some 0
  | c :: rest =>
    if c = 'e' ∨ c = 'E' then
      match rest with
      | '-' :: ds => (Text.digits? ds).map fun n => -(n : Int)
      | '+' :: ds => (Text.digits? ds).map fun n => (n : Int)
      | ds => (Text.digits? ds).map fun n => (n : Int)
    else none

/-- A number without its sign. -/
def unsigned? (negative : Bool) (s : Text) : Option Binary64 :=
  let lower := s.map Char.toLower
  if lower = ['i', 'n', 'f'] ∨ lower = ['i', 'n', 'f', 'i', 'n', 'i', 't',
    'y'] then some (.infinite negative)
  else if lower = ['n', 'a', 'n'] then some .nan
  else
    let whole := s.takeWhile Char.isDigit
    let (fraction, rest) := match s.dropWhile Char.isDigit with
      | '.' :: rest => (rest.takeWhile Char.isDigit, rest.dropWhile Char.isDigit)
      | rest => ([], rest)
    if whole ++ fraction = [] then none
    else (exponentPart? rest).map fun e =>
      ofDecimal negative (Text.digitsValue (whole ++ fraction)) (e - fraction.length)

def ofText? : Text → Option Binary64
  | '-' :: s => unsigned? true s
  | '+' :: s => unsigned? false s
  | s => unsigned? false s

end Binary64

end TypeCoverage
