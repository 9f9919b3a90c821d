import TypeCoverage.Json.Fault
import TypeCoverage.Json.Basic
import TypeCoverage.Number.Reading
import TypeCoverage.Text.Utf8

/-!
# Words, numbers and strings of JSON

The readers here take the bytes from where they stand and give a result with the bytes that
follow. A reader that stops says how many bytes it had read by the bytes that were left; a fault
in the byte ahead counts that byte as read.
-/

set_option autoImplicit false

namespace TypeCoverage.Json

/-- Where and why reading stopped: the fault and the bytes left, and how many bytes before
these the place lies. A mismatch has no place of its own (`placed` is false) until the value
that holds it ends. -/
structure Stop where
  fault : Fault
  rest : Bytes
  before : Nat := 0
  placed : Bool := true
  deriving DecidableEq, Repr

/-- A reader gives a result and the bytes that follow it, or stops. -/
abbrev Reader (α : Type) := Bytes → Except Stop (α × Bytes)

/-- Stop with the bytes read so far. -/
def stopAt {α : Type} (fault : Fault) (rest : Bytes) : Except Stop α := .error { fault, rest }

/-- Stop because of the next byte, which counts as read if there is one. -/
def stopAhead {α : Type} (fault : Fault) (bs : Bytes) : Except Stop α :=
  .error { fault, rest := bs.drop 1 }

def mismatchAt {α : Type} (m : Mismatch) (rest : Bytes) : Except Stop α :=
  .error { fault := .mismatch m, rest }

def ascii (c : Char) : UInt8 := UInt8.ofNat c.toNat

/-- Whether a byte is one of the four blanks between tokens. -/
def isSpace (b : UInt8) : Bool := b == 32 || b == 10 || b == 9 || b == 13

def skipSpace (bs : Bytes) : Bytes := bs.dropWhile isSpace

def isDigit (b : UInt8) : Bool := 48 ≤ b && b ≤ 57

def digitValue (b : UInt8) : Nat := b.toNat - 48

/-! ## Words -/

/-- The remaining letters of `null`, `true` or `false`. -/
def word : Text → Bytes → Except Stop Bytes
  | [], bs => .ok bs
  | _ :: _, [] => stopAt .endInValue []
  | c :: cs, b :: bs => if b = ascii c then word cs bs else stopAt .expectedIdentifier bs

/-! ## Numbers -/

/-- A decimal number as written: digits before the point, digits after it if there is a point,
and the sign and digits of the exponent if there is one. -/
structure Numeral where
  whole : Bytes
  fraction? : Option Bytes
  exponent? : Option (Bool × Bytes)
  deriving DecidableEq, Repr

/-- The part of a numeral from the exponent mark on. -/
def exponentPart (bs : Bytes) : Except Stop (Option (Bool × Bytes) × Bytes) :=
  match bs with
  | b :: bs' =>
    if b = ascii 'e' ∨ b = ascii 'E' then
      let (negative, ds) := match bs' with
        | s :: ds =>
          if s = ascii '-' then (true, ds) else if s = ascii '+' then (false, ds)
          else (false, s :: ds)
        | [] => (false, [])
      match ds with
      | [] => stopAt .endInValue []
      | d :: ds' =>
        if isDigit d then .ok (some (negative, ds.takeWhile isDigit), ds.dropWhile isDigit)
        else stopAt .invalidNumber ds'
    else .ok (none, bs)
  | [] => .ok (none, [])

/-- The part of a numeral from the point on. -/
def fractionPart (bs : Bytes) : Except Stop (Option Bytes × Bytes) :=
  match bs with
  | b :: bs' =>
    if b = ascii '.' then
      match bs' with
      | [] => stopAt .endInValue []
      | d :: _ =>
        if isDigit d then .ok (some (bs'.takeWhile isDigit), bs'.dropWhile isDigit)
        else stopAhead .invalidNumber bs'
    else .ok (none, bs)
  | [] => .ok (none, [])

/-- The digits before the point. A zero stands alone. -/
def wholePart (bs : Bytes) : Except Stop (Bytes × Bytes) :=
  match bs with
  | [] => stopAt .endInValue []
  | b :: bs' =>
    if b = ascii '0' then
      match bs' with
      | d :: _ => if isDigit d then stopAhead .invalidNumber bs' else .ok ([b], bs')
      | [] => .ok ([b], bs')
    else if isDigit b then .ok (bs.takeWhile isDigit, bs.dropWhile isDigit)
    else stopAt .invalidNumber bs'

/-- A numeral after its sign. -/
def numeral : Reader Numeral := fun bs => do
  let (whole, bs) ← wholePart bs
  let (fraction?, bs) ← fractionPart bs
  let (exponent?, bs) ← exponentPart bs
  return ({ whole, fraction?, exponent? }, bs)

/-- Appends digits to a significand as long as it fits in 64 bits, and gives the digits that
are left. -/
def appendDigits : Nat → Bytes → Nat × Bytes
  | n, [] => (n, [])
  | n, d :: ds =>
    if maxCount < 10 * n + digitValue d then (n, d :: ds)
    else appendDigits (10 * n + digitValue d) ds

/-- The exponent's magnitude, or the digits after the one that takes it beyond 31 bits. -/
def exponentValue : Nat → Bytes → Except Bytes Nat
  | n, [] => .ok n
  | n, d :: ds =>
    if Nat.pow 2 31 - 1 < 10 * n + digitValue d then .error ds
    else exponentValue (10 * n + digitValue d) ds

/-- The product of a number and a power of ten, where powers beyond the format's range are
applied in steps; `none` if it is too large. Two steps take any number down to zero. -/
def scaleByTen : Nat → Binary64 → Int → Option Binary64
  | steps, x, .ofNat k =>
    let _ := steps
    if k ≤ 308 then
      let y := x.mul (Binary64.tenPow k)
      if y.isInfinite then none else some y
    else if x.isZero then some x else none
  | 0, x, .negSucc _ => some x
  | steps + 1, x, .negSucc k =>
    if k + 1 ≤ 308 then some (x.div (Binary64.tenPow (k + 1)))
    else if x.isZero then some x
    else scaleByTen steps (x.div (Binary64.tenPow 308)) (308 - (k + 1 : Nat))

/-- Why a numeral has no value: its exponent alone is too large, with the bytes after the
digit that shows it, or the number is. -/
inductive OutOfRange where
  | exponent (digitsLeft : Bytes)
  | value

/-- The number a numeral denotes. Whole numbers are exact up to 64 bits (63 with a sign); minus
zero and all others are floating point. -/
def Numeral.value (negative : Bool) (n : Numeral) : Except OutOfRange Number :=
  let (m, extra) := appendDigits 0 n.whole
  let sign (x : Binary64) : Number := .decimal (if negative then x.neg else x)
  let scaled (m : Nat) (e : Int) : Except OutOfRange Number :=
    match scaleByTen 4 (Binary64.ofNat m) e with
    | some x => .ok (sign x)
    | none => .error .value
  if n.fraction?.isNone ∧ n.exponent?.isNone ∧ extra = [] then
    if !negative then .ok (.natural m)
    else if m = 0 ∨ Nat.pow 2 63 < m then .ok (sign (Binary64.ofNat m))
    else .ok (.negative m)
  else
    let fraction := n.fraction?.getD []
    let (m, extraFraction) := appendDigits m fraction
    let e : Int := (extra.length : Int) - ((fraction.length : Int) - extraFraction.length)
    match n.exponent? with
    | none => scaled m e
    | some (negativeExponent, ds) =>
      match exponentValue 0 ds with
      | .ok k => scaled m (if negativeExponent then e - k else e + k)
      | .error left =>
        if m ≠ 0 ∧ !negativeExponent then .error (.exponent left)
        else .ok (sign (Binary64.ofNat 0))

/-- A number after its sign. `ahead` is how many of the bytes after a number too large count as
read. -/
def readNumber (ahead : Nat) (negative : Bool) : Reader Number := fun bs => do
  let (n, rest) ← numeral bs
  match n.value negative with
  | .ok v => return (v, rest)
  | .error (.exponent left) => stopAt .numberOutOfRange (left ++ rest)
  | .error .value => stopAt .numberOutOfRange (rest.drop ahead)

/-! ## Strings -/

def hexValue? (b : UInt8) : Option Nat :=
  if isDigit b then some (b.toNat - 48)
  else if 97 ≤ b && b ≤ 102 then some (b.toNat - 87)
  else if 65 ≤ b && b ≤ 70 then some (b.toNat - 55)
  else none

def hexFour : Reader Nat := fun bs =>
  match bs with
  | a :: b :: c :: d :: rest =>
    match hexValue? a, hexValue? b, hexValue? c, hexValue? d with
    | some a, some b, some c, some d => .ok (((a * 16 + b) * 16 + c) * 16 + d, rest)
    | _, _, _, _ => stopAt .invalidEscape rest
  | _ => stopAt .endInString []

/-- The second half of a surrogate pair, which is written as an escape of its own. -/
def secondSurrogate : Reader Nat := fun bs =>
  match bs with
  | [] => stopAt .endInString []
  | b :: bs =>
    if b ≠ ascii '\\' then stopAt .endInSurrogatePair bs
    else match bs with
      | [] => stopAt .endInString []
      | u :: bs =>
        if u ≠ ascii 'u' then stopAt .endInSurrogatePair bs
        else do
          let (n, rest) ← hexFour bs
          if n < 0xDC00 ∨ 0xDFFF < n then stopAt .loneSurrogate rest else return (n, rest)

/-- The character of an escape by code unit, after its `u`, and the number of bytes it takes. -/
def codeUnitEscape (bs : Bytes) : Except Stop (Char × Nat) := do
  let (n, rest) ← hexFour bs
  if 0xDC00 ≤ n ∧ n ≤ 0xDFFF then stopAt .loneSurrogate rest
  else if 0xD800 ≤ n ∧ n ≤ 0xDBFF then
    let (n₂, _) ← secondSurrogate rest
    return (Char.ofNat (0x10000 + (n - 0xD800) * 0x400 + (n₂ - 0xDC00)), 10)
  else return (Char.ofNat n, 4)

/-- The character of an escape, after its backslash, and the number of bytes it takes. -/
def escape : Bytes → Except Stop (Char × Nat)
  | [] => stopAt .endInString []
  | b :: rest =>
    if b = ascii '\x22' then .ok ('\x22', 1)
    else if b = ascii '\\' then .ok ('\\', 1)
    else if b = ascii '/' then .ok ('/', 1)
    else if b = ascii 'b' then .ok ('\x08', 1)
    else if b = ascii 'f' then .ok ('\x0c', 1)
    else if b = ascii 'n' then .ok ('\n', 1)
    else if b = ascii 'r' then .ok ('\r', 1)
    else if b = ascii 't' then .ok ('\t', 1)
    else if b = ascii 'u' then (codeUnitEscape rest).map fun r => (r.1, r.2 + 1)
    else stopAt .invalidEscape rest

/-- The bytes of a string with its escapes resolved, after the first `skip` bytes and up to its
closing quote. -/
def stringBytes : Nat → Reader Bytes
  | _, [] => stopAt .endInString []
  | skip + 1, _ :: bs => stringBytes skip bs
  | 0, b :: bs =>
    if b = ascii '\x22' then .ok ([], bs)
    else if b = ascii '\\' then do
      let (c, width) ← escape bs
      let (s, rest) ← stringBytes width bs
      return (Utf8.encodeChar c ++ s, rest)
    else if b < 0x20 then stopAt .controlCharacter bs
    else do
      let (s, rest) ← stringBytes 0 bs
      return (b :: s, rest)

/-- A string after its opening quote. Whether its bytes are well formed is seen at the closing
quote; the place is as many bytes before as there are from the first ill-formed one on. -/
def readString : Reader Text := fun bs => do
  let (s, rest) ← stringBytes 0 bs
  match Utf8.decode? s with
  | some text => return (text, rest)
  | none =>
    .error { fault := .invalidCodePoint, rest, before := s.length - Utf8.soundLength 0 s }

end TypeCoverage.Json
