import TypeCoverage.Json.Token

/-!
# Passing over a value

The value of a member nobody asked for is checked for form and otherwise passed over. Nesting
is unlimited, numbers may have any size, and strings are not decoded. The reader keeps the
brackets that are open around it and moves between three stages.
-/

set_option autoImplicit false

namespace TypeCoverage.Json

/-- A bracket that is open around the place of reading. -/
inductive Bracket where
  | list
  | object
  deriving DecidableEq, Repr

def Bracket.closing : Bracket → UInt8
  | .list => ascii ']'
  | .object => ascii '\x7d'

/-- The digits of a number that is passed over. -/
def skipWhole (bs : Bytes) : Except Stop Bytes :=
  match bs with
  | [] => stopAt .invalidNumber []
  | b :: bs' =>
    if b = ascii '0' then
      match bs' with
      | d :: _ => if isDigit d then stopAhead .invalidNumber bs' else .ok bs'
      | [] => .ok bs'
    else if isDigit b then .ok (bs.dropWhile isDigit)
    else stopAt .invalidNumber bs'

/-- The fraction of a number that is passed over, if it has one. -/
def skipFraction (bs : Bytes) : Except Stop Bytes :=
  match bs with
  | b :: bs' =>
    if b = ascii '.' then
      match bs' with
      | d :: _ => if isDigit d then .ok (bs'.dropWhile isDigit) else stopAhead .invalidNumber bs'
      | [] => stopAt .invalidNumber []
    else .ok bs
  | [] => .ok []

/-- The exponent of a number that is passed over, if it has one. -/
def skipExponent (bs : Bytes) : Except Stop Bytes :=
  match bs with
  | b :: bs' =>
    if b = ascii 'e' ∨ b = ascii 'E' then
      let ds := match bs' with
        | s :: ds => if s = ascii '-' ∨ s = ascii '+' then ds else s :: ds
        | [] => []
      match ds with
      | [] => stopAt .invalidNumber []
      | d :: ds' => if isDigit d then .ok (ds'.dropWhile isDigit) else stopAt .invalidNumber ds'
    else .ok bs
  | [] => .ok []

/-- A number that is passed over, after its sign. -/
def skipNumber (bs : Bytes) : Except Stop Bytes := do
  let bs ← skipWhole bs
  let bs ← skipFraction bs
  skipExponent bs

/-- The number of bytes of an escape that is passed over, after its backslash. Code units are
not paired. -/
def skipEscape : Bytes → Except Stop Nat
  | [] => stopAt .endInString []
  | b :: rest =>
    if b = ascii 'u' then (hexFour rest).map fun _ => 5
    else if (['\x22', '\\', '/', 'b', 'f', 'n', 'r', 't'].map ascii).contains b then .ok 1
    else stopAt .invalidEscape rest

/-- A string that is passed over, after its opening quote and the first `skip` bytes. -/
def skipString : Nat → Bytes → Except Stop Bytes
  | _, [] => stopAt .endInString []
  | skip + 1, _ :: bs => skipString skip bs
  | 0, b :: bs =>
    if b = ascii '\x22' then .ok bs
    else if b = ascii '\\' then do
      let width ← skipEscape bs
      skipString width bs
    else if b < 0x20 then stopAt .controlCharacter (b :: bs)
    else skipString 0 bs

/-- Where the reader stands: before a value, after one (or after an opening bracket, where no
comma may stand), or before an item of the innermost bracket. -/
inductive Stage where
  | value
  | next (comma : Bool)
  deriving DecidableEq, Repr

def skipKey (bs : Bytes) : Except Stop Bytes :=
  match skipSpace bs with
  | [] => stopAt .endInObject []
  | b :: rest =>
    if b ≠ ascii '\x22' then stopAhead .keyNotString (b :: rest)
    else do
      let rest ← skipString 0 rest
      match skipSpace rest with
      | [] => stopAt .endInObject []
      | c :: rest => if c = ascii ':' then .ok rest else stopAhead .expectedColon (c :: rest)

/-- The start of an item: in an object its key and colon, in a list nothing. -/
def skipLabel (bracket : Bracket) (bs : Bytes) : Except Stop Bytes :=
  match bracket with
  | .list => .ok bs
  | .object => skipKey bs

/-- Passes over what is left of a value inside the open brackets. Each step but the one from an
opening bracket to its first item takes a byte, which bounds `fuel` by twice the bytes. -/
def skipFrom : Nat → Stage → List Bracket → Bytes → Except Stop Bytes
  | 0, _, _, bs => stopAt .endInValue bs
  | _ + 1, .next _, [], bs => .ok bs
  | fuel + 1, .value, brackets, bs =>
    match skipSpace bs with
    | [] => stopAt .endInValue []
    | b :: rest =>
      if b = ascii '[' then skipFrom fuel (.next false) (.list :: brackets) rest
      else if b = ascii '\x7b' then skipFrom fuel (.next false) (.object :: brackets) rest
      else do
        let rest ←
          if b = ascii 'n' then word ['u', 'l', 'l'] rest
          else if b = ascii 't' then word ['r', 'u', 'e'] rest
          else if b = ascii 'f' then word ['a', 'l', 's', 'e'] rest
          else if b = ascii '-' then skipNumber rest
          else if isDigit b then skipNumber (b :: rest)
          else if b = ascii '\x22' then skipString 0 rest
          else stopAhead .expectedValue (b :: rest)
        skipFrom fuel (.next true) brackets rest
  | fuel + 1, .next comma, bracket :: brackets, bs =>
    match skipSpace bs with
    | [] => stopAt (match bracket with | .list => .endInList | .object => .endInObject) []
    | b :: rest =>
      if b = bracket.closing then skipFrom fuel (.next true) brackets rest
      else if comma then
        if b = ascii ',' then do
          let rest ← skipLabel bracket rest
          skipFrom fuel .value (bracket :: brackets) rest
        else
          stopAhead (match bracket with
            | .list => .expectedListCommaOrEnd
            | .object => .expectedObjectCommaOrEnd) (b :: rest)
      else do
        let rest ← skipLabel bracket (b :: rest)
        skipFrom fuel .value (bracket :: brackets) rest

def skipValue (bs : Bytes) : Except Stop Bytes := skipFrom (2 * bs.length + 2) .value [] bs

end TypeCoverage.Json
