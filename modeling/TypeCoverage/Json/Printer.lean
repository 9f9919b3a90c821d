import TypeCoverage.Json.Basic
import TypeCoverage.Number.Notation

/-!
# Writing JSON

Two layouts of one value: on a single line without spaces, and indented by two spaces a level
with one item a line, where empty arrays and objects stay `[]` and `{}`. In strings the quote,
the backslash and the controls below U+0020 are escaped and nothing else is.
-/

set_option autoImplicit false

namespace TypeCoverage.Json

def hexDigit (n : Nat) : Char := Nat.digitChar (n % 16)

/-- How one character stands in a string. -/
def escapeChar (c : Char) : Text :=
  if c = '\x22' then ['\\', '\x22']
  else if c = '\\' then ['\\', '\\']
  else if c.toNat < 0x20 then
    if c = '\n' then ['\\', 'n']
    else if c = '\r' then ['\\', 'r']
    else if c = '\t' then ['\\', 't']
    else if c = '\x08' then ['\\', 'b']
    else if c = '\x0c' then ['\\', 'f']
    else ['\\', 'u', '0', '0', hexDigit (c.toNat / 16), hexDigit c.toNat]
  else [c]

def quote (s : Text) : Text := '\x22' :: (s.flatMap escapeChar ++ ['\x22'])

def Number.text : Number → Text
  | .natural n => Text.ofNat n
  | .negative n => '-' :: Text.ofNat n
  | .decimal x => x.compact

/-! ## On one line -/

mutual

/-- A value on one line. -/
def compact : Json → Text
  | .null => ['n', 'u', 'l', 'l']
  | .bool true => ['t', 'r', 'u', 'e']
  | .bool false => ['f', 'a', 'l', 's', 'e']
  | .number n => n.text
  | .string s => quote s
  | .array items => '[' :: (compactItems items ++ [']'])
  | .object members => '\x7b' :: (compactMembers members ++ ['\x7d'])

/-- The items of an array with commas between them. -/
def compactItems : List Json → Text
  | [] => []
  | [v] => compact v
  | v :: w :: vs => compact v ++ ',' :: compactItems (w :: vs)

/-- The members of an object with commas between them. -/
def compactMembers : List (Text × Json) → Text
  | [] => []
  | [(k, v)] => quote k ++ ':' :: compact v
  | (k, v) :: m :: ms => quote k ++ ':' :: (compact v ++ ',' :: compactMembers (m :: ms))

end

/-! ## Indented -/

def indent (level : Nat) : Text := List.replicate (2 * level) ' '

mutual

/-- A value whose closing bracket, if it has one on a line of its own, stands at `level`. -/
def pretty (level : Nat) : Json → Text
  | .null => ['n', 'u', 'l', 'l']
  | .bool true => ['t', 'r', 'u', 'e']
  | .bool false => ['f', 'a', 'l', 's', 'e']
  | .number n => n.text
  | .string s => quote s
  | .array [] => ['[', ']']
  | .array (v :: vs) =>
    '[' :: '\n' :: (prettyItems (level + 1) (v :: vs) ++ '\n' :: (indent level ++ [']']))
  | .object [] => ['\x7b', '\x7d']
  | .object (m :: ms) =>
    '\x7b' :: '\n' :: (prettyMembers (level + 1) (m :: ms)
      ++ '\n' :: (indent level ++ ['\x7d']))

/-- The items of an array, each on a line of its own at `level`. -/
def prettyItems (level : Nat) : List Json → Text
  | [] => []
  | [v] => indent level ++ pretty level v
  | v :: w :: vs =>
    indent level ++ (pretty level v ++ ',' :: '\n' :: prettyItems level (w :: vs))

/-- The members of an object, each on a line of its own at `level`. -/
def prettyMembers (level : Nat) : List (Text × Json) → Text
  | [] => []
  | [(k, v)] => indent level ++ (quote k ++ ':' :: ' ' :: pretty level v)
  | (k, v) :: m :: ms =>
    indent level ++ (quote k ++ ':' :: ' ' :: (pretty level v
      ++ ',' :: '\n' :: prettyMembers level (m :: ms)))

end

end TypeCoverage.Json
