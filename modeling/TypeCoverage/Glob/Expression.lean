import TypeCoverage.Glob.Match

/-!
# Patterns as regular expressions

Each pattern stands for a regular expression over bytes. How deep its syntax nests is limited:
a group, a choice, a sequence of several items, a repetition and a class take one level each,
and a class of several items one more. A pattern that nests too deep is refused with the others
it is used with.
-/

set_option autoImplicit false

namespace TypeCoverage.Glob

/-! ## Wording -/

/-- Characters with a meaning of their own in regular expressions. -/
def metaCharacters : List Char :=
  ['\\', '.', '+', '*', '?', '(', ')', '|', '[', ']', '\x7b', '\x7d', '^', '$', '#', '&', '-',
    '~']

/-- A byte that stands for itself. -/
def writtenByte (b : UInt8) : Text :=
  if 0x80 ≤ b then ['\\', 'x'] ++ Text.hexPair b.toNat
  else
    let c := Char.ofNat b.toNat
    if metaCharacters.contains c then ['\\', c] else [c]

/-- A character that stands for itself. -/
def writtenChar (c : Char) : Text := (Utf8.encodeChar c).flatMap writtenByte

def writtenRange (r : Char × Char) : Text :=
  if r.1 = r.2 then writtenChar r.1 else writtenChar r.1 ++ '-' :: writtenChar r.2

mutual

def Token.written : Token → Text
  | .literal c => writtenChar c
  | .anyByte => ['.']
  | .anyRun => ['.', '*']
  | .leadingDirs => ['(', '?', ':', '/', '?', '|', '.', '*', '/', ')']
  | .innerDirs => ['(', '?', ':', '/', '|', '/', '.', '*', '/', ')']
  | .trailingDirs => ['/', '.', '*']
  | .oneOf negated ranges =>
    ['['] ++ (if negated then ['^'] else []) ++ ranges.flatMap writtenRange ++ [']']
  | .group branches =>
    if branches.isEmpty then []
    else ['(', '?', ':'] ++ Text.join ['|'] (writtenEach branches) ++ [')']

def writtenAll : List Token → Text
  | [] => []
  | t :: ts => t.written ++ writtenAll ts

def writtenEach : List (List Token) → List Text
  | [] => []
  | ts :: branches => writtenAll ts :: writtenEach branches

end

/-- The expression of a whole pattern: over bytes, and from the start to the end of a path. -/
def expression (tokens : Pattern) : Text :=
  ['(', '?', '-', 'u', ')', '^'] ++ (match tokens with
    | [.leadingDirs] => ['.', '*']
    | _ => writtenAll tokens) ++ ['$']

/-! ## Nesting -/

/-- The number of items that a part of a pattern has in the sequence it stands in. -/
def Token.items : Token → Nat
  | .literal c => (Utf8.encodeChar c).length
  | .trailingDirs => 2
  | .group [] => 0
  | _ => 1

/-- The level that a list of so many members takes: none if it is a single one. -/
def levelOf (members : Nat) : Nat := if 1 < members then 1 else 0

mutual

/-- The levels below the sequence that a part of a pattern stands in. -/
def Token.depth : Token → Nat
  | .literal _ => 0
  | .anyByte => 0
  | .anyRun => 1
  | .leadingDirs => 4
  | .innerDirs => 4
  | .trailingDirs => 1
  | .oneOf _ ranges => 1 + levelOf (classBytes ranges).length
  | .group branches =>
    if branches.isEmpty then 0 else 1 + levelOf branches.length + depthEach branches

/-- The most levels below a sequence. -/
def depthAll : List Token → Nat
  | [] => 0
  | t :: ts => max t.depth (depthAll ts)

/-- The most levels of several alternatives, each with the level of its sequence. -/
def depthEach : List (List Token) → Nat
  | [] => 0
  | ts :: branches =>
    max (levelOf ((ts.map Token.items).foldr Nat.add 0) + depthAll ts) (depthEach branches)

end

/-- The most levels an expression may have. -/
def maxNesting : Nat := 250

/-- Whether the expression of a whole pattern, which is a sequence with its two ends, nests too
deep. -/
def isTooDeep (tokens : Pattern) : Bool := maxNesting < 1 + depthAll tokens

/-! ## Patterns that are used together -/

/-- Why patterns cannot be used together: an expression that is compiled by itself nests too
deep, or the one with this number among those that are compiled together. -/
inductive SetFault where
  | alone (expression : Text)
  | among (index : Nat)
  deriving DecidableEq, Repr

def SetFault.text : SetFault → String
  | .alone expression =>
    "error parsing glob '" ++ String.ofList expression ++ "': error parsing pattern 0"
  | .among index => "error parsing pattern " ++ toString index

/-- The fault of patterns that are used together, if there is one. Those with an extension that
is compared first are compiled by themselves, and then the others together. -/
def setFault? (patterns : List Pattern) : Option SetFault :=
  match (patterns.filter fun ts => approach ts = .extensionFirst).find? isTooDeep with
  | some tokens => some (.alone (expression tokens))
  | none =>
    ((patterns.filter fun ts => approach ts = .expression).findIdx? isTooDeep).map .among

end TypeCoverage.Glob
