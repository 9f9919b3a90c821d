import TypeCoverage.Text.Blank
import TypeCoverage.Text.Word

/-!
# Matches in code

A recogniser looks at a place in code, given by the character before it and the code from it
on, and says whether it matches there: how many characters it takes, which part of them it is
about, and which type that part names. The search finds the leftmost matches that do not
overlap. Type expressions, which two of the recognisers end with, are recognised here too.
-/

set_option autoImplicit false

namespace TypeCoverage.Analysis

/-- A match at a place: the number of characters it takes, the number of those before the part
it is about, that part, and the type it names (nothing if it names none). -/
structure Match where
  length : Nat
  lead : Nat
  text : Text
  type : Text
  deriving DecidableEq, Repr

/-- Says whether there is a match at a place, from the character before and the code ahead. -/
abbrev Recogniser := Option Char → Text → Option Match

/-- The matches in the code ahead with the offset at which each begins. `skip` characters ahead
belong to the match before. -/
def matchesFrom (recognise : Recogniser) : Nat → Nat → Option Char → Text → List (Nat × Match)
  | _, _, _, [] => []
  | skip + 1, offset, _, c :: cs => matchesFrom recognise skip (offset + 1) (some c) cs
  | 0, offset, before, c :: cs =>
    match recognise before (c :: cs) with
    | some m =>
      (offset, m) :: matchesFrom recognise (m.length - 1) (offset + 1) (some c) cs
    | none => matchesFrom recognise 0 (offset + 1) (some c) cs

/-- The leftmost matches in a code that do not overlap, each with its offset. -/
def matchesIn (recognise : Recogniser) (code : Text) : List (Nat × Match) :=
  matchesFrom recognise 0 0 none code

/-! ## Parts of patterns -/

/-- The blanks at the head of a text, and what follows. -/
def blanks (s : Text) : Text × Text := (s.takeWhile isBlank, s.dropWhile isBlank)

/-- Whether the text is at the start of a word: the character before is no word character. -/
def atWordStart (before : Option Char) : Bool :=
  match before with
  | some c => !isWord c
  | none => true

/-- Whether a word stands alone at the head of a text, given the character before. -/
def wordAt (word : Text) (before : Option Char) (s : Text) : Bool :=
  atWordStart before && word.isPrefixOf s &&
    match s.drop word.length with
    | c :: _ => !isWord c
    | [] => true

/-- Whether a word stands alone anywhere in the text ahead. -/
def hasWordFrom (word : Text) : Option Char → Text → Bool
  | _, [] => false
  | before, c :: cs => wordAt word before (c :: cs) || hasWordFrom word (some c) cs

def hasWord (word : Text) (s : Text) : Bool := hasWordFrom word none s

/-! ## Type expressions -/

def isDottedChar (c : Char) : Bool := isNameChar c || c == '.'

/-- Whether type arguments cannot reach over a character. -/
def endsArguments (c : Char) : Bool :=
  c == ';' || c == '=' || c == '\x7b' || c == '\x7d' || c == '(' || c == ')'

/-- The part of a text up to its last closing angle. -/
def throughLastAngle (s : Text) : Text := (s.reverse.dropWhile fun c => c != '>').reverse

/-- Blanks and type arguments at the head of a text: from an opening angle to the last closing
one before a character that type arguments cannot reach over. -/
def typeArguments (s : Text) : Text :=
  let (gap, rest) := blanks s
  match rest with
  | '<' :: inner =>
    match throughLastAngle (inner.takeWhile fun c => !endsArguments c) with
    | [] => []
    | arguments => gap ++ '<' :: arguments
  | _ => []

/-- Pairs of square brackets at the head of a text. -/
def arraySuffix : Text → Text
  | '[' :: ']' :: cs => '[' :: ']' :: arraySuffix cs
  | _ => []

/-- The dotted name at the head of a text. -/
def dottedName? : Text → Option Text
  | c :: cs => if isNameStart c then some (c :: cs.takeWhile isDottedChar) else none
  | [] => none

/-- The type expression at the head of a text: a dotted name, type arguments if there are any,
and pairs of square brackets. -/
def typeExpression? (s : Text) : Option Text := do
  let name ← dottedName? s
  let rest := s.drop name.length
  let arguments := typeArguments rest
  let suffix := arraySuffix (rest.drop arguments.length)
  return name ++ arguments ++ suffix

end TypeCoverage.Analysis
