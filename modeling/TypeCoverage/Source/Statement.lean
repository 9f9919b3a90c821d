import TypeCoverage.Source.Mask
import TypeCoverage.Text.Lines

/-!
# Top-level statements

A source is cut into its top-level statements by one pass over its cells, where a cell is a
source character with the character that the mask shows for it. Outside brackets a semicolon
ends a statement, and so does a line break before which the statement looks complete and after
which a new one seems to begin. A statement does not begin or end with blanks.
-/

set_option autoImplicit false

namespace TypeCoverage.Source

/-- A source character and what the mask shows for it. -/
structure Cell where
  source : Char
  code : Char
  deriving DecidableEq, Repr

def Cell.isBlank (cell : Cell) : Bool := TypeCoverage.isBlank cell.code

/-- A span of source that is one statement: its text, the mask of that text, and the place of
its first character. -/
structure Span where
  text : Text
  code : Text
  start : Position
  deriving DecidableEq, Repr

/-! ## Line breaks -/

/-- Words that begin a statement after a line break. -/
def statementWords : List Text :=
  [['a', 'b', 's', 't', 'r', 'a', 'c', 't'], ['a', 's', 'y', 'n', 'c'], ['c', 'l', 'a', 's',
    's'], ['c', 'o', 'n', 's', 't'], ['d', 'e', 'c', 'l', 'a', 'r', 'e'], ['e', 'n', 'u', 'm'],
    ['e', 'x', 'p', 'o', 'r', 't'], ['f', 'u', 'n', 'c', 't', 'i', 'o', 'n'],
    ['i', 'm', 'p', 'o', 'r', 't'], ['i', 'n', 't', 'e', 'r', 'f', 'a', 'c', 'e'], ['l', 'e',
      't'], ['m', 'o', 'd', 'u', 'l', 'e'], ['n', 'a', 'm', 'e', 's', 'p', 'a', 'c', 'e'], ['t',
      'y', 'p', 'e'], ['v', 'a', 'r']]

/-- Words that continue a statement after a closing brace and a line break. -/
def blockContinuations : List Text := [['e', 'l', 's', 'e'], ['c', 'a', 't', 'c', 'h'], ['f',
  'i', 'n', 'a', 'l', 'l', 'y'], ['w', 'h', 'i', 'l', 'e']]

/-- Characters after which a line break does not end a statement. -/
def continuationChars : List Char :=
  [',', '=', '+', '-', '*', '/', '%', '(', '[', '\x7b', '&', '|', '?', ':', '<', '>', '.', '!']

/-- Whether the cells before, the last one first, end with an arrow, between whose characters
blanks may stand. -/
def endsWithArrow (before : List Cell) : Bool :=
  match before.dropWhile Cell.isBlank with
  | ⟨_, '>'⟩ :: before =>
    match before.dropWhile Cell.isBlank with
    | ⟨_, '='⟩ :: _ => true
    | _ => false
  | _ => false

def endsWord (c : Char) : Bool := isBlank c || c == '(' || c == '\x7b' || c == '<'

/-- The first word of the cells ahead: up to a blank, a parenthesis, a brace or an angle. -/
def leadingWord (ahead : List Cell) : Text :=
  ((ahead.dropWhile Cell.isBlank).takeWhile fun cell => !endsWord cell.code).map Cell.code

/-- Whether a word ahead joins the statement before the line break. -/
def joinsBack : Text → Bool
  | c :: _ => c == '.' || c == '?' || c == ')'
  | [] => false

/-- Whether a line break outside brackets ends the statement with the cells `before`, the last
one first, when the cells `ahead` follow. An angle that closes type arguments does not continue
a statement, one that ends an arrow does. -/
def endsAtBreak (before ahead : List Cell) : Bool :=
  match (before.find? fun cell => !cell.isBlank).map Cell.code with
  | none => false
  | some last =>
    if continuationChars.contains last && !(last == '>' && !endsWithArrow before) then false
    else
      let word := leadingWord ahead
      if word.isEmpty then true
      else if joinsBack word then false
      else if last = '\x7d' then !blockContinuations.contains word
      else statementWords.contains word

/-! ## The pass -/

/-- A statement that has begun: its first place and its cells so far, the last one first. -/
structure Pending where
  start : Position
  cells : List Cell
  deriving DecidableEq, Repr

/-- The statement without the blanks at its end. -/
def Pending.span (p : Pending) : Span :=
  let kept := (p.cells.dropWhile Cell.isBlank).reverse
  ⟨kept.map Cell.source, kept.map Cell.code, p.start⟩

def Pending.push (p : Pending) (cell : Cell) : Pending := ⟨p.start, cell :: p.cells⟩

/-- The bracket depth after a character. A closing bracket without an opening one changes
nothing. -/
def depthAfter (depth : Nat) (c : Char) : Nat :=
  if c = '(' ∨ c = '[' ∨ c = '\x7b' then depth + 1
  else if c = ')' ∨ c = ']' ∨ c = '\x7d' then depth - 1
  else depth

/-- The statement a cell belongs to: the pending one, or one that begins here unless the cell
is blank. -/
def openAt (pending? : Option Pending) (place : Position) (cell : Cell) : Option Pending :=
  match pending? with
  | some p => some p
  | none => if cell.isBlank then none else some ⟨place, []⟩

/-- The statements of the cells ahead, met at a bracket depth and a place, with a statement
that may have begun before. -/
def splitFrom : Nat → Position → Option Pending → List Cell → List Span
  | _, _, none, [] => []
  | _, _, some p, [] => [p.span]
  | depth, place, pending?, cell :: ahead =>
    match openAt pending? place cell with
    | none => splitFrom depth (place.advance cell.code) none ahead
    | some p =>
      if cell.code = ';' ∧ depth = 0 then
        (p.push cell).span :: splitFrom depth (place.advance cell.code) none ahead
      else if cell.code = '\n' ∧ depth = 0 ∧ endsAtBreak p.cells ahead then
        p.span :: splitFrom depth (place.advance cell.code) none ahead
      else
        splitFrom (depthAfter depth cell.code) (place.advance cell.code)
          (some (p.push cell)) ahead

def cells (source : Text) : List Cell := source.zipWith Cell.mk (mask source)

/-- The top-level statements of a source. -/
def split (source : Text) : List Span := splitFrom 0 Position.start none (cells source)

end TypeCoverage.Source
