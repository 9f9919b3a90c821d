import TypeCoverage.Text.Basic

/-!
# Lines and positions

A position is a line and a character in that line, both counted from zero in characters. A
newline ends a line; a carriage return directly before it belongs to the line ending, and one
anywhere else is a character like any other.
-/

set_option autoImplicit false

namespace TypeCoverage

/-- A place in a text: a line and a character in that line, both counted from zero. -/
structure Position where
  line : Nat
  character : Nat
  deriving DecidableEq, Repr

namespace Position

def start : Position := ⟨0, 0⟩

def advance (p : Position) (c : Char) : Position :=
  if c = '\n' then ⟨p.line + 1, 0⟩ else ⟨p.line, p.character + 1⟩

/-- The place after a whole text. -/
def after (p : Position) (s : Text) : Position := s.foldl advance p

@[simp] theorem after_nil (p : Position) : p.after [] = p := rfl

@[simp] theorem after_cons (p : Position) (c : Char) (s : Text) :
    p.after (c :: s) = (p.advance c).after s := rfl

theorem after_append (p : Position) (s t : Text) : p.after (s ++ t) = (p.after s).after t := by
  simp [after]

end Position

namespace Text

/-- The lines of a text without their line endings. Nothing follows a final line ending. -/
def lines : Text → List Text
  | [] => []
  | '\r' :: '\n' :: cs => [] :: lines cs
  | '\n' :: cs => [] :: lines cs
  | c :: cs =>
    match lines cs with
    | [] => [[c]]
    | l :: ls => (c :: l) :: ls

end Text

end TypeCoverage
