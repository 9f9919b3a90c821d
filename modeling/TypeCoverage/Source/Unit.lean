import TypeCoverage.Source.Ignore
import TypeCoverage.Source.Import

/-!
# Scanned sources

The result of scanning a source: its top-level statements with their kinds, and the lines that
directives exclude from counting.
-/

set_option autoImplicit false

namespace TypeCoverage

/-- A top-level statement: what it is, its text, the mask of that text, and the place of its
first character. -/
structure Statement where
  kind : Source.StatementKind
  text : Text
  code : Text
  start : Position
  deriving DecidableEq, Repr

namespace Statement

def ofSpan (s : Source.Span) : Statement := ⟨s.kind, s.text, s.code, s.start⟩

def specifier? (s : Statement) : Option Text := s.kind.specifier?

/-- The place of an offset into the code. Offsets beyond the code give the place after it. -/
def placeOf (s : Statement) (offset : Nat) : Position := s.start.after (s.code.take offset)

end Statement

structure SourceUnit where
  statements : List Statement
  ignoredLines : List Nat
  deriving DecidableEq, Repr

def SourceUnit.parse (source : Text) : SourceUnit :=
  ⟨(Source.split source).map Statement.ofSpan, Source.ignoredLines source⟩

end TypeCoverage
