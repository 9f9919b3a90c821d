import TypeCoverage.Text.Blank
import TypeCoverage.Text.Lines
import TypeCoverage.Text.Word

/-!
# Ignore directives

A comment opener followed by `type-coverage:ignore-line` excludes its line from counting, and
one followed by `type-coverage:ignore-next-line` the line after it. Blanks may stand between the
opener and the directive, and no word character may follow it. The search is by lines and does
not look at what the opener belongs to.
-/

set_option autoImplicit false

namespace TypeCoverage.Source

/-- Which line a directive excludes. -/
inductive Directive where
  | sameLine
  | nextLine
  deriving DecidableEq, Repr

/-- What both directives begin with. -/
def directiveWord : Text := ['t', 'y', 'p', 'e', '-', 'c', 'o', 'v', 'e', 'r', 'a', 'g', 'e',
  ':', 'i', 'g', 'n', 'o', 'r', 'e', '-']

def Directive.ending : Directive → Text
  | .sameLine => ['l', 'i', 'n', 'e']
  | .nextLine => ['n', 'e', 'x', 't', '-', 'l', 'i', 'n', 'e']

/-- Whether a text does not continue a word. -/
def atWordEnd : Text → Bool
  | [] => true
  | c :: _ => !isWord c

def afterOpener? : Text → Option Text
  | '/' :: '/' :: s => some s
  | '/' :: '*' :: s => some s
  | _ => none

/-- Whether a comment opener with a directive stands at the head of a text. -/
def hasDirectiveAt (directive : Directive) (s : Text) : Bool :=
  match afterOpener? s with
  | none => false
  | some s =>
    match Text.stripPrefix? (directiveWord ++ directive.ending) (Text.skipBlanks s) with
    | some rest => atWordEnd rest
    | none => false

/-- Whether a line holds a directive anywhere. -/
def hasDirective (directive : Directive) : Text → Bool
  | [] => false
  | c :: cs => hasDirectiveAt directive (c :: cs) || hasDirective directive cs

/-- The excluded lines from line `n` on, where `carried` says that the line before excludes
line `n`. -/
def ignoredFrom : Nat → Bool → List Text → List Nat
  | n, carried, [] => if carried then [n] else []
  | n, carried, line :: lines =>
    (if carried || hasDirective .sameLine line then [n] else [])
      ++ ignoredFrom (n + 1) (hasDirective .nextLine line) lines

/-- The excluded lines of a source in increasing order. -/
def ignoredLines (source : Text) : List Nat := ignoredFrom 0 false (Text.lines source)

end TypeCoverage.Source
