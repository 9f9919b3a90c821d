import TypeCoverage.Text.Blank

/-!
# Masking comments and literals

Every character of a source belongs to a region: code, a comment, or the content of a string or
template literal. The quotes of a literal count as code. A single pass assigns the regions, one
character at a time with one character of lookahead. The mask of a source shows the code and
puts a space for everything else, but newlines stand everywhere, so lines and offsets are those
of the source.
-/

set_option autoImplicit false

namespace TypeCoverage.Source

/-- What a character of a source belongs to. -/
inductive Region where
  | code
  | comment
  | literal
  deriving DecidableEq, Repr

/-- Where the pass stands. `blockOpen` and `blockClose` are inside a two-character delimiter of
a block comment, and `escaped` is after a backslash in a literal. -/
inductive Mode where
  | code
  | lineComment
  | blockOpen
  | blockComment
  | blockClose
  | literal (quote : Char)
  | escaped (quote : Char)
  deriving DecidableEq, Repr

/-- Whether a character opens a literal. -/
def isQuote (c : Char) : Bool := c == '\x27' || c == '\x22' || c == '\x60'

/-- The region of a character, and the mode after it. A literal other than a template ends at a
line break if nothing closed it before. A backslash at the very end escapes nothing. -/
def step (mode : Mode) (c : Char) (next? : Option Char) : Region × Mode :=
  match mode with
  | .code =>
    if c = '/' ∧ next? = some '/' then (.comment, .lineComment)
    else if c = '/' ∧ next? = some '*' then (.comment, .blockOpen)
    else if isQuote c then (.code, .literal c)
    else (.code, .code)
  | .lineComment => if c = '\n' then (.code, .code) else (.comment, .lineComment)
  | .blockOpen => (.comment, .blockComment)
  | .blockComment =>
    if c = '*' ∧ next? = some '/' then (.comment, .blockClose) else (.comment, .blockComment)
  | .blockClose => (.comment, .code)
  | .literal quote =>
    if c = '\\' ∧ next?.isSome then (.literal, .escaped quote)
    else if c = quote then (.code, .code)
    else if c = '\n' then (.literal, if quote = '\x60' then .literal quote else .code)
    else (.literal, .literal quote)
  | .escaped quote => (.literal, .literal quote)

/-- The regions of the characters of a text that is met in a mode. -/
def regionsFrom : Mode → Text → List Region
  | _, [] => []
  | mode, c :: cs =>
    (step mode c cs.head?).1 :: regionsFrom (step mode c cs.head?).2 cs

def regions (source : Text) : List Region := regionsFrom .code source

/-- How a character of a region is shown. -/
def shown (c : Char) (region : Region) : Char :=
  if region = .code ∨ c = '\n' then c else ' '

/-- The mask of a text that is met in a mode. -/
def maskFrom (mode : Mode) (source : Text) : Text :=
  source.zipWith shown (regionsFrom mode source)

/-- The source with comments and the contents of literals replaced by spaces. -/
def mask (source : Text) : Text := maskFrom .code source

/-- A line break, and no other character, is shown as a line break. -/
theorem shown_eq_newline_iff {c : Char} {region : Region} : shown c region = '\n' ↔ c = '\n' := by
  unfold shown
  split
  · rfl
  · next h =>
      constructor
      · intro hspace
        exact absurd hspace (by decide)
      · intro hc
        exact absurd (Or.inr hc) h

/-- A character is shown as it is or as a space. -/
theorem shown_eq_or_blank (c : Char) (region : Region) :
    shown c region = c ∨ shown c region = ' ' := by
  unfold shown
  split
  · exact Or.inl rfl
  · exact Or.inr rfl

@[simp] theorem length_regionsFrom (mode : Mode) (source : Text) :
    (regionsFrom mode source).length = source.length := by
  induction source generalizing mode with
  | nil => rfl
  | cons c cs ih => simp [regionsFrom, ih]

@[simp] theorem length_mask (source : Text) : (mask source).length = source.length := by
  simp [mask, maskFrom]

@[simp] theorem maskFrom_nil (mode : Mode) : maskFrom mode [] = [] := rfl

theorem maskFrom_cons (mode : Mode) (c : Char) (cs : Text) :
    maskFrom mode (c :: cs)
      = shown c (step mode c cs.head?).1 :: maskFrom (step mode c cs.head?).2 cs := rfl

end TypeCoverage.Source
