import TypeCoverage.Text.Basic

/-!
# White space

The twenty-five characters with the Unicode property White_Space, and trimming. The zero-width
characters U+200B and U+FEFF are not among them.
-/

set_option autoImplicit false

namespace TypeCoverage

/-- Whether a character has the property White_Space. -/
def isBlank (c : Char) : Bool :=
  let n := c.toNat
  (9 ≤ n && n ≤ 13) || n == 32 || n == 0x85 || n == 0xA0 || n == 0x1680
    || (0x2000 ≤ n && n ≤ 0x200A) || n == 0x2028 || n == 0x2029 || n == 0x202F
    || n == 0x205F || n == 0x3000

namespace Text

/-- The text from its first character that is not blank. -/
def skipBlanks (s : Text) : Text := s.dropWhile isBlank

/-- The text up to its last character that is not blank. -/
def trimEnd (s : Text) : Text := (s.reverse.dropWhile isBlank).reverse

/-- The text without the blanks at its two ends. -/
def trim (s : Text) : Text := trimEnd (skipBlanks s)

end Text

theorem isBlank_newline : isBlank '\n' = true := by decide

end TypeCoverage
