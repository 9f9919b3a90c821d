/-!
# Text

A text is a list of Unicode scalar values, a byte string a list of bytes. Positions, lengths
and offsets of this library count list elements, so every law about them is a law about lists.
Words that the library compares with are spelled as lists of characters, and messages for
people are strings.
-/

set_option autoImplicit false

namespace TypeCoverage

/-- A sequence of Unicode scalar values. -/
abbrev Text := List Char

/-- A sequence of bytes. -/
abbrev Bytes := List UInt8

/-- The decimal digits of a number, without leading zeros. -/
def Text.ofNat (n : Nat) : Text := Nat.toDigits 10 n

/-- The two hexadecimal digits of a number below 256. -/
def Text.hexPair (n : Nat) : Text := [Nat.digitChar (n / 16 % 16), Nat.digitChar (n % 16)]

namespace Text

/-! ## Cutting and joining -/

/-- The pieces between the occurrences of `sep`. There is always at least one, and joining
them with `sep` gives the text back. -/
def pieces (sep : Char) : Text → List Text
  | [] => [[]]
  | c :: cs =>
    if c = sep then [] :: pieces sep cs
    else match pieces sep cs with
      | [] => [[c]]
      | p :: ps => (c :: p) :: ps

/-- The pieces with `sep` between each two of them. -/
def join (sep : Text) : List Text → Text
  | [] => []
  | [p] => p
  | p :: q :: ps => p ++ sep ++ join sep (q :: ps)

/-- What follows `start` in a text that begins with it. -/
def stripPrefix? : Text → Text → Option Text
  | [], s => some s
  | _ :: _, [] => none
  | p :: ps, c :: cs => if p = c then stripPrefix? ps cs else none

/-- Whether `part` occurs in the text as a run of neighbours. -/
def occursIn (part : Text) : Text → Bool
  | [] => part.isEmpty
  | c :: cs => part.isPrefixOf (c :: cs) || occursIn part cs

theorem pieces_ne_nil (sep : Char) (s : Text) : pieces sep s ≠ [] := by
  cases s with
  | nil => simp [pieces]
  | cons c cs =>
    simp only [pieces]
    split
    · simp
    · split <;> simp

theorem join_pieces (sep : Char) (s : Text) : join [sep] (pieces sep s) = s := by
  induction s with
  | nil => rfl
  | cons c cs ih =>
    have hne := pieces_ne_nil sep cs
    simp only [pieces]
    cases hp : pieces sep cs with
    | nil => exact absurd hp hne
    | cons p ps =>
      rw [hp] at ih
      split
      · next h => simp [join, ih, h]
      · cases ps with
        | nil => simpa [join] using ih
        | cons q qs => simpa [join] using ih

theorem stripPrefix?_eq_some_iff {start s rest : Text} :
    stripPrefix? start s = some rest ↔ s = start ++ rest := by
  induction start generalizing s with
  | nil => simp [stripPrefix?]
  | cons p ps ih =>
    cases s with
    | nil => simp [stripPrefix?]
    | cons c cs =>
      simp only [stripPrefix?, List.cons_append, List.cons.injEq]
      by_cases h : p = c
      · simp [h, ih]
      · simp [h, Ne.symm h]

end Text

end TypeCoverage
