import Mathlib.Data.List.Infix
import Mathlib.Tactic.Common
import TypeCoverage.Source.Mask

/-!
# Lexical items

A source is a sequence of lexical items if each code slash opens no comment and each line comment
goes on to the end of its line. The mask of such a source is made of the masks of its items: code
stays, comments are blank, and literals are blank between their quotes.
-/

set_option autoImplicit false

namespace TypeCoverage.Source

variable {quote : Char} {rest : Text}

/-! ## Items

An item has its text in a source, and the mask shows a text of the same length for it. -/

/-- A piece of what stands between two quotes. A line break needs a template or a backslash. -/
inductive LiteralPiece (quote : Char) where
  | plain (c : Char) (h : c ≠ quote ∧ c ≠ '\\' ∧ (c = '\n' → quote = '\x60'))
  | escape (c : Char)

def LiteralPiece.text : LiteralPiece quote → Text
  | plain c _ => [c]
  | escape c => ['\\', c]

/-- A lexical item: a character of code, a comment, or a literal. A block comment closes where it
first can. -/
inductive Lexeme where
  | code (c : Char) (h : isQuote c = false)
  | lineComment (body : Text) (h : '\n' ∉ body)
  | blockComment (body : Text) (h : ¬ ['*', '/'] <:+: body ++ ['*'])
  | literal (quote : Char) (h : isQuote quote = true) (pieces : List (LiteralPiece quote))

/-- A text with a space for every character that is no line break. -/
def blanked (s : Text) : Text := s.map fun c => if c = '\n' then c else ' '

theorem blanked_append (s t : Text) : blanked (s ++ t) = blanked s ++ blanked t :=
  List.map_append

namespace Lexeme

def text : Lexeme → Text
  | code c _ => [c]
  | lineComment body _ => '/' :: '/' :: body
  | blockComment body _ => '/' :: '*' :: (body ++ ['*', '/'])
  | literal quote _ pieces => quote :: (pieces.flatMap LiteralPiece.text ++ [quote])

def masked : Lexeme → Text
  | code c _ => [c]
  | lineComment body _ => blanked ('/' :: '/' :: body)
  | blockComment body _ => blanked ('/' :: '*' :: (body ++ ['*', '/']))
  | literal quote _ pieces => quote :: (blanked (pieces.flatMap LiteralPiece.text) ++ [quote])

/-- Whether an item ends where a text begins. -/
def EndsBefore (rest : Text) : Lexeme → Prop
  | code c _ => c = '/' → rest.head? ≠ some '/' ∧ rest.head? ≠ some '*'
  | lineComment _ _ => ∀ c ∈ rest.head?, c = '\n'
  | blockComment _ _ => True
  | literal _ _ _ => True

/-- Whether each item of a sequence ends where the next one begins. -/
def Separate : List Lexeme → Prop
  | [] => True
  | item :: items => item.EndsBefore (items.flatMap text) ∧ Separate items

end Lexeme

/-! ## What the pass makes of an item -/

/-- A character that belongs to a comment or a literal is shown blank. -/
theorem shown_of_ne_code {c : Char} {region : Region} (h : region ≠ .code) :
    shown c region = if c = '\n' then c else ' ' := by
  unfold shown
  by_cases hc : c = '\n'
  · rw [if_pos (Or.inr hc), if_pos hc]
  · rw [if_neg (not_or.2 ⟨h, hc⟩), if_neg hc]

/-- A character that the pass reads in some mode as part of no code, and goes on in another. -/
theorem maskFrom_cons_blank {mode mode' : Mode} {region : Region} {c : Char}
    (hstep : step mode c rest.head? = (region, mode')) (hregion : region ≠ .code) :
    maskFrom mode (c :: rest) = blanked [c] ++ maskFrom mode' rest := by
  rw [maskFrom_cons, hstep, shown_of_ne_code hregion]
  rfl

theorem maskFrom_lineComment {body : Text} (hbody : '\n' ∉ body)
    (hend : ∀ c ∈ rest.head?, c = '\n') :
    maskFrom .lineComment (body ++ rest) = blanked body ++ maskFrom .code rest := by
  induction body with
  | nil =>
      cases rest with
      | nil => rfl
      | cons c cs =>
          -- the line break ends the comment, and code would read it alike
          obtain rfl := hend c rfl
          rfl
  | cons c cs ih =>
      have hc : c ≠ '\n' := fun heq => hbody (by simp [heq])
      have hcs : '\n' ∉ cs := fun hmem => hbody (List.mem_cons_of_mem _ hmem)
      have hstep : step .lineComment c (cs ++ rest).head? = (.comment, .lineComment) := if_neg hc
      rw [List.cons_append, maskFrom_cons_blank hstep (by decide), ih hcs, ← List.append_assoc,
        ← blanked_append]
      rfl

theorem maskFrom_blockComment {body : Text} (hbody : ¬ ['*', '/'] <:+: body ++ ['*']) :
    maskFrom .blockComment (body ++ '*' :: '/' :: rest)
      = blanked (body ++ ['*', '/']) ++ maskFrom .code rest := by
  induction body with
  | nil => rfl
  | cons c cs ih =>
      have hcs : ¬ ['*', '/'] <:+: cs ++ ['*'] := fun hinfix => hbody (List.infix_cons hinfix)
      -- a star with a slash behind it would close the comment before its end
      have hopen : ¬ (c = '*' ∧ (cs ++ '*' :: '/' :: rest).head? = some '/') := by
        rintro ⟨rfl, hhead⟩
        cases cs with
        | nil => cases hhead
        | cons d ds =>
            obtain rfl := Option.some.inj hhead
            exact hbody ⟨[], ds ++ ['*'], rfl⟩
      have hstep : step .blockComment c (cs ++ '*' :: '/' :: rest).head?
          = (.comment, .blockComment) := if_neg hopen
      rw [List.cons_append, maskFrom_cons_blank hstep (by decide), ih hcs, ← List.append_assoc,
        ← blanked_append]
      rfl

theorem maskFrom_piece (piece : LiteralPiece quote) :
    maskFrom (.literal quote) (piece.text ++ rest)
      = blanked piece.text ++ maskFrom (.literal quote) rest := by
  cases piece with
  | plain c h =>
      obtain ⟨hclose, hescape, hbreak⟩ := h
      have hstep : step (.literal quote) c rest.head? = (.literal, .literal quote) := by
        by_cases hc : c = '\n'
        · subst hc
          obtain rfl := hbreak rfl
          rfl
        · rw [step, if_neg fun h => hescape h.1, if_neg hclose, if_neg hc]
      exact maskFrom_cons_blank hstep (by decide)
  | escape c =>
      have hopen : step (.literal quote) '\\' (c :: rest).head? = (.literal, .escaped quote) := rfl
      have hnext : step (.escaped quote) c rest.head? = (.literal, .literal quote) := rfl
      show maskFrom (.literal quote) ('\\' :: c :: rest) = _
      rw [maskFrom_cons_blank hopen (by decide), maskFrom_cons_blank hnext (by decide)]
      rfl

theorem maskFrom_pieces (pieces : List (LiteralPiece quote)) :
    maskFrom (.literal quote) (pieces.flatMap LiteralPiece.text ++ rest)
      = blanked (pieces.flatMap LiteralPiece.text) ++ maskFrom (.literal quote) rest := by
  induction pieces with
  | nil => rfl
  | cons piece pieces ih =>
      rw [List.flatMap_cons, List.append_assoc, maskFrom_piece, ih,
        ← List.append_assoc, ← blanked_append]

/-- The pass reads an item as a whole, and is in code after it. -/
theorem maskFrom_lexeme (item : Lexeme) (hend : item.EndsBefore rest) :
    maskFrom .code (item.text ++ rest) = item.masked ++ maskFrom .code rest := by
  cases item with
  | code c h =>
      have hstep : step .code c rest.head? = (.code, .code) := by
        have hline : ¬ (c = '/' ∧ rest.head? = some '/') := fun hc => (hend hc.1).1 hc.2
        have hblock : ¬ (c = '/' ∧ rest.head? = some '*') := fun hc => (hend hc.1).2 hc.2
        rw [step, if_neg hline, if_neg hblock, h]
        rfl
      show maskFrom .code (c :: rest) = c :: maskFrom .code rest
      rw [maskFrom_cons, hstep]
      rfl
  | lineComment body h =>
      have hopen : step .code '/' ('/' :: (body ++ rest)).head? = (.comment, .lineComment) := rfl
      have hnext : step .lineComment '/' (body ++ rest).head? = (.comment, .lineComment) := rfl
      show maskFrom .code ('/' :: '/' :: (body ++ rest)) = _
      rw [maskFrom_cons_blank hopen (by decide), maskFrom_cons_blank hnext (by decide),
        maskFrom_lineComment h hend]
      rfl
  | blockComment body h =>
      have hopen : ∀ s : Text, step .code '/' ('*' :: s).head? = (.comment, .blockOpen) :=
        fun _ => rfl
      have hnext : ∀ next?, step .blockOpen '*' next? = (.comment, .blockComment) := fun _ => rfl
      have htext : (Lexeme.blockComment body h).text ++ rest
          = '/' :: '*' :: (body ++ '*' :: '/' :: rest) := by
        simp [Lexeme.text]
      rw [htext, maskFrom_cons_blank (hopen _) (by decide),
        maskFrom_cons_blank (hnext _) (by decide), maskFrom_blockComment h]
      rfl
  | literal quote h pieces =>
      have hne : quote ≠ '/' ∧ quote ≠ '\\' := by
        constructor <;> rintro rfl <;> exact absurd h (by decide)
      have hopen : ∀ next?, step .code quote next? = (.code, .literal quote) := by
        intro next?
        simp [step, hne.1, h]
      have hclose : ∀ next?, step (.literal quote) quote next? = (.code, .code) := by
        intro next?
        simp [step, hne.2]
      have htext : (Lexeme.literal quote h pieces).text ++ rest
          = quote :: (pieces.flatMap LiteralPiece.text ++ quote :: rest) := by
        simp [Lexeme.text]
      rw [htext, maskFrom_cons, hopen, maskFrom_pieces, maskFrom_cons, hclose]
      simp [Lexeme.masked, shown]

/-- **The mask of lexical items.** The mask of a sequence of separate items shows each of them as it
is masked alone. -/
theorem mask_lexemes (items : List Lexeme) (hseparate : Lexeme.Separate items) :
    mask (items.flatMap Lexeme.text) = items.flatMap Lexeme.masked := by
  induction items with
  | nil => rfl
  | cons item items ih =>
      obtain ⟨hend, hitems⟩ := hseparate
      rw [List.flatMap_cons, List.flatMap_cons, ← ih hitems]
      exact maskFrom_lexeme item hend

/-- A slash, a string with an escaped quote and what would open a comment, a block comment that
begins as if it closed at once, a line comment with a quote, and a template over three lines. -/
def mixedLexemes : List Lexeme :=
  [.code '/' (by decide),
    .literal '\x27' (by decide) [.escape '\x27', .plain '/' (by decide), .plain '*' (by decide)],
    .blockComment ['/', '\x22'] (by decide), .lineComment ['*', '/', '\x60'] (by decide),
    .code '\n' (by decide),
    .literal '\x60' (by decide) [.plain '\n' (by decide), .escape '\n']]

theorem mask_lexemes_mixed : Lexeme.Separate mixedLexemes
    ∧ mask (mixedLexemes.flatMap Lexeme.text) = mixedLexemes.flatMap Lexeme.masked := by
  have hseparate : Lexeme.Separate mixedLexemes := by
    simp [Lexeme.Separate, Lexeme.EndsBefore, mixedLexemes, Lexeme.text]
  exact ⟨hseparate, mask_lexemes mixedLexemes hseparate⟩

end TypeCoverage.Source
