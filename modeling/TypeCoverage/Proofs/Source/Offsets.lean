import Mathlib.Tactic.Common
import TypeCoverage.Proofs.Source.Lexeme

/-!
# Offsets in the mask

A pass may take an escape, and each delimiter of a block comment, in one stride of two characters,
and write what the mask shows for both of them. It writes the same mask: a stride always writes as
many characters as it reads, also where a literal or a comment is left open at the end. So each
offset of the mask is an offset of the source, with a line break where the source has one.
-/

set_option autoImplicit false

namespace TypeCoverage.Source

variable {rest : Text}

/-! ## Strides -/

/-- What a stride begins in. -/
inductive Ground where
  | code
  | lineComment
  | blockComment
  | literal (quote : Char)

/-- The mode of the pass by single characters there. -/
def Ground.mode : Ground → Mode
  | code => .code
  | lineComment => .lineComment
  | blockComment => .blockComment
  | literal quote => .literal quote

/-- What the pass in strides writes for a text. -/
def writtenFrom : Ground → Text → Text
  | _, [] => []
  -- a line comment needs no stride of two: its second slash is read in the comment
  | .code, '/' :: '/' :: rest => ' ' :: writtenFrom .lineComment ('/' :: rest)
  | .code, '/' :: '*' :: rest => ' ' :: ' ' :: writtenFrom .blockComment rest
  | .code, c :: rest => c :: writtenFrom (if isQuote c then .literal c else .code) rest
  | .lineComment, '\n' :: rest => '\n' :: writtenFrom .code rest
  | .lineComment, _ :: rest => ' ' :: writtenFrom .lineComment rest
  | .blockComment, '*' :: '/' :: rest => ' ' :: ' ' :: writtenFrom .code rest
  | .blockComment, c :: rest => (if c = '\n' then c else ' ') :: writtenFrom .blockComment rest
  | .literal quote, '\\' :: c :: rest =>
    ' ' :: (if c = '\n' then c else ' ') :: writtenFrom (.literal quote) rest
  | .literal quote, c :: rest =>
    if c = quote then c :: writtenFrom .code rest
    else if c = '\n' then
      '\n' :: writtenFrom (if quote = '\x60' then .literal quote else .code) rest
    else ' ' :: writtenFrom (.literal quote) rest

/-- A stride of one character begins with none of the pairs that are taken at once. -/
theorem not_pair {a b c : Char} (h : ∀ ds, c = a → rest = b :: ds → False) :
    ¬ (c = a ∧ rest.head? = some b) := by
  rintro ⟨hc, hhead⟩
  obtain ⟨ds, hds⟩ := List.head?_eq_some_iff.1 hhead
  exact h ds hc hds

/-- A stride of one character in a literal begins with no backslash that escapes another one. -/
theorem not_escape {c : Char} (h : ∀ d ds, c = '\\' → rest = d :: ds → False) :
    ¬ (c = '\\' ∧ rest.head?.isSome) := by
  rintro ⟨hc, hsome⟩
  obtain ⟨d, hhead⟩ := Option.isSome_iff_exists.1 hsome
  exact not_pair (h d) ⟨hc, hhead⟩

/-- **The pass in strides.** It writes what the pass by single characters shows. -/
theorem writtenFrom_eq_maskFrom (ground : Ground) (source : Text) :
    writtenFrom ground source = maskFrom ground.mode source := by
  -- a case for each clause of the pass in strides, in their order
  fun_induction writtenFrom ground source with
  | case1 ground => rfl
  | case2 rest ih =>
      rw [ih]
      rfl
  | case3 rest ih =>
      rw [ih]
      rfl
  | case4 c rest hline hblock ih =>
      have hstep : step .code c rest.head?
          = (.code, (if isQuote c then Ground.literal c else Ground.code).mode) := by
        rw [step, if_neg (not_pair hline), if_neg (not_pair hblock)]
        split_ifs <;> rfl
      rw [ih, Ground.mode, maskFrom_cons, hstep]
      rfl
  | case5 rest ih =>
      rw [ih]
      rfl
  | case6 c rest hbreak ih =>
      have hstep : step .lineComment c rest.head? = (.comment, .lineComment) := if_neg hbreak
      have hblank : shown c .comment = ' ' := by
        rw [shown_of_ne_code (by decide), if_neg hbreak]
      rw [ih, Ground.mode, maskFrom_cons, hstep, hblank]
  | case7 rest ih =>
      rw [ih]
      rfl
  | case8 c rest hclose ih =>
      have hstep : step .blockComment c rest.head? = (.comment, .blockComment) :=
        if_neg (not_pair hclose)
      rw [ih, Ground.mode, maskFrom_cons_blank hstep (by decide)]
      rfl
  | case9 quote c rest ih =>
      show blanked ['\\', c] ++ writtenFrom (.literal quote) rest = _
      rw [ih]
      exact (maskFrom_piece (.escape c)).symm
  | case10 c rest hescape ih =>
      have hstep : step (.literal c) c rest.head? = (.code, .code) := by
        rw [step, if_neg (not_escape hescape), if_pos rfl]
      rw [ih, Ground.mode, Ground.mode, maskFrom_cons, hstep]
      rfl
  | case11 quote rest hescape hquote ih =>
      have hstep : step (.literal quote) '\n' rest.head?
          = (.literal, (if quote = '\x60' then Ground.literal quote else Ground.code).mode) := by
        rw [step, if_neg (not_escape hescape), if_neg hquote, if_pos rfl]
        split_ifs <;> rfl
      rw [ih, Ground.mode, maskFrom_cons, hstep]
      rfl
  | case12 quote c rest hescape hquote hbreak ih =>
      have hstep : step (.literal quote) c rest.head? = (.literal, .literal quote) := by
        rw [step, if_neg (not_escape hescape), if_neg hquote, if_neg hbreak]
      have hblank : shown c .literal = ' ' := by
        rw [shown_of_ne_code (by decide), if_neg hbreak]
      rw [ih, Ground.mode, maskFrom_cons, hstep, hblank]

/-! ## What stands at an offset -/

/-- At each offset of a mask a character of the text stands as it is shown for some region. -/
theorem exists_shown_at (mode : Mode) (source : Text) (i : Nat) :
    ∃ region, (maskFrom mode source)[i]? = source[i]?.map (shown · region) := by
  induction source generalizing mode i with
  | nil => exact ⟨.code, rfl⟩
  | cons c cs ih =>
      cases i with
      | zero => exact ⟨(step mode c cs.head?).1, rfl⟩
      | succ i => exact ih (step mode c cs.head?).2 i

/-- A line break stands in a mask where the text has one. -/
theorem newline_at_maskFrom_iff (mode : Mode) (source : Text) (i : Nat) :
    (maskFrom mode source)[i]? = some '\n' ↔ source[i]? = some '\n' := by
  obtain ⟨region, hregion⟩ := exists_shown_at mode source i
  rw [hregion, Option.map_eq_some_iff]
  constructor
  · rintro ⟨c, hc, hbreak⟩
    rw [hc, shown_eq_newline_iff.1 hbreak]
  · intro hbreak
    exact ⟨'\n', hbreak, shown_eq_newline_iff.2 rfl⟩

/-- At each offset of a mask stands what the text has there, or a space. -/
theorem kept_or_blank_at_maskFrom (mode : Mode) (source : Text) (i : Nat) :
    (maskFrom mode source)[i]? = source[i]? ∨ (maskFrom mode source)[i]? = some ' ' := by
  obtain ⟨region, hregion⟩ := exists_shown_at mode source i
  rw [hregion]
  cases source[i]? with
  | none => exact Or.inl rfl
  | some c =>
      rcases shown_eq_or_blank c region with hkept | hblank
      · exact Or.inl (congrArg some hkept)
      · exact Or.inr (congrArg some hblank)

/-- **The mask keeps offsets.** For every source, whatever it leaves open, the mask is what the pass
in strides writes. It is as long as the source, has its line breaks where the source has them, and
has the character of the source or a space at each offset. -/
theorem mask_keeps_offsets (source : Text) :
    mask source = writtenFrom .code source
      ∧ (mask source).length = source.length
      ∧ (∀ i : Nat, (mask source)[i]? = some '\n' ↔ source[i]? = some '\n')
      ∧ ∀ i : Nat, (mask source)[i]? = source[i]? ∨ (mask source)[i]? = some ' ' := by
  refine ⟨(writtenFrom_eq_maskFrom .code source).symm, length_mask source, ?_, ?_⟩
  · exact newline_at_maskFrom_iff .code source
  · exact kept_or_blank_at_maskFrom .code source

-- an escape takes a line break, and nothing stands behind the last backslash
example : mask "'a\\\nb\\".toList = "'  \n  ".toList := by
  decide

end TypeCoverage.Source
