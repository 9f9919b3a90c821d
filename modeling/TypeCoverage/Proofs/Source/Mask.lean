import Mathlib.Tactic.Common
import TypeCoverage.Source.Mask

/-!
# What the mask shows

The pass over a source reads a stretch of plain code, or a whole literal, at once. A comment ends
with a slash or before a line break. A source without its comments has the mask of the source, as
the pass stays in code where a comment was.
-/

set_option autoImplicit false

namespace TypeCoverage.Source

variable {source rest : Text} {mode : Mode} {quote : Char}

/-! ## Stretches -/

/-- Code without slashes and quotes is shown as it is. -/
theorem maskFrom_code_append {stretch : Text}
    (h : ∀ c ∈ stretch, c ≠ '/' ∧ isQuote c = false) :
    maskFrom .code (stretch ++ rest) = stretch ++ maskFrom .code rest := by
  induction stretch with
  | nil => rfl
  | cons c cs ih =>
      obtain ⟨hslash, hquote⟩ := h c (by simp)
      have hstep : ∀ next?, step .code c next? = (.code, .code) := by
        intro next?
        simp [step, hslash, hquote]
      rw [List.cons_append, maskFrom_cons, hstep, ih fun d hd => h d (by simp [hd])]
      rfl

/-- The content of a literal is shown as spaces. -/
theorem maskFrom_literal_append {content : Text}
    (h : ∀ c ∈ content, c ≠ quote ∧ c ≠ '\\' ∧ c ≠ '\n') :
    maskFrom (.literal quote) (content ++ rest)
      = List.replicate content.length ' ' ++ maskFrom (.literal quote) rest := by
  induction content with
  | nil => rfl
  | cons c cs ih =>
      obtain ⟨hquote, hescape, hbreak⟩ := h c (by simp)
      have hstep : ∀ next?, step (.literal quote) c next? = (.literal, .literal quote) := by
        intro next?
        simp [step, hquote, hescape, hbreak]
      have hshown : shown c .literal = ' ' := by
        rw [shown, if_neg (by simp [hbreak])]
      rw [List.cons_append, maskFrom_cons, hstep, hshown, ih fun d hd => h d (by simp [hd])]
      rfl

/-- A closed literal is shown as its quotes with spaces between them. -/
theorem maskFrom_quoted {content : Text} (hquote : isQuote quote = true)
    (h : ∀ c ∈ content, c ≠ quote ∧ c ≠ '\\' ∧ c ≠ '\n') :
    maskFrom .code (quote :: (content ++ quote :: rest))
      = quote :: (List.replicate content.length ' ' ++ quote :: maskFrom .code rest) := by
  have hne : quote ≠ '/' ∧ quote ≠ '\\' := by
    constructor <;> rintro rfl <;> exact absurd hquote (by decide)
  have hopen : ∀ next?, step .code quote next? = (.code, .literal quote) := by
    intro next?
    simp [step, hne.1, hquote]
  have hclose : ∀ next?, step (.literal quote) quote next? = (.code, .code) := by
    intro next?
    simp [step, hne.2]
  rw [maskFrom_cons, hopen, maskFrom_literal_append h, maskFrom_cons, hclose]
  rfl

/-! ## Marked characters -/

/-- A character of a source with its region. -/
abbrev Marked := Char × Region

def Marked.shown (x : Marked) : Char := Source.shown x.1 x.2

/-- A character where comments are left blank. -/
def Marked.bare (x : Marked) : Char := if x.2 = .comment ∧ x.1 ≠ '\n' then ' ' else x.1

/-- The characters of a text that is met in a mode, with their regions. -/
def markedFrom (mode : Mode) (source : Text) : List Marked :=
  source.zip (regionsFrom mode source)

def marked (source : Text) : List Marked := markedFrom .code source

/-- The source with a space for each character of a comment, where line breaks stay. -/
def withoutComments (source : Text) : Text := (marked source).map Marked.bare

theorem markedFrom_cons (mode : Mode) (c : Char) (cs : Text) :
    markedFrom mode (c :: cs)
      = (c, (step mode c cs.head?).1) :: markedFrom (step mode c cs.head?).2 cs := rfl

theorem map_fst_marked (source : Text) : (marked source).map Prod.fst = source :=
  List.map_fst_zip (by simp)

theorem map_shown_marked (source : Text) : (marked source).map Marked.shown = mask source := by
  rw [marked, markedFrom, List.zip, List.map_zipWith]
  rfl

theorem Marked.bare_of_ne_comment {x : Marked} (h : x.2 ≠ .comment) : x.bare = x.1 := by
  rw [bare, if_neg fun hx => h hx.1]

theorem Marked.bare_eq (x : Marked) : x.bare = ' ' ∨ x.bare = x.1 := by
  unfold bare
  split
  · exact Or.inl rfl
  · exact Or.inr rfl

theorem Marked.ne_comment_of_bare {x : Marked} (h : isBlank x.bare = false) : x.2 ≠ .comment := by
  intro hx
  unfold bare at h
  split at h
  · exact absurd h (by decide)
  · next hnot =>
      have hbreak : x.1 = '\n' := by
        by_contra hne
        exact hnot ⟨hx, hne⟩
      rw [hbreak] at h
      exact absurd h (by decide)

/-! ## Comments -/

/-- A block comment closes only where a slash is ahead. -/
theorem step_eq_blockClose {c : Char} {next? : Option Char}
    (h : (step mode c next?).2 = .blockClose) : next? = some '/' := by
  cases mode with
  | blockComment =>
      by_cases hend : c = '*' ∧ next? = some '/'
      · exact hend.2
      · simp only [step, if_neg hend] at h
        cases h
  | code => simp only [step] at h; split_ifs at h
  | lineComment => simp only [step] at h; split_ifs at h
  | literal quote => simp only [step] at h; split_ifs at h
  | blockOpen => cases h
  | blockClose => cases h
  | escaped quote => cases h

/-- A character of a comment before one that belongs to no comment. -/
theorem step_comment_ends {c d : Char} {next? : Option Char} (hclose : mode = .blockClose → c = '/')
    (hc : (step mode c (some d)).1 = .comment)
    (hd : (step (step mode c (some d)).2 d next?).1 ≠ .comment) : c = '/' ∨ d = '\n' := by
  have hinside : ∀ next? : Option Char, (step .blockComment d next?).1 = .comment := by
    intro next?
    simp only [step]
    split_ifs <;> rfl
  cases mode with
  | blockClose => exact Or.inl (hclose rfl)
  | blockOpen => exact absurd (hinside next?) hd
  | blockComment =>
      refine absurd ?_ hd
      by_cases hend : c = '*' ∧ some d = some '/'
      · simp only [step, if_pos hend]
      · simp only [step, if_neg hend]
        exact hinside next?
  | lineComment =>
      by_cases hc' : c = '\n'
      · simp [step, hc'] at hc
      · refine Or.inr ?_
        by_contra hd'
        exact hd (by simp [step, hc', hd'])
  | code =>
      -- only a slash opens a comment
      left
      by_contra hslash
      simp only [step, hslash, false_and, if_false] at hc
      split_ifs at hc
  | literal quote => simp only [step] at hc; split_ifs at hc
  | escaped quote => cases hc

theorem comment_ends_from {before after : List Marked} {x y : Marked}
    (hclose : mode = .blockClose → source.head? = some '/')
    (h : markedFrom mode source = before ++ x :: y :: after) (hx : x.2 = .comment)
    (hy : y.2 ≠ .comment) : x.1 = '/' ∨ y.1 = '\n' := by
  induction before generalizing mode source with
  | nil =>
      match source, h with
      | c :: d :: ds, h =>
          obtain ⟨hc, hrest⟩ := List.cons.inj h
          obtain ⟨hd, -⟩ := List.cons.inj hrest
          subst hc hd
          exact step_comment_ends (fun hmode => Option.some.inj (hclose hmode)) hx hy
  | cons z before ih =>
      cases source with
      | nil => cases h
      | cons c cs =>
          -- a block closes only before a slash, so what is assumed of the mode stays true
          rw [markedFrom_cons] at h
          exact ih step_eq_blockClose (List.cons.inj h).2

/-- A comment ends with a slash or before a line break. -/
theorem comment_ends {before after : List Marked} {x y : Marked}
    (h : marked source = before ++ x :: y :: after) (hx : x.2 = .comment) (hy : y.2 ≠ .comment) :
    x.1 = '/' ∨ y.1 = '\n' :=
  comment_ends_from (by simp) h hx hy

/-- Where comments are left blank, the pass is in code instead. -/
def Mode.erase : Mode → Mode
  | .lineComment => .code
  | .blockOpen => .code
  | .blockComment => .code
  | .blockClose => .code
  | mode => mode

theorem step_erase_of_comment {c : Char} {next? : Option Char}
    (h : (step mode c next?).1 = .comment) :
    mode.erase = .code ∧ (step mode c next?).2.erase = .code := by
  cases mode with
  | code =>
      simp only [step] at h ⊢
      split_ifs at h ⊢
      all_goals exact ⟨rfl, rfl⟩
  | lineComment =>
      simp only [step] at h ⊢
      split_ifs at h ⊢
      exact ⟨rfl, rfl⟩
  | blockOpen => exact ⟨rfl, rfl⟩
  | blockComment =>
      simp only [step]
      split_ifs <;> exact ⟨rfl, rfl⟩
  | blockClose => exact ⟨rfl, rfl⟩
  | literal quote =>
      simp only [step] at h
      split_ifs at h
  | escaped quote => cases h

/-- Outside of comments the pass stays in step. The next character may have become a space. -/
theorem step_erase_of_ne {c : Char} {next? next'? : Option Char}
    (hsome : next'?.isSome = next?.isSome) (hslash : next'? = some '/' → next? = some '/')
    (hstar : next'? = some '*' → next? = some '*') (h : (step mode c next?).1 ≠ .comment) :
    step mode.erase c next'? = ((step mode c next?).1, (step mode c next?).2.erase) := by
  cases mode with
  | code =>
      have hline : ¬ (c = '/' ∧ next? = some '/') := by
        intro hline
        exact h (by simp only [step, if_pos hline])
      have hblock : ¬ (c = '/' ∧ next? = some '*') := by
        intro hblock
        exact h (by simp only [step, if_neg hline, if_pos hblock])
      have hline' : ¬ (c = '/' ∧ next'? = some '/') := fun h => hline ⟨h.1, hslash h.2⟩
      have hblock' : ¬ (c = '/' ∧ next'? = some '*') := fun h => hblock ⟨h.1, hstar h.2⟩
      simp only [Mode.erase, step, if_neg hline, if_neg hblock, if_neg hline', if_neg hblock']
      split_ifs <;> rfl
  | lineComment =>
      by_cases hbreak : c = '\n'
      · subst hbreak
        rfl
      · exact absurd (by simp only [step, if_neg hbreak]) h
  | blockOpen => exact absurd rfl h
  | blockComment => exact absurd (by simp only [step]; split_ifs <;> rfl) h
  | blockClose => exact absurd rfl h
  | literal quote =>
      simp only [Mode.erase, step, hsome]
      split_ifs <;> rfl
  | escaped quote => rfl

/-- A comment's character, left blank, is read as code. -/
theorem step_code_bare (c : Char) (next? : Option Char) :
    (step .code (Marked.bare (c, .comment)) next?).2 = .code
      ∧ shown (Marked.bare (c, .comment)) (step .code (Marked.bare (c, .comment)) next?).1
        = shown c .comment := by
  by_cases hbreak : c = '\n'
  · subst hbreak
    have hstep : step .code '\n' next? = (.code, .code) := by simp [step, isQuote]
    have hbare : Marked.bare ('\n', .comment) = '\n' := by decide
    rw [hbare, hstep]
    exact ⟨rfl, rfl⟩
  · have hstep : step .code ' ' next? = (.code, .code) := by simp [step, isQuote]
    have hbare : Marked.bare (c, .comment) = ' ' := by rw [Marked.bare, if_pos ⟨rfl, hbreak⟩]
    rw [hbare, hstep, shown, shown, if_pos (Or.inl rfl), if_neg (by simp [hbreak])]
    exact ⟨rfl, rfl⟩

theorem maskFrom_map_bare (mode : Mode) (source : Text) :
    maskFrom mode.erase ((markedFrom mode source).map Marked.bare) = maskFrom mode source := by
  induction source generalizing mode with
  | nil => rfl
  | cons c cs ih =>
      have hhead : ((markedFrom (step mode c cs.head?).2 cs).map Marked.bare).head?
          = cs.head?.map fun d => Marked.bare
            (d, (step (step mode c cs.head?).2 d cs.tail.head?).1) := by
        cases cs <;> rfl
      rw [markedFrom_cons, List.map_cons, maskFrom_cons, maskFrom_cons, hhead]
      -- the character ahead is what it was, or a space
      generalize hnext : (cs.head?.map fun d => Marked.bare
        (d, (step (step mode c cs.head?).2 d cs.tail.head?).1)) = next'?
      by_cases hcomment : (step mode c cs.head?).1 = .comment
      · obtain ⟨hmode, hafter⟩ := step_erase_of_comment hcomment
        obtain ⟨hstep, hshown⟩ := step_code_bare c next'?
        rw [hcomment, hmode, hstep, hshown, ← hafter, ih]
      · have hsame : ∀ d, d ≠ ' ' → next'? = some d → cs.head? = some d := by
          intro d hd hsome
          rw [← hnext] at hsome
          obtain ⟨e, he, hbare⟩ := Option.map_eq_some_iff.1 hsome
          rcases Marked.bare_eq (e, _) with hblank | hkept
          · exact absurd (hbare.symm.trans hblank) hd
          · rw [he, ← hbare, hkept]
        have hsome : next'?.isSome = cs.head?.isSome := by rw [← hnext, Option.isSome_map]
        rw [Marked.bare_of_ne_comment hcomment, step_erase_of_ne hsome (hsame _ (by decide))
          (hsame _ (by decide)) hcomment, ih]

/-- **Comments and the mask.** Without its comments a source has the same mask. -/
theorem mask_withoutComments (source : Text) : mask (withoutComments source) = mask source :=
  maskFrom_map_bare .code source

end TypeCoverage.Source
