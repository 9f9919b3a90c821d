import Mathlib.Tactic.Common
import TypeCoverage.Proofs.Source.Ignore
import TypeCoverage.Source.Statement

/-!
# Carriage returns before line breaks

The mask of a text with a carriage return before each line break is that of the text, with a blank
for each carriage return, unless a line break is escaped in a literal other than a template: the
backslash then escapes the carriage return, and the line break ends the literal. So the mask is
that of a text with a blank for each such backslash.
-/

set_option autoImplicit false

namespace TypeCoverage

/-! ## Carriage returns -/

namespace Text

variable {s : Text} {c : Char}

/-- The text with a carriage return before each line break. -/
def withReturns (s : Text) : Text := s.flatMap fun c => if c = '\n' then ['\r', '\n'] else [c]

theorem withReturns_break (s : Text) : withReturns ('\n' :: s) = '\r' :: '\n' :: withReturns s :=
  rfl

theorem withReturns_cons (hc : c ≠ '\n') (s : Text) :
    withReturns (c :: s) = c :: withReturns s := by
  rw [withReturns, List.flatMap_cons, if_neg hc]
  rfl

theorem lines_char (hbreak : c ≠ '\n') (hreturn : c ≠ '\r') (s : Text) :
    lines (c :: s) = match lines s with
      | [] => [[c]]
      | l :: ls => (c :: l) :: ls :=
  lines.eq_4 c s (fun _ h => absurd h hreturn) hbreak

/-- A carriage return before a line break is no part of the line. -/
theorem lines_withReturns (h : '\r' ∉ s) : lines (withReturns s) = lines s := by
  induction s with
  | nil => rfl
  | cons c cs ih =>
      rw [List.mem_cons, not_or] at h
      have hrest := ih h.2
      by_cases hbreak : c = '\n'
      · subst hbreak
        rw [withReturns_break]
        show [] :: lines (withReturns cs) = [] :: lines cs
        rw [hrest]
      · have hreturn : c ≠ '\r' := fun hreturn => h.1 hreturn.symm
        rw [withReturns_cons hbreak, lines_char hbreak hreturn, lines_char hbreak hreturn, hrest]

end Text

theorem Source.ignoredLines_withReturns {s : Text} (h : '\r' ∉ s) :
    ignoredLines s.withReturns = ignoredLines s := by
  rw [ignoredLines, ignoredLines, Text.lines_withReturns h]

namespace Source

variable {s : Text} {c : Char} {mode mode' : Mode} {next? next'? : Option Char}

/-! ## Escaped line breaks -/

/-- Whether a character is a backslash that escapes a line break in a literal other than a
template. -/
def escapesBreak (mode : Mode) (c : Char) (next? : Option Char) : Bool :=
  match mode with
  | .literal quote => quote != '\x60' && c == '\\' && next? == some '\n'
  | _ => false

/-- The character, or a blank for a backslash that escapes a line break. -/
def unescapedAt (mode : Mode) (c : Char) (next? : Option Char) : Char :=
  if escapesBreak mode c next? then ' ' else c

/-- The text, met in a mode, with a blank for each backslash that escapes a line break in a literal
other than a template. The line break then ends the literal. -/
def unescapedFrom : Mode → Text → Text
  | _, [] => []
  | mode, c :: cs =>
    unescapedAt mode c cs.head?
      :: unescapedFrom (step mode (unescapedAt mode c cs.head?) cs.head?).2 cs

/-- The source with a blank for each backslash that escapes a line break. -/
def unescaped (source : Text) : Text := unescapedFrom .code source

theorem eq_of_escapesBreak (h : escapesBreak mode c next? = true) :
    ∃ quote, mode = .literal quote ∧ quote ≠ '\x60' ∧ c = '\\' ∧ next? = some '\n' := by
  cases mode with
  | literal quote =>
      rw [escapesBreak, Bool.and_eq_true, Bool.and_eq_true] at h
      obtain ⟨⟨htemplate, hescape⟩, hbreak⟩ := h
      exact ⟨quote, rfl, by simpa using htemplate, by simpa using hescape, by simpa using hbreak⟩
  | _ => cases h

theorem unescapedAt_eq (mode : Mode) (c : Char) (next? : Option Char) :
    unescapedAt mode c next? = c ∨ (unescapedAt mode c next? = ' ' ∧ c = '\\') := by
  rw [unescapedAt]
  split
  · next hescapes =>
      obtain ⟨-, -, -, hescape, -⟩ := eq_of_escapesBreak hescapes
      exact Or.inr ⟨rfl, hescape⟩
  · exact Or.inl rfl

@[simp] theorem length_unescapedFrom (mode : Mode) (s : Text) :
    (unescapedFrom mode s).length = s.length := by
  induction s generalizing mode with
  | nil => rfl
  | cons c cs ih => simp [unescapedFrom, ih]

/-! ## One character ahead -/

/-- The pass looks ahead for the end of the source and for two characters. -/
theorem step_congr (hsome : next'?.isSome = next?.isSome)
    (hslash : next'? = some '/' ↔ next? = some '/') (hstar : next'? = some '*' ↔ next? = some '*') :
    step mode c next'? = step mode c next? := by
  cases mode with
  | code => simp only [step, hslash, hstar]
  | lineComment => rfl
  | blockOpen => rfl
  | blockComment => simp only [step, hslash]
  | blockClose => rfl
  | literal quote => simp only [step, hsome]
  | escaped quote => rfl

theorem step_withReturns (mode : Mode) (c : Char) (cs : Text) :
    step mode c cs.withReturns.head? = step mode c cs.head? := by
  cases cs with
  | nil => rfl
  | cons d ds =>
      by_cases hbreak : d = '\n'
      · subst hbreak
        rw [Text.withReturns_break]
        exact step_congr rfl (by simp) (by simp)
      · rw [Text.withReturns_cons hbreak]
        rfl

theorem step_unescapedFrom (mode mode' : Mode) (c : Char) (cs : Text) :
    step mode c (unescapedFrom mode' cs).head? = step mode c cs.head? := by
  cases cs with
  | nil => rfl
  | cons d ds =>
      rw [unescapedFrom]
      rcases unescapedAt_eq mode' d ds.head? with hkept | ⟨hblank, hescape⟩
      · rw [hkept]
        rfl
      · rw [hblank, hescape]
        exact step_congr rfl (by simp) (by simp)

theorem shown_newline (region : Region) : shown '\n' region = '\n' := if_pos (Or.inr rfl)

theorem maskFrom_withReturns_cons (hc : c ≠ '\n') (mode : Mode) (cs : Text) :
    maskFrom mode (Text.withReturns (c :: cs))
      = shown c (step mode c cs.head?).1 :: maskFrom (step mode c cs.head?).2 cs.withReturns := by
  rw [Text.withReturns_cons hc, maskFrom_cons, step_withReturns]

theorem maskFrom_withReturns_break (mode : Mode) (cs : Text) :
    maskFrom mode (Text.withReturns ('\n' :: cs))
      = shown '\r' (step mode '\r' (some '\n')).1 :: '\n'
        :: maskFrom (step (step mode '\r' (some '\n')).2 '\n' cs.head?).2 cs.withReturns := by
  rw [Text.withReturns_break, maskFrom_cons, maskFrom_cons, step_withReturns, shown_newline]
  rfl

theorem maskFrom_unescapedFrom_cons (mode : Mode) (c : Char) (cs : Text) :
    maskFrom mode (unescapedFrom mode (c :: cs))
      = shown (unescapedAt mode c cs.head?) (step mode (unescapedAt mode c cs.head?) cs.head?).1
        :: maskFrom (step mode (unescapedAt mode c cs.head?) cs.head?).2
          (unescapedFrom (step mode (unescapedAt mode c cs.head?) cs.head?).2 cs) := by
  rw [unescapedFrom, maskFrom_cons, step_unescapedFrom]

/-! ## The two passes -/

/-- Whether the quote of the literal that the pass is in, if it is in one, is a quote. -/
def Mode.Quoted : Mode → Prop
  | .literal quote => isQuote quote = true
  | .escaped quote => isQuote quote = true
  | _ => True

theorem step_quoted (h : mode.Quoted) (c : Char) (next? : Option Char) :
    (step mode c next?).2.Quoted := by
  cases mode with
  | code =>
      simp only [step]
      split_ifs with hline hblock hquote
      · trivial
      · trivial
      · exact hquote
      · trivial
  | lineComment =>
      simp only [step]
      split_ifs <;> trivial
  | blockOpen => trivial
  | blockComment =>
      simp only [step]
      split_ifs <;> trivial
  | blockClose => trivial
  | literal quote =>
      simp only [step]
      split_ifs
      · exact h
      · trivial
      · exact h
      · trivial
      · exact h
  | escaped quote => exact h

/-- Where the pass over a text with carriage returns stands when the pass over the text without
escaped line breaks stands in a mode before some characters. -/
inductive Beside : Mode → Mode → Text → Prop
  /-- In the same mode, where no line break is escaped in a literal other than a template. -/
  | same {mode : Mode} {ahead : Text} (hquoted : mode.Quoted)
      (hescaped : ∀ quote, mode = .escaped quote → quote ≠ '\x60' → ahead.head? ≠ some '\n') :
      Beside mode mode ahead
  /-- Behind a backslash that escapes the carriage return of a line break. -/
  | escaped {quote : Char} (ahead : Text) (hquote : isQuote quote = true)
      (htemplate : quote ≠ '\x60') : Beside (.escaped quote) (.literal quote) ('\n' :: ahead)

theorem escaped_of_step {quote : Char} (h : (step mode c next?).2 = .escaped quote) :
    mode = .literal quote ∧ c = '\\' := by
  cases mode with
  | literal opened =>
      simp only [step] at h
      split_ifs at h with hescape
      cases h
      exact ⟨rfl, hescape.1⟩
  | escaped opened => cases h
  | blockOpen => cases h
  | blockClose => cases h
  | code =>
      simp only [step] at h
      split_ifs at h
  | lineComment =>
      simp only [step] at h
      split_ifs at h
  | blockComment =>
      simp only [step] at h
      split_ifs at h

/-- A character that ends no line keeps the passes beside each other, and both show the same. -/
theorem Beside.char {cs : Text} (h : Beside mode' mode (c :: cs)) (hc : c ≠ '\n') :
    shown c (step mode' c cs.head?).1
        = shown (unescapedAt mode c cs.head?) (step mode (unescapedAt mode c cs.head?) cs.head?).1
      ∧ Beside (step mode' c cs.head?).2 (step mode (unescapedAt mode c cs.head?) cs.head?).2
        cs := by
  cases h with
  | escaped => exact absurd rfl hc
  | same hquoted hescaped =>
      by_cases hescapes : escapesBreak mode c cs.head? = true
      · obtain ⟨quote, rfl, htemplate, rfl, hbreak⟩ := eq_of_escapesBreak hescapes
        obtain ⟨ds, rfl⟩ := List.head?_eq_some_iff.1 hbreak
        have hopened : isQuote quote = true := hquoted
        have hspace : ' ' ≠ quote := by
          rintro rfl
          exact absurd hopened (by decide)
        have hescape : step (.literal quote) '\\' (some '\n') = (.literal, .escaped quote) := by
          simp [step]
        have hblank : step (.literal quote) ' ' (some '\n') = (.literal, .literal quote) := by
          simp [step, hspace]
        rw [unescapedAt, if_pos hescapes, hbreak, hescape, hblank]
        exact ⟨rfl, .escaped ds hopened htemplate⟩
      · rw [unescapedAt, if_neg hescapes]
        refine ⟨rfl, .same (step_quoted hquoted c _) ?_⟩
        -- a backslash that escapes a line break would have been left blank
        intro quote hmode htemplate hbreak
        obtain ⟨rfl, rfl⟩ := escaped_of_step hmode
        exact hescapes (by simp [escapesBreak, htemplate, hbreak])

/-- A carriage return before a line break makes a difference only where it is escaped. -/
theorem step_return_break (hquoted : mode.Quoted)
    (hescaped : ∀ quote, mode = .escaped quote → quote = '\x60') (next? : Option Char) :
    (step (step mode '\r' (some '\n')).2 '\n' next?).2 = (step mode '\n' next?).2 := by
  cases mode with
  | code => rfl
  | lineComment => rfl
  | blockOpen => rfl
  | blockComment => rfl
  | blockClose => rfl
  | literal quote =>
      have hopened : isQuote quote = true := hquoted
      have hreturn : '\r' ≠ quote := by
        rintro rfl
        exact absurd hopened (by decide)
      have hstep : step (.literal quote) '\r' (some '\n') = (.literal, .literal quote) := by
        simp [step, hreturn]
      rw [hstep]
  | escaped quote =>
      obtain rfl := hescaped quote rfl
      rfl

/-- A line break brings the passes into the same mode. -/
theorem Beside.break {cs : Text} (h : Beside mode' mode ('\n' :: cs)) :
    Beside (step (step mode' '\r' (some '\n')).2 '\n' cs.head?).2
      (step mode '\n' cs.head?).2 cs := by
  have hafter : ∀ quote, (step mode '\n' cs.head?).2 = .escaped quote → quote ≠ '\x60' →
      cs.head? ≠ some '\n' :=
    fun quote hmode => absurd (escaped_of_step hmode).2 (by decide)
  cases h with
  | same hquoted hescaped =>
      have htemplate : ∀ quote, mode = .escaped quote → quote = '\x60' :=
        fun quote hmode => by_contra fun hne => hescaped quote hmode hne rfl
      rw [step_return_break hquoted htemplate]
      exact .same (step_quoted hquoted _ _) hafter
  | @escaped quote _ hquote htemplate =>
      have hquoted : (Mode.literal quote).Quoted := hquote
      exact .same (step_quoted hquoted _ _) hafter

/-! ## Cells with carriage returns -/

/-- Whether cells are some others with a blank carriage return before some of the line breaks. -/
inductive Returned : List Cell → List Cell → Prop
  | nil : Returned [] []
  | cell {cell : Cell} {more' more : List Cell} (hsource : cell.source ≠ '\r')
      (hmore : Returned more' more) : Returned (cell :: more') (cell :: more)
  | line {shown : Char} {more' more : List Cell} (hblank : isBlank shown = true)
      (hbreak : shown ≠ '\n') (hmore : Returned more' more) :
      Returned (⟨'\r', shown⟩ :: ⟨'\n', '\n'⟩ :: more') (⟨'\n', '\n'⟩ :: more)

theorem returned_maskFrom (h : Beside mode' mode s) (hs : '\r' ∉ s) :
    Returned (List.zipWith Cell.mk s.withReturns (maskFrom mode' s.withReturns))
      (List.zipWith Cell.mk s (maskFrom mode (unescapedFrom mode s))) := by
  induction s generalizing mode' mode with
  | nil => exact .nil
  | cons c cs ih =>
      rw [List.mem_cons, not_or] at hs
      have hreturn : c ≠ '\r' := fun hc => hs.1 hc.symm
      by_cases hc : c = '\n'
      · subst hc
        have hkept : unescapedAt mode '\n' cs.head? = '\n' := by
          rcases unescapedAt_eq mode '\n' cs.head? with hkept | ⟨-, hescape⟩
          · exact hkept
          · exact absurd hescape (by decide)
        have hshown : ∀ region, isBlank (shown '\r' region) = true ∧ shown '\r' region ≠ '\n' := by
          intro region
          cases region <;> decide
        rw [maskFrom_withReturns_break, maskFrom_unescapedFrom_cons, hkept, shown_newline]
        exact .line (hshown _).1 (hshown _).2 (ih h.break hs.2)
      · obtain ⟨hshown, hnext⟩ := h.char hc
        rw [maskFrom_withReturns_cons hc, maskFrom_unescapedFrom_cons, Text.withReturns_cons hc,
          hshown]
        exact .cell hreturn (ih hnext hs.2)

theorem returned_cells (hs : '\r' ∉ s) :
    Returned (cells s.withReturns) (List.zipWith Cell.mk s (mask (unescaped s))) := by
  have hbeside : Beside .code .code s := .same trivial (by simp)
  exact returned_maskFrom hbeside hs

end Source

end TypeCoverage
