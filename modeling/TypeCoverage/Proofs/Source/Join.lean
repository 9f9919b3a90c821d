import TypeCoverage.Proofs.Source.Split

/-!
# Code after a statement

Code that is met behind a text, where nothing is pending, is cut as it is alone, with its statements
moved behind that text. Code that follows a statement is one line further down, if the line break
between them ends the statement. If not, the statement takes in the first statement of that code,
and the others are cut as before.
-/

set_option autoImplicit false

namespace TypeCoverage

/-! ## Behind another text -/

/-- The place behind a text that ends at `base`, of what stands at `p` alone. Only the first line is
shared, so only there the characters move too. -/
def Position.behind (base p : Position) : Position :=
  ⟨base.line + p.line, if p.line = 0 then base.character + p.character else p.character⟩

theorem Position.behind_start (base : Position) : base.behind start = base := rfl

theorem Position.advance_behind (base p : Position) (c : Char) :
    (base.behind p).advance c = base.behind (p.advance c) := by
  unfold advance behind
  split
  · rfl
  · dsimp only
    split <;> rfl

theorem Position.after_behind (base p : Position) (s : Text) :
    (base.behind p).after s = base.behind (p.after s) := by
  induction s generalizing p with
  | nil => rfl
  | cons c cs ih => rw [after_cons, after_cons, advance_behind, ih]

/-- The place one line further down. -/
def Position.down (p : Position) : Position := ⟨p.line + 1, p.character⟩

/-- One line further down is behind a line break. -/
theorem Position.behind_newline : Position.behind ⟨1, 0⟩ = Position.down := by
  funext p
  rw [behind, down, Nat.add_comm 1, Nat.zero_add, ite_self]

theorem Position.after_down (p : Position) (s : Text) : p.down.after s = (p.after s).down := by
  rw [← behind_newline]
  exact after_behind _ p s

namespace Source

variable {before base cells : List Cell} {depth : Nat} {place start start' : Position}

/-- The span behind a text that ends at `base`. -/
def Span.behind (base : Position) (s : Span) : Span := { s with start := base.behind s.start }

/-- The pending statement behind a text that ends at `base`. -/
def Pending.behind (base : Position) (p : Pending) : Pending :=
  { p with start := base.behind p.start }

/-- The place at which the pass begins only changes where the statements begin. -/
theorem splitFrom_behind (base : Position) (depth : Nat) (place : Position)
    (pending? : Option Pending) (cells : List Cell) :
    splitFrom depth (base.behind place) (pending?.map (Pending.behind base)) cells
      = (splitFrom depth place pending? cells).map (Span.behind base) := by
  induction cells generalizing depth place pending? with
  | nil => cases pending? <;> rfl
  | cons cell cells ih =>
      have hopen : openAt (pending?.map (Pending.behind base)) (base.behind place) cell
          = (openAt pending? place cell).map (Pending.behind base) := by
        cases pending? with
        | some p => rfl
        | none =>
            show (if cell.isBlank = true then none
              else some (Pending.mk (base.behind place) [])) = _
            rw [openAt]
            split <;> rfl
      have hrest := ih depth (place.advance cell.code) none
      rw [splitFrom_cons, splitFrom_cons, hopen, Position.advance_behind]
      cases openAt pending? place cell with
      | none => exact hrest
      | some p =>
          dsimp only [Option.map_some]
          have hmore := ih (depthAfter depth cell.code) (place.advance cell.code)
            (some (p.push cell))
          split
          · rw [List.map_cons, ← hrest]
            rfl
          · show (if cell.code = '\n' ∧ depth = 0 ∧ endsAtBreak p.cells cells = true
              then _ else _) = _
            split
            · rw [List.map_cons, ← hrest]
              rfl
            · exact hmore

def Span.down (s : Span) : Span := { s with start := s.start.down }

/-- The line on which the pass begins only changes where the statements begin. -/
theorem splitFrom_down (depth : Nat) (place : Position) (cells : List Cell) :
    splitFrom depth place.down none cells
      = (splitFrom depth place none cells).map Span.down := by
  have hspan : Span.behind ⟨1, 0⟩ = Span.down := by
    funext s
    rw [Span.behind, Position.behind_newline, Span.down]
  rw [← Position.behind_newline, ← hspan]
  exact splitFrom_behind ⟨1, 0⟩ depth place none cells

/-! ## Statements that go on -/

/-- The statement of some cells, the last one first, after those of an earlier line. -/
def Span.joined (base : List Cell) (start : Position) (s : Span) : Span :=
  ⟨base.reverse.map Cell.source ++ s.text, base.reverse.map Cell.code ++ s.code, start⟩

/-- What the last cell shows that is not blank, in cells with the last one first. -/
def lastCode? (before : List Cell) : Option Char :=
  (before.find? fun cell => !cell.isBlank).map Cell.code

theorem lastCode?_blank {cell : Cell} (h : cell.isBlank = true) :
    lastCode? (cell :: before) = lastCode? before := by
  rw [lastCode?, List.find?_cons_of_neg (by simp [h]), lastCode?]

theorem lastCode?_cons {cell : Cell} (h : cell.isBlank = false) :
    lastCode? (cell :: before) = some cell.code := by
  rw [lastCode?, List.find?_cons_of_pos (by simp [h])]
  rfl

/-- Blanks ahead make no difference to a line break. -/
theorem endsAtBreak_blank_ahead {cell : Cell} {ahead : List Cell} (h : cell.isBlank = true) :
    endsAtBreak before (cell :: ahead) = endsAtBreak before ahead := by
  unfold endsAtBreak
  rw [leadingWord_blank h]

/-- After a character that neither continues a statement nor closes a block, a line break ends the
statement exactly if no word follows, or one that begins a statement. -/
theorem endsAtBreak_iff {c : Char} {ahead : List Cell} (hlast : lastCode? before = some c)
    (hgoes : c ∉ continuationChars) (hbrace : c ≠ '\x7d') :
    endsAtBreak before ahead = true
      ↔ leadingWord ahead = [] ∨ leadingWord ahead ∈ statementWords := by
  have hcontains : continuationChars.contains c = false := by simpa using hgoes
  have hback : ∀ word ∈ statementWords, joinsBack word = false := by decide
  have hends : endsAtBreak before ahead = if (leadingWord ahead).isEmpty then true
      else if joinsBack (leadingWord ahead) then false
      else statementWords.contains (leadingWord ahead) := by
    unfold endsAtBreak
    rw [lastCode?] at hlast
    rw [hlast]
    dsimp only
    rw [hcontains, Bool.false_and, if_neg (by simp), if_neg hbrace]
  rw [hends]
  by_cases hnil : leadingWord ahead = []
  · simp [hnil]
  · rw [if_neg (by simpa using hnil), or_iff_right hnil]
    by_cases hjoins : joinsBack (leadingWord ahead) = true
    · rw [if_pos hjoins]
      refine iff_of_false (by simp) fun hmem => ?_
      rw [hback _ hmem] at hjoins
      cases hjoins
    · rw [if_neg hjoins, List.contains_iff_mem]

theorem dropWhile_append_of_exists (hbefore : ∃ cell ∈ before, cell.isBlank = false) :
    (before ++ base).dropWhile Cell.isBlank = before.dropWhile Cell.isBlank ++ base := by
  rw [List.dropWhile_append, if_neg]
  obtain ⟨cell, hcell, hblank⟩ := hbefore
  intro hempty
  have hall := List.dropWhile_eq_nil_iff.1 (List.isEmpty_iff.1 hempty) cell hcell
  rw [hblank] at hall
  cases hall

theorem span_append (hbefore : ∃ cell ∈ before, cell.isBlank = false) :
    (Pending.mk start' (before ++ base)).span
      = Span.joined base start' (Pending.mk start before).span := by
  unfold Pending.span Span.joined
  dsimp only
  rw [dropWhile_append_of_exists hbefore, List.reverse_append, List.map_append, List.map_append]

theorem endsWithArrow_append (hbase : lastCode? base ≠ some '=')
    (hbefore : ∃ cell ∈ before, cell.isBlank = false) :
    endsWithArrow (before ++ base) = endsWithArrow before := by
  have hlast : ((base.map Cell.code).dropWhile isBlank).head? ≠ some '=' := by
    rw [← List.find?_not_eq_head?_dropWhile, find?_map_code]
    exact hbase
  have hdrop : ((before ++ base).map Cell.code).dropWhile isBlank
      = (before.map Cell.code).dropWhile isBlank ++ base.map Cell.code := by
    have hcells : ((before ++ base).dropWhile Cell.isBlank).map Cell.code
        = (before.dropWhile Cell.isBlank ++ base).map Cell.code :=
      congrArg (List.map Cell.code) (dropWhile_append_of_exists hbefore)
    rw [dropWhile_map_code, dropWhile_map_code, hcells, List.map_append]
  rw [endsWithArrow_eq, endsWithArrow_eq, hdrop]
  cases hcodes : (before.map Cell.code).dropWhile isBlank with
  | nil =>
      obtain ⟨cell, hcell, hblank⟩ := hbefore
      have hall := List.dropWhile_eq_nil_iff.1 hcodes _ (List.mem_map_of_mem hcell)
      rw [Cell.isBlank, hall] at hblank
      cases hblank
  | cons c cs =>
      have hnext : (((cs ++ base.map Cell.code).dropWhile isBlank).head? == some '=')
          = ((cs.dropWhile isBlank).head? == some '=') := by
        rw [List.dropWhile_append]
        cases hcs : cs.dropWhile isBlank with
        | nil => simpa using hlast
        | cons d ds => rfl
      dsimp only [List.cons_append]
      rw [hnext]

/-- Whether a line break ends a statement does not depend on what it began with, unless that ends
with an equals sign. -/
theorem endsAtBreak_append {ahead : List Cell} (hbase : lastCode? base ≠ some '=')
    (hbefore : ∃ cell ∈ before, cell.isBlank = false) :
    endsAtBreak (before ++ base) ahead = endsAtBreak before ahead := by
  have hfind : (before ++ base).find? (fun cell => !cell.isBlank)
      = before.find? fun cell => !cell.isBlank := by
    obtain ⟨cell, hcell, hblank⟩ := hbefore
    rw [List.find?_append]
    cases hfind : before.find? fun cell => !cell.isBlank with
    | some found => rfl
    | none =>
        have hall := List.find?_eq_none.1 hfind cell hcell
        rw [hblank] at hall
        exact absurd rfl hall
  unfold endsAtBreak
  rw [hfind, endsWithArrow_append hbase hbefore]

/-- A statement that has begun ends where it would end with more cells before it. -/
theorem exists_joined (cells : List Cell) (depth : Nat) (place start start' : Position)
    (hbase : lastCode? base ≠ some '=') (hbefore : ∃ cell ∈ before, cell.isBlank = false) :
    ∃ first spans, splitFrom depth place (some ⟨start, before⟩) cells = first :: spans
      ∧ splitFrom depth place (some ⟨start', before ++ base⟩) cells
        = first.joined base start' :: spans := by
  -- both passes end the statement at the same cell, after which nothing is pending in either
  induction cells generalizing depth place before with
  | nil => exact ⟨_, [], rfl, congrArg (fun s => [s]) (span_append hbefore)⟩
  | cons cell cells ih =>
      have hpush : ∃ c ∈ cell :: before, c.isBlank = false := by
        obtain ⟨c, hc, hblank⟩ := hbefore
        exact ⟨c, by simp [hc], hblank⟩
      by_cases hend : cell.code = ';' ∧ depth = 0
      · refine ⟨_, _, splitFrom_end rfl hend, ?_⟩
        rw [splitFrom_end rfl hend]
        exact congrArg (fun s => s :: _) (span_append hpush)
      have hjudged : endsAtBreak (before ++ base) cells = endsAtBreak before cells :=
        endsAtBreak_append hbase hbefore
      by_cases hbreak : cell.code = '\n' ∧ depth = 0 ∧ endsAtBreak before cells = true
      · refine ⟨_, _, splitFrom_break rfl hbreak, ?_⟩
        rw [← hjudged] at hbreak
        rw [splitFrom_break rfl hbreak]
        exact congrArg (fun s => s :: _) (span_append hbefore)
      · obtain ⟨first, spans, hfirst, hjoined⟩ :=
          ih (depthAfter depth cell.code) (place.advance cell.code) hpush
        refine ⟨first, spans, ?_, ?_⟩
        · rw [splitFrom_push rfl hend hbreak]
          exact hfirst
        · rw [← hjudged] at hbreak
          rw [splitFrom_push rfl hend hbreak]
          exact hjoined

theorem depthAfter_blank {c : Char} (h : isBlank c = true) : depthAfter depth c = depth := by
  have hopen : ¬ (c = '(' ∨ c = '[' ∨ c = '\x7b') := by
    rintro (rfl | rfl | rfl) <;> exact absurd h (by decide)
  have hclose : ¬ (c = ')' ∨ c = ']' ∨ c = '\x7d') := by
    rintro (rfl | rfl | rfl) <;> exact absurd h (by decide)
  rw [depthAfter, if_neg hopen, if_neg hclose]

/-- Code that begins after a line break that does not end the statement before it: that statement
takes in the first statement of the code, and the blanks between them. -/
theorem exists_joined_of_break (place start' : Position) (hlast : lastCode? base ≠ some '=')
    (hbreak : endsAtBreak base cells = false) (hword : leadingWord cells ≠ []) :
    ∃ gap first spans, splitFrom 0 place none cells = first :: spans
      ∧ splitFrom 0 place (some ⟨start', base⟩) cells
        = first.joined (gap ++ base) start' :: spans := by
  induction cells generalizing place base with
  | nil => exact absurd rfl hword
  | cons cell cells ih =>
      by_cases hblank : cell.isBlank = true
      · -- a blank is skipped by one pass and taken in by the other, where it ends nothing
        have hword' := hword
        rw [leadingWord_blank hblank] at hword'
        have hpushed : endsAtBreak (cell :: base) cells = false := by
          rw [endsAtBreak_blank hblank, hbreak]
        have hlast' : lastCode? (cell :: base) ≠ some '=' := by rwa [lastCode?_blank hblank]
        obtain ⟨gap, first, spans, hfirst, hjoined⟩ :=
          ih (place.advance cell.code) hlast' hpushed hword'
        refine ⟨gap ++ [cell], first, spans, ?_, ?_⟩
        · have hopen : openAt none place cell = none := if_pos hblank
          rw [splitFrom_skip hopen]
          exact hfirst
        · have hnot : ¬ (cell.code = '\n' ∧ (0 = 0) ∧ endsAtBreak base cells = true) := by
            rw [← endsAtBreak_blank_ahead hblank, hbreak]
            simp
          have hend : ¬ (cell.code = ';' ∧ (0 = 0)) := by
            rintro ⟨hcode, -⟩
            rw [Cell.isBlank, hcode] at hblank
            exact absurd hblank (by decide)
          rw [splitFrom_push rfl hend hnot, depthAfter_blank hblank, List.append_assoc]
          exact hjoined
      · have hopen : openAt none place cell = some ⟨place, []⟩ := if_neg hblank
        have hone : ∃ c ∈ [cell], c.isBlank = false := ⟨cell, by simp, by simpa using hblank⟩
        by_cases hend : cell.code = ';'
        · refine ⟨[], _, _, splitFrom_end hopen ⟨hend, rfl⟩, ?_⟩
          rw [splitFrom_end rfl ⟨hend, rfl⟩]
          exact congrArg (fun s => s :: _) (span_append hone)
        have hnot : ∀ p : Prop, ¬ (cell.code = '\n' ∧ (0 = 0) ∧ p) := by
          rintro p ⟨hcode, -⟩
          rw [Cell.isBlank, hcode] at hblank
          exact hblank (by decide)
        obtain ⟨first, spans, hfirst, hjoined⟩ := exists_joined cells (depthAfter 0 cell.code)
          (place.advance cell.code) place start' hlast hone
        refine ⟨[], first, spans, ?_, ?_⟩
        · rw [splitFrom_push hopen (fun h => hend h.1) (hnot _)]
          exact hfirst
        · rw [splitFrom_push rfl (fun h => hend h.1) (hnot _)]
          exact hjoined

end Source

end TypeCoverage
