import Mathlib.Data.List.Infix
import Mathlib.Data.List.TakeWhile
import Mathlib.Tactic.Common
import TypeCoverage.Source.Statement

/-!
# How a source is cut

Where the statements of a source lie depends on its mask alone. The pass reads a stretch without
semicolons and line breaks at once.
-/

set_option autoImplicit false

namespace TypeCoverage.Source

variable {before ahead cells : List Cell} {depth : Nat} {place : Position}

/-! ## Cells -/

theorem map_source_zipWith {source code : Text} (h : source.length = code.length) :
    (List.zipWith Cell.mk source code).map Cell.source = source := by
  calc (List.zipWith Cell.mk source code).map Cell.source
      = (source.zip code).map Prod.fst := by rw [List.zip, List.map_zipWith, List.map_zipWith]
    _ = source := List.map_fst_zip (Nat.le_of_eq h)

theorem map_code_zipWith {source code : Text} (h : source.length = code.length) :
    (List.zipWith Cell.mk source code).map Cell.code = code := by
  calc (List.zipWith Cell.mk source code).map Cell.code
      = (source.zip code).map Prod.snd := by rw [List.zip, List.map_zipWith, List.map_zipWith]
    _ = code := List.map_snd_zip (Nat.le_of_eq h.symm)

/-! ## Line breaks -/

/-- The code of some cells without the blanks at their head. -/
theorem dropWhile_map_code (cells : List Cell) :
    (cells.map Cell.code).dropWhile isBlank = (cells.dropWhile Cell.isBlank).map Cell.code :=
  List.dropWhile_map

/-- The first code of some cells that is not blank. -/
theorem find?_map_code (cells : List Cell) :
    (cells.map Cell.code).find? (fun c => !isBlank c)
      = (cells.find? fun cell => !cell.isBlank).map Cell.code :=
  List.find?_map

theorem leadingWord_eq (cells : List Cell) :
    leadingWord cells
      = ((cells.map Cell.code).dropWhile isBlank).takeWhile fun c => !endsWord c := by
  rw [leadingWord, dropWhile_map_code, List.takeWhile_map]
  rfl

theorem endsWithArrow_eq (before : List Cell) :
    endsWithArrow before = match (before.map Cell.code).dropWhile isBlank with
      | c :: cs => c == '>' && (cs.dropWhile isBlank).head? == some '='
      | [] => false := by
  unfold endsWithArrow
  rw [dropWhile_map_code]
  cases before.dropWhile Cell.isBlank with
  | nil => rfl
  | cons cell rest =>
      obtain ⟨source, code⟩ := cell
      simp only [List.map_cons, dropWhile_map_code]
      by_cases hcode : code = '>'
      · subst hcode
        cases hrest : rest.dropWhile Cell.isBlank with
        | nil => simp [hrest]
        | cons cell' rest' =>
            obtain ⟨source', code'⟩ := cell'
            by_cases hcode' : code' = '='
            · simp [hrest, hcode']
            · simp [hrest, hcode']
      · simp [hcode]

/-- Whether a line break ends a statement depends on the code around it. -/
theorem endsAtBreak_congr {before' ahead' : List Cell}
    (hbefore : before'.map Cell.code = before.map Cell.code)
    (hahead : ahead'.map Cell.code = ahead.map Cell.code) :
    endsAtBreak before' ahead' = endsAtBreak before ahead := by
  have hlast : (before'.find? fun cell => !cell.isBlank).map Cell.code
      = (before.find? fun cell => !cell.isBlank).map Cell.code := by
    rw [← find?_map_code, ← find?_map_code, hbefore]
  have hword : leadingWord ahead' = leadingWord ahead := by
    rw [leadingWord_eq, leadingWord_eq, hahead]
  have harrow : endsWithArrow before' = endsWithArrow before := by
    rw [endsWithArrow_eq, endsWithArrow_eq, hbefore]
  unfold endsAtBreak
  rw [hlast, hword, harrow]

theorem leadingWord_blank {cell : Cell} (h : cell.isBlank = true) :
    leadingWord (cell :: ahead) = leadingWord ahead := by
  rw [leadingWord, List.dropWhile_cons_of_pos h]
  rfl

/-- It makes no difference on which side of a line break a blank stands. -/
theorem endsAtBreak_blank {cell : Cell} (h : cell.isBlank = true) :
    endsAtBreak (cell :: before) ahead = endsAtBreak before (cell :: ahead) := by
  have hfind : (cell :: before).find? (fun cell => !cell.isBlank)
      = before.find? fun cell => !cell.isBlank := by
    rw [List.find?_cons_of_neg (by simp [h])]
  have harrow : endsWithArrow (cell :: before) = endsWithArrow before := by
    unfold endsWithArrow
    rw [List.dropWhile_cons_of_pos h]
  unfold endsAtBreak
  rw [hfind, harrow, leadingWord_blank h]

/-! ## What the pass does at a cell -/

variable {pending? : Option Pending} {p : Pending} {cell : Cell}

theorem splitFrom_cons (depth : Nat) (place : Position) (pending? : Option Pending) (cell : Cell)
    (ahead : List Cell) : splitFrom depth place pending? (cell :: ahead)
      = match openAt pending? place cell with
        | none => splitFrom depth (place.advance cell.code) none ahead
        | some p =>
          if cell.code = ';' ∧ depth = 0 then
            (p.push cell).span :: splitFrom depth (place.advance cell.code) none ahead
          else if cell.code = '\n' ∧ depth = 0 ∧ endsAtBreak p.cells ahead then
            p.span :: splitFrom depth (place.advance cell.code) none ahead
          else
            splitFrom (depthAfter depth cell.code) (place.advance cell.code)
              (some (p.push cell)) ahead := by
  cases pending? <;> rfl

theorem splitFrom_skip (hopen : openAt pending? place cell = none) :
    splitFrom depth place pending? (cell :: ahead)
      = splitFrom depth (place.advance cell.code) none ahead := by
  rw [splitFrom_cons, hopen]

theorem splitFrom_end (hopen : openAt pending? place cell = some p)
    (h : cell.code = ';' ∧ depth = 0) :
    splitFrom depth place pending? (cell :: ahead)
      = (p.push cell).span :: splitFrom depth (place.advance cell.code) none ahead := by
  rw [splitFrom_cons, hopen]
  exact if_pos h

theorem splitFrom_break (hopen : openAt pending? place cell = some p)
    (h : cell.code = '\n' ∧ depth = 0 ∧ endsAtBreak p.cells ahead = true) :
    splitFrom depth place pending? (cell :: ahead)
      = p.span :: splitFrom depth (place.advance cell.code) none ahead := by
  have hend : ¬ (cell.code = ';' ∧ depth = 0) := by
    rw [h.1]
    exact fun hend => absurd hend.1 (by decide)
  rw [splitFrom_cons, hopen]
  exact (if_neg hend).trans (if_pos h)

theorem splitFrom_push (hopen : openAt pending? place cell = some p)
    (hend : ¬ (cell.code = ';' ∧ depth = 0))
    (hbreak : ¬ (cell.code = '\n' ∧ depth = 0 ∧ endsAtBreak p.cells ahead = true)) :
    splitFrom depth place pending? (cell :: ahead)
      = splitFrom (depthAfter depth cell.code) (place.advance cell.code) (some (p.push cell))
        ahead := by
  rw [splitFrom_cons, hopen]
  exact (if_neg hend).trans (if_neg hbreak)

/-- A statement begins at a cell that is not blank. -/
theorem splitFrom_open (h : cell.isBlank = false) :
    splitFrom depth place none (cell :: ahead)
      = splitFrom depth place (some ⟨place, []⟩) (cell :: ahead) := by
  have hopen : openAt none place cell = some ⟨place, []⟩ := if_neg (by simp [h])
  rw [splitFrom_cons, splitFrom_cons, hopen]
  rfl

/-- A stretch without semicolons and line breaks is taken as a whole. -/
theorem splitFrom_stretch {stretch : List Cell}
    (h : ∀ cell ∈ stretch, cell.code ≠ ';' ∧ cell.code ≠ '\n') :
    splitFrom depth place (some p) (stretch ++ ahead)
      = splitFrom ((stretch.map Cell.code).foldl depthAfter depth)
        (place.after (stretch.map Cell.code)) (some ⟨p.start, stretch.reverse ++ p.cells⟩)
        ahead := by
  induction stretch generalizing depth place p with
  | nil => rfl
  | cons cell cells ih =>
      obtain ⟨hend, hbreak⟩ := h cell (by simp)
      rw [List.cons_append, splitFrom_push rfl (fun h => hend h.1) fun h => hbreak h.1,
        ih fun c hc => h c (by simp [hc]), Pending.push]
      simp

/-! ## Stretches -/

/-- A cell whose code is that of an item. -/
def Cell.ofItem {α : Type} (source code : α → Char) (x : α) : Cell := ⟨source x, code x⟩

/-- The span of some items that begin at a place. -/
def Span.ofItems {α : Type} (source code : α → Char) (stretch : List α × Position) : Span :=
  ⟨stretch.1.map source, stretch.1.map code, stretch.2⟩

/-- The pending statement of some items, the last one first. -/
def Pending.ofItems {α : Type} (source code : α → Char) (stretch : List α × Position) : Pending :=
  ⟨stretch.2, stretch.1.map (Cell.ofItem source code)⟩

/-- The items of a statement without the blanks at its end. -/
def trimmed {α : Type} (code : α → Char) (stretch : List α × Position) : List α × Position :=
  ((stretch.1.dropWhile fun x => isBlank (code x)).reverse, stretch.2)

theorem span_ofItems {α : Type} (source code : α → Char) (stretch : List α × Position) :
    (Pending.ofItems source code stretch).span
      = Span.ofItems source code (trimmed code stretch) := by
  have hdrop : (stretch.1.map (Cell.ofItem source code)).dropWhile Cell.isBlank
      = (stretch.1.dropWhile fun x => isBlank (code x)).map (Cell.ofItem source code) :=
    List.dropWhile_map
  rw [Pending.span, Pending.ofItems]
  dsimp only
  rw [hdrop, Span.ofItems, trimmed, ← List.map_reverse, List.map_map, List.map_map]
  rfl

/-- A statement is a stretch of what it was read from. -/
theorem trimmed_infix {α : Type} (code : α → Char) (stretch : List α × Position) (more : List α) :
    (trimmed code stretch).1 <:+: stretch.1.reverse ++ more := by
  have hsuffix := List.dropWhile_suffix (l := stretch.1) fun x => isBlank (code x)
  exact (List.reverse_prefix.2 hsuffix).isInfix.trans (List.prefix_append _ _).isInfix

/-- A line break is judged by the code around it. -/
theorem endsAtBreak_ofItems {α : Type} (source code : α → Char) (stretch : List α × Position)
    (items : List α) :
    endsAtBreak (Pending.ofItems source code stretch).cells (items.map (Cell.ofItem source code))
      = endsAtBreak (Pending.ofItems code code stretch).cells
        (items.map (Cell.ofItem code code)) := by
  apply endsAtBreak_congr
  · simp [Pending.ofItems, Cell.ofItem]
  · simp [Cell.ofItem]

/-- The statement an item belongs to, if the item is no blank between statements. -/
theorem exists_opened {α : Type} {code : α → Char} {pending? : Option (List α × Position)} {x : α}
    (place : Position) (hskip : ¬ (pending? = none ∧ isBlank (code x) = true)) :
    ∃ p : List α × Position, (pending?.elim [] fun p => p.1.reverse) = p.1.reverse
      ∧ ∀ source, openAt (pending?.map (Pending.ofItems source code)) place
          (Cell.ofItem source code x) = some (Pending.ofItems source code p) := by
  cases pending? with
  | some p => exact ⟨p, rfl, fun _ => rfl⟩
  | none =>
      have hblank : ¬ isBlank (code x) = true := fun hblank => hskip ⟨rfl, hblank⟩
      exact ⟨([], place), rfl, fun _ => if_neg hblank⟩

/-- The statements of a source are stretches of it, which depend on its code alone: they are the
same whatever characters `source` are shown as this code. -/
theorem exists_stretches {α : Type} (code : α → Char) (items : List α) (depth : Nat)
    (place : Position) (pending? : Option (List α × Position)) :
    ∃ stretches : List (List α × Position),
      (∀ p ∈ stretches, p.1 <:+: (pending?.elim [] fun p => p.1.reverse) ++ items)
        ∧ ∀ source : α → Char,
          splitFrom depth place (pending?.map (Pending.ofItems source code))
              (items.map (Cell.ofItem source code))
            = stretches.map (Span.ofItems source code) := by
  induction items generalizing depth place pending? with
  | nil =>
      cases pending? with
      | none => exact ⟨[], by simp, fun _ => rfl⟩
      | some p =>
          refine ⟨[trimmed code p], ?_, fun source => ?_⟩
          · rintro q hq
            obtain rfl := List.mem_singleton.1 hq
            exact trimmed_infix code p []
          · show [(Pending.ofItems source code p).span] = _
            rw [span_ofItems]
            rfl
  | cons x xs ih =>
      -- the cases of the pass: a blank between statements, a semicolon, a line break, one more cell
      by_cases hskip : pending? = none ∧ isBlank (code x) = true
      · obtain ⟨rfl, hblank⟩ := hskip
        obtain ⟨stretches, hwithin, hsplit⟩ := ih depth (place.advance (code x)) none
        refine ⟨stretches, fun p hp => (hwithin p hp).trans (List.suffix_cons x xs).isInfix,
          fun source => ?_⟩
        have hopen : openAt none place (Cell.ofItem source code x) = none := if_pos hblank
        rw [← hsplit source]
        exact splitFrom_skip hopen
      obtain ⟨p, hbefore, hopen⟩ := exists_opened place hskip
      have hinto : ∀ q : List α × Position, q.1 <:+: xs → q.1 <:+: p.1.reverse ++ x :: xs :=
        fun q hq => hq.trans ((List.suffix_cons x xs).trans (List.suffix_append _ _)).isInfix
      rw [hbefore]
      by_cases hend : code x = ';' ∧ depth = 0
      · obtain ⟨stretches, hwithin, hsplit⟩ := ih depth (place.advance (code x)) none
        refine ⟨trimmed code (x :: p.1, p.2) :: stretches, fun q hq => ?_, fun source => ?_⟩
        · rcases List.mem_cons.1 hq with rfl | hq
          · have hwhole := trimmed_infix code (x :: p.1, p.2) xs
            rwa [List.reverse_cons, List.append_assoc] at hwhole
          · exact hinto q (hwithin q hq)
        · rw [List.map_cons, splitFrom_end (hopen source) hend, List.map_cons, ← span_ofItems,
            ← hsplit source]
          rfl
      by_cases hbreak : code x = '\n' ∧ depth = 0 ∧ endsAtBreak (Pending.ofItems code code p).cells
          (xs.map (Cell.ofItem code code)) = true
      · obtain ⟨stretches, hwithin, hsplit⟩ := ih depth (place.advance (code x)) none
        refine ⟨trimmed code p :: stretches, fun q hq => ?_, fun source => ?_⟩
        · rcases List.mem_cons.1 hq with rfl | hq
          · exact trimmed_infix code p (x :: xs)
          · exact hinto q (hwithin q hq)
        · rw [← endsAtBreak_ofItems source] at hbreak
          rw [List.map_cons, splitFrom_break (hopen source) hbreak, List.map_cons, ← span_ofItems,
            ← hsplit source]
          rfl
      · obtain ⟨stretches, hwithin, hsplit⟩ := ih (depthAfter depth (code x))
          (place.advance (code x)) (some (x :: p.1, p.2))
        refine ⟨stretches, fun q hq => ?_, fun source => ?_⟩
        · have hwhole := hwithin q hq
          simpa using hwhole
        · rw [← endsAtBreak_ofItems source] at hbreak
          rw [List.map_cons, splitFrom_push (hopen source) hend hbreak, ← hsplit source]
          rfl

/-- Sources that show the same code are cut into the same stretches. -/
theorem exists_split {α : Type} (code : α → Char) (items : List α) :
    ∃ stretches : List (List α × Position), (∀ p ∈ stretches, p.1 <:+: items)
      ∧ ∀ source : α → Char, mask (items.map source) = items.map code →
        split (items.map source) = stretches.map (Span.ofItems source code) := by
  obtain ⟨stretches, hwithin, hsplit⟩ := exists_stretches code items 0 Position.start none
  refine ⟨stretches, hwithin, fun source hmask => ?_⟩
  have hcells : Source.cells (items.map source) = items.map (Cell.ofItem source code) := by
    rw [Source.cells, hmask, List.zipWith_map, List.zipWith_self]
    rfl
  rw [split, hcells]
  exact hsplit source

end TypeCoverage.Source
