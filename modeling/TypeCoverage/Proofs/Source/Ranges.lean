import Mathlib.Data.List.Forall2
import TypeCoverage.Proofs.Source.Split
import TypeCoverage.Source.Unit

/-!
# Where the statements of a source stand

The statements of a source stand in ranges of it, one after another, with nothing but blanks of
the mask outside of them. Each statement is the source over its range, and the places that it
gives are the places of the source. No source is left out: brackets, literals and comments may
stay open.
-/

set_option autoImplicit false

namespace TypeCoverage

/-! ## Places -/

/-- The place of an offset: the number of line breaks before it, and its distance from the last
of them. -/
def Position.ofOffset (source : Text) (offset : Nat) : Position where
  line := (source.take offset).count '\n'
  character := ((source.take offset).reverse.takeWhile fun c => c != '\n').length

theorem Position.after_start (s : Text) : start.after s = ofOffset s s.length := by
  induction s using List.reverseRecOn with
  | nil => rfl
  | append_singleton s c ih =>
      have hstep : start.after (s ++ [c]) = (start.after s).advance c := after_append start s [c]
      rw [hstep, ih]
      unfold ofOffset advance
      rw [List.take_length, List.take_length, List.count_append, List.reverse_append]
      by_cases hc : c = '\n'
      · simp [hc]
      · simp [hc]

/-- The place of an offset is the place after what stands before it. -/
theorem Position.after_take (s : Text) {offset : Nat} (h : offset ≤ s.length) :
    start.after (s.take offset) = ofOffset s offset := by
  rw [after_start, ofOffset, ofOffset, List.take_take, List.length_take, Nat.min_eq_left h,
    Nat.min_self]

/-- A text leads to a later line, or further on in the same line. -/
theorem Position.after_progress (p : Position) (s : Text) :
    p.line < (p.after s).line
      ∨ (p.after s).line = p.line ∧ (p.after s).character = p.character + s.length := by
  induction s generalizing p with
  | nil => exact Or.inr ⟨rfl, rfl⟩
  | cons c cs ih =>
      rw [after_cons, List.length_cons]
      by_cases hc : c = '\n'
      · have hline : (p.advance c).line = p.line + 1 := by rw [advance, if_pos hc]
        rcases ih (p.advance c) with hlater | ⟨hsame, -⟩ <;> omega
      · have hnext : p.advance c = ⟨p.line, p.character + 1⟩ := if_neg hc
        rw [hnext]
        rcases ih ⟨p.line, p.character + 1⟩ with hlater | ⟨hsame, hfurther⟩
        · exact Or.inl hlater
        · exact Or.inr ⟨hsame, by rw [hfurther]; dsimp only; omega⟩

/-- Two offsets of a text have two places. -/
theorem Position.ofOffset_inj {s : Text} {m n : Nat} (hm : m ≤ s.length) (hn : n ≤ s.length)
    (h : ofOffset s m = ofOffset s n) : m = n := by
  have hle : ∀ {m n : Nat}, m ≤ s.length → n ≤ s.length → ofOffset s m = ofOffset s n → n ≤ m := by
    intro m n hm hn h
    by_contra hlt
    have hcut : s.take n = s.take m ++ (s.drop m).take (n - m) := by
      rw [← List.take_add]
      congr 1
      omega
    rw [← after_take s hm, ← after_take s hn, hcut, after_append] at h
    rcases after_progress (start.after (s.take m)) ((s.drop m).take (n - m)) with hlater | hsame
    · rw [← h] at hlater
      omega
    · rw [← h, List.length_take, List.length_drop] at hsame
      omega
  exact Nat.le_antisymm (hle hn hm h.symm) (hle hm hn h)

namespace Source

variable {place : Position} {cells rest gap body : List Cell} {spans : List Span} {p : Pending}
  {cell : Cell}

/-! ## Statements among blanks -/

/-- Whether cells begin and end with something that is not blank. -/
structure Solid (cells : List Cell) : Prop where
  first : ∃ cell, cells.head? = some cell ∧ cell.isBlank = false
  last : ∃ cell, cells.getLast? = some cell ∧ cell.isBlank = false

/-- Whether statements are all that is in cells which begin at a place: blanks, a statement, blanks,
and so on. -/
inductive Laid : Position → List Cell → List Span → Prop
  | blanks {place : Position} {gap : List Cell} (hgap : ∀ cell ∈ gap, cell.isBlank = true) :
      Laid place gap []
  | statement {place : Position} {gap body rest : List Cell} {spans : List Span}
      (hgap : ∀ cell ∈ gap, cell.isBlank = true) (hbody : Solid body)
      (hrest : Laid (place.after ((gap ++ body).map Cell.code)) rest spans) :
      Laid place (gap ++ body ++ rest)
        (⟨body.map Cell.source, body.map Cell.code, place.after (gap.map Cell.code)⟩ :: spans)

/-- More blanks in front change nothing. -/
theorem Laid.blanks_append (hgap : ∀ cell ∈ gap, cell.isBlank = true)
    (h : Laid (place.after (gap.map Cell.code)) cells spans) : Laid place (gap ++ cells) spans := by
  have hmore : ∀ more : List Cell, (∀ cell ∈ more, cell.isBlank = true) →
      ∀ cell ∈ gap ++ more, cell.isBlank = true := by
    intro more hblank cell hcell
    rcases List.mem_append.1 hcell with hcell | hcell
    · exact hgap cell hcell
    · exact hblank cell hcell
  cases h with
  | blanks hblank => exact .blanks (hmore _ hblank)
  | @statement _ gap' body rest spans hblank hbody hrest =>
      rw [← Position.after_append, ← List.map_append, ← List.append_assoc] at hrest
      have hlaid := Laid.statement (hmore gap' hblank) hbody hrest
      rw [List.map_append, Position.after_append] at hlaid
      rw [← List.append_assoc, ← List.append_assoc]
      exact hlaid

theorem Laid.blank_cons (hblank : cell.isBlank = true)
    (h : Laid (place.advance cell.code) cells spans) : Laid place (cell :: cells) spans := by
  have hone : ∀ c ∈ [cell], c.isBlank = true := by simpa using hblank
  exact Laid.blanks_append hone h

/-! ## The pending statement -/

/-- What is known of a pending statement at a place: it began with something that is not blank, and
its cells lead from its first place to this one. -/
structure Pending.Begun (p : Pending) (place : Position) : Prop where
  first : ∃ cell, p.cells.getLast? = some cell ∧ cell.isBlank = false
  leads : p.start.after (p.cells.reverse.map Cell.code) = place

/-- Without the blanks at its end a pending statement is solid. -/
theorem Pending.Begun.solid (h : p.Begun place) :
    Solid (p.cells.dropWhile Cell.isBlank).reverse := by
  obtain ⟨cell, hlast, hblank⟩ := h.first
  have hne : p.cells.dropWhile Cell.isBlank ≠ [] := by
    intro hnil
    have hall := List.dropWhile_eq_nil_iff.1 hnil cell (List.mem_of_getLast? hlast)
    rw [hblank] at hall
    cases hall
  constructor
  · refine ⟨cell, ?_, hblank⟩
    rw [List.head?_reverse, ← hlast]
    conv => rhs; rw [← List.takeWhile_append_dropWhile (p := Cell.isBlank) (l := p.cells)]
    rw [List.getLast?_append_of_ne_nil _ hne]
  · refine ⟨(p.cells.dropWhile Cell.isBlank).head hne, ?_, ?_⟩
    · rw [List.getLast?_reverse, List.head?_eq_some_head]
    · simpa using List.head_dropWhile_not Cell.isBlank hne

/-- A statement that ends at a place is followed by what is laid from there. -/
theorem Pending.Begun.laid (h : p.Begun place) (hrest : Laid place rest spans) :
    Laid p.start (p.cells.reverse ++ rest) (p.span :: spans) := by
  have hcut : p.cells.reverse = (p.cells.dropWhile Cell.isBlank).reverse
      ++ (p.cells.takeWhile Cell.isBlank).reverse := by
    rw [← List.reverse_append, List.takeWhile_append_dropWhile]
  have hblank : ∀ cell ∈ (p.cells.takeWhile Cell.isBlank).reverse, cell.isBlank = true := by
    intro cell hcell
    exact List.mem_takeWhile_imp (List.mem_reverse.1 hcell)
  -- the blanks at the end of the statement go to the gap behind it
  have hbehind : Laid (p.start.after ((p.cells.dropWhile Cell.isBlank).reverse.map Cell.code))
      ((p.cells.takeWhile Cell.isBlank).reverse ++ rest) spans := by
    apply Laid.blanks_append hblank
    rw [← Position.after_append, ← List.map_append, ← hcut, h.leads]
    exact hrest
  have hgap : ∀ cell ∈ ([] : List Cell), cell.isBlank = true := by simp
  have hlaid := Laid.statement hgap h.solid hbehind
  rw [List.nil_append, ← List.append_assoc, ← hcut] at hlaid
  exact hlaid

theorem Pending.Begun.push (h : p.Begun place) (cell : Cell) :
    (p.push cell).Begun (place.advance cell.code) := by
  obtain ⟨⟨first, hlast, hblank⟩, hleads⟩ := h
  constructor
  · refine ⟨first, ?_, hblank⟩
    show (cell :: p.cells).getLast? = some first
    rw [List.getLast?_cons, hlast, Option.getD_some]
  · show p.start.after ((cell :: p.cells).reverse.map Cell.code) = place.advance cell.code
    rw [List.reverse_cons, List.map_append, Position.after_append, hleads]
    rfl

/-- A cell belongs to the pending statement, or to one that it begins. -/
theorem openAt_eq_some {pending? : Option Pending} (h : openAt pending? place cell = some p) :
    pending? = some p ∨ (pending? = none ∧ p = ⟨place, []⟩ ∧ cell.isBlank = false) := by
  cases pending? with
  | some q => exact Or.inl h
  | none =>
      rw [openAt] at h
      split at h
      · cases h
      · next hblank =>
          exact Or.inr ⟨rfl, (Option.some.inj h).symm, by simpa using hblank⟩

/-! ## The pass -/

/-- The pass lays out the cells ahead, together with those of the statement that has begun. -/
theorem laid_splitFrom (cells : List Cell) (depth : Nat) (place : Position)
    (pending? : Option Pending) (hbegun : ∀ p, pending? = some p → p.Begun place) :
    Laid (pending?.elim place Pending.start) ((pending?.elim [] fun p => p.cells.reverse) ++ cells)
      (splitFrom depth place pending? cells) := by
  induction cells generalizing depth place pending? with
  | nil =>
      cases pending? with
      | none => exact .blanks (by simp)
      | some p => exact (hbegun p rfl).laid (.blanks (by simp))
  | cons cell cells ih =>
      have hnone := ih depth (place.advance cell.code) none (by simp)
      cases hopen : openAt pending? place cell with
      | none =>
          obtain ⟨rfl, hblank⟩ : pending? = none ∧ cell.isBlank = true := by
            cases pending? with
            | some p => cases hopen
            | none => exact ⟨rfl, by_contra fun hblank => by simp [openAt, hblank] at hopen⟩
          rw [splitFrom_skip hopen]
          exact hnone.blank_cons hblank
      | some p =>
          have hpush : (p.push cell).Begun (place.advance cell.code) := by
            rcases openAt_eq_some hopen with hp | ⟨-, rfl, hblank⟩
            · exact (hbegun p hp).push cell
            · exact ⟨⟨cell, rfl, hblank⟩, rfl⟩
          have hstart : pending?.elim place Pending.start = p.start := by
            rcases openAt_eq_some hopen with rfl | ⟨rfl, rfl, -⟩ <;> rfl
          have hcells : (pending?.elim [] fun p => p.cells.reverse) = p.cells.reverse := by
            rcases openAt_eq_some hopen with rfl | ⟨rfl, rfl, -⟩ <;> rfl
          have hwhole :
              p.cells.reverse ++ cell :: cells = (p.push cell).cells.reverse ++ cells := by
            simp [Pending.push]
          rw [hstart, hcells]
          -- the statement ends with this cell, before it, or goes on
          by_cases hend : cell.code = ';' ∧ depth = 0
          · rw [splitFrom_end hopen hend, hwhole]
            exact hpush.laid hnone
          by_cases hbreak : cell.code = '\n' ∧ depth = 0 ∧ endsAtBreak p.cells cells = true
          · have hblank : cell.isBlank = true := by
              rw [Cell.isBlank, hbreak.1]
              exact isBlank_newline
            have hp : p.Begun place := by
              rcases openAt_eq_some hopen with hp | ⟨-, -, hnot⟩
              · exact hbegun p hp
              · rw [hblank] at hnot
                cases hnot
            rw [splitFrom_break hopen hbreak]
            exact hp.laid (hnone.blank_cons hblank)
          · rw [splitFrom_push hopen hend hbreak, hwhole]
            refine ih _ (place.advance cell.code) (some (p.push cell)) fun q hq => ?_
            obtain rfl := Option.some.inj hq
            exact hpush

/-! ## Ranges -/

/-- Whether ranges of offsets are not empty, lie below a bound and follow each other. -/
structure Ascending (bound : Nat) (ranges : List (Nat × Nat)) : Prop where
  proper : ∀ r ∈ ranges, r.1 < r.2 ∧ r.2 ≤ bound
  apart : ranges.Pairwise fun r r' => r.2 ≤ r'.1

/-- What it is for a span to stand in a range of cells. -/
structure Span.StandsIn (s : Span) (whole : List Cell) (r : Nat × Nat) : Prop where
  text : s.text = (whole.extract r.1 r.2).map Cell.source
  code : s.code = (whole.extract r.1 r.2).map Cell.code
  start : s.start = Position.start.after ((whole.take r.1).map Cell.code)
  solid : Solid (whole.extract r.1 r.2)

/-- A solid stretch stands in the range that it takes up. -/
theorem Solid.standsIn (hbody : Solid body) (before rest : List Cell) :
    Span.StandsIn ⟨body.map Cell.source, body.map Cell.code,
        Position.start.after (before.map Cell.code)⟩
      (before ++ (body ++ rest)) (before.length, before.length + body.length) := by
  have hextract : (before ++ (body ++ rest)).extract before.length (before.length + body.length)
      = body := by
    simp [List.extract_eq_take_drop]
  constructor
  · rw [hextract]
  · rw [hextract]
  · rw [List.take_left]
  · rw [hextract]
    exact hbody

theorem Solid.length_pos (hbody : Solid body) : 0 < body.length := by
  obtain ⟨cell, hcell, -⟩ := hbody.first
  cases body with
  | nil => cases hcell
  | cons c cs => exact Nat.succ_pos _

/-- Statements that are laid out behind some cells stand in ranges behind those. -/
theorem Laid.exists_ranges (h : Laid place cells spans) (before : List Cell)
    (hplace : place = Position.start.after (before.map Cell.code)) : ∃ ranges,
      Ascending (before ++ cells).length ranges ∧ (∀ r ∈ ranges, before.length ≤ r.1)
        ∧ List.Forall₂ (fun s r => s.StandsIn (before ++ cells) r) spans ranges
        ∧ ∀ i cell, before.length ≤ i → (before ++ cells)[i]? = some cell →
          (∀ r ∈ ranges, ¬ (r.1 ≤ i ∧ i < r.2)) → cell.isBlank = true := by
  -- each statement adds its own range in front of those of the rest
  induction h generalizing before with
  | @blanks place gap hgap =>
      refine ⟨[], ⟨by simp, .nil⟩, by simp, .nil, ?_⟩
      intro i cell hi hcell _
      rw [List.getElem?_append_right hi] at hcell
      exact hgap cell (List.mem_of_getElem? hcell)
  | @statement place gap body rest spans hgap hbody hrest ih =>
      have hnext : place.after ((gap ++ body).map Cell.code)
          = Position.start.after ((before ++ (gap ++ body)).map Cell.code) := by
        rw [hplace, ← Position.after_append, ← List.map_append]
      have hstart : place.after (gap.map Cell.code)
          = Position.start.after ((before ++ gap).map Cell.code) := by
        rw [hplace, ← Position.after_append, ← List.map_append]
      obtain ⟨ranges, hascending, hbehind, hstand, hblank⟩ := ih (before ++ (gap ++ body)) hnext
      have hwhole : before ++ (gap ++ body) ++ rest = (before ++ gap) ++ (body ++ rest) := by simp
      have hlength : (before ++ (gap ++ body)).length = (before ++ gap).length + body.length := by
        simp only [List.length_append]
        omega
      have hpos := hbody.length_pos
      rw [hwhole] at hascending hstand hblank
      rw [hlength] at hbehind hblank
      have hcells : before ++ (gap ++ body ++ rest) = (before ++ gap) ++ (body ++ rest) := by simp
      have hfirst : before.length ≤ (before ++ gap).length := by simp
      rw [hcells, hstart]
      refine ⟨((before ++ gap).length, (before ++ gap).length + body.length) :: ranges,
        ⟨?_, List.pairwise_cons.2 ⟨hbehind, hascending.apart⟩⟩, ?_,
        .cons (hbody.standsIn (before ++ gap) rest) hstand, ?_⟩
      · intro r hr
        rcases List.mem_cons.1 hr with rfl | hr
        · simp only [List.length_append] at hpos ⊢
          omega
        · exact hascending.proper r hr
      · intro r hr
        rcases List.mem_cons.1 hr with rfl | hr
        · exact hfirst
        · have hle := hbehind r hr
          omega
      · intro i cell hi hcell hout
        by_cases hbefore : i < (before ++ gap).length
        · rw [List.getElem?_append_left hbefore, List.getElem?_append_right hi] at hcell
          exact hgap cell (List.mem_of_getElem? hcell)
        · have hnot := hout _ (List.mem_cons_self ..)
          dsimp only at hnot
          exact hblank i cell (by omega) hcell fun r hr => hout r (List.mem_cons_of_mem _ hr)

/-! ## The source -/

theorem Position.advance_congr {c d : Char} (p : Position) (h : c = '\n' ↔ d = '\n') :
    p.advance c = p.advance d := by
  unfold Position.advance
  by_cases hc : c = '\n'
  · rw [if_pos hc, if_pos (h.1 hc)]
  · rw [if_neg hc, if_neg fun hd => hc (h.2 hd)]

/-- The mask leads from place to place as the source does. -/
theorem after_take_maskFrom (mode : Mode) (p : Position) (source : Text) (n : Nat) :
    p.after ((maskFrom mode source).take n) = p.after (source.take n) := by
  induction source generalizing mode p n with
  | nil => rfl
  | cons c cs ih =>
      cases n with
      | zero => rfl
      | succ n =>
          have hhead : p.advance (shown c (step mode c cs.head?).1) = p.advance c :=
            Position.advance_congr p shown_eq_newline_iff
          rw [maskFrom_cons, List.take_succ_cons, List.take_succ_cons, Position.after_cons,
            Position.after_cons, hhead]
          exact ih _ _ n

end Source

open Source

/-- What it is for a statement to stand in a range of a source. -/
structure Statement.StandsIn (s : Statement) (source : Text) (r : Nat × Nat) : Prop where
  text : s.text = source.extract r.1 r.2
  code : s.code = (mask source).extract r.1 r.2
  first : ∃ c, s.code.head? = some c ∧ isBlank c = false
  last : ∃ c, s.code.getLast? = some c ∧ isBlank c = false
  start : s.start = Position.ofOffset source r.1
  placeOf : ∀ k ≤ r.2 - r.1, s.placeOf k = Position.ofOffset source (r.1 + k)

theorem Source.Span.StandsIn.statement {s : Span} {source : Text} {r : Nat × Nat}
    (h : s.StandsIn (cells source) r) (hr : r.1 < r.2 ∧ r.2 ≤ source.length) :
    (Statement.ofSpan s).StandsIn source r := by
  have hsource : (cells source).map Cell.source = source :=
    map_source_zipWith (length_mask source).symm
  have hcode : (cells source).map Cell.code = mask source :=
    map_code_zipWith (length_mask source).symm
  have htext : s.text = source.extract r.1 r.2 := by
    rw [h.text, List.extract_eq_take_drop, List.map_take, List.map_drop, hsource]
  have hmask : s.code = (mask source).extract r.1 r.2 := by
    rw [h.code, List.extract_eq_take_drop, List.map_take, List.map_drop, hcode]
  have hstart : s.start = Position.start.after ((mask source).take r.1) := by
    rw [h.start, List.map_take, hcode]
  constructor
  · exact htext
  · exact hmask
  · obtain ⟨cell, hcell, hblank⟩ := h.solid.first
    refine ⟨cell.code, ?_, hblank⟩
    show s.code.head? = some cell.code
    rw [h.code, List.head?_map, hcell]
    rfl
  · obtain ⟨cell, hcell, hblank⟩ := h.solid.last
    refine ⟨cell.code, ?_, hblank⟩
    show s.code.getLast? = some cell.code
    rw [h.code, List.getLast?_map, hcell]
    rfl
  · calc s.start = Position.start.after ((mask source).take r.1) := hstart
      _ = Position.start.after (source.take r.1) := after_take_maskFrom _ _ _ _
      _ = Position.ofOffset source r.1 := Position.after_take source (by omega)
  · intro k hk
    -- the offset counts on from the first character of the statement
    have hsum : (mask source).take r.1 ++ s.code.take k = (mask source).take (r.1 + k) := by
      rw [hmask, List.extract_eq_take_drop, List.take_take, Nat.min_eq_left hk, List.take_add]
    calc s.start.after (s.code.take k)
        = Position.start.after ((mask source).take (r.1 + k)) := by
          rw [hstart, ← Position.after_append, hsum]
      _ = Position.start.after (source.take (r.1 + k)) := after_take_maskFrom _ _ _ _
      _ = Position.ofOffset source (r.1 + k) := Position.after_take source (by omega)

/-- A span stands in a range of the cells that it was cut from. -/
theorem Source.exists_standsIn {cells : List Cell} {s : Span}
    (hs : s ∈ splitFrom 0 Position.start none cells) :
    ∃ r : Nat × Nat, (r.1 < r.2 ∧ r.2 ≤ cells.length) ∧ s.StandsIn cells r := by
  have hlaid : Laid Position.start cells (splitFrom 0 Position.start none cells) :=
    laid_splitFrom cells 0 Position.start none (by simp)
  obtain ⟨ranges, hascending, -, hstand, -⟩ := hlaid.exists_ranges [] rfl
  obtain ⟨i, hi, rfl⟩ := List.mem_iff_getElem.1 hs
  have hr := hascending.proper _ (List.getElem_mem (hstand.length_eq ▸ hi))
  exact ⟨_, hr, hstand.get hi (hstand.length_eq ▸ hi)⟩

theorem Source.length_cells (source : Text) : (cells source).length = source.length := by
  simp [cells]

/-- The statements of a source stand in ranges of it that follow each other. -/
theorem SourceUnit.exists_ranges (source : Text) : ∃ ranges : List (Nat × Nat),
    Ascending source.length ranges
      ∧ List.Forall₂ (fun s r => s.StandsIn source r)
        (SourceUnit.parse source).statements ranges := by
  have hlaid : Laid Position.start (cells source) (split source) :=
    laid_splitFrom (cells source) 0 Position.start none (by simp)
  obtain ⟨ranges, hascending, -, hstand, -⟩ := hlaid.exists_ranges [] rfl
  rw [List.nil_append, length_cells] at hascending
  refine ⟨ranges, hascending, List.forall₂_map_left_iff.2 ?_⟩
  refine List.forall₂_iff_zip.2 ⟨hstand.length_eq, fun {s r} hmem => ?_⟩
  have hr := hascending.proper r (List.of_mem_zip hmem).2
  exact ((List.forall₂_iff_zip.1 hstand).2 hmem).statement hr

/-- A statement of a source stands in a range of it. -/
theorem SourceUnit.exists_standsIn {source : Text} {s : Statement}
    (hs : s ∈ (SourceUnit.parse source).statements) :
    ∃ r : Nat × Nat, (r.1 < r.2 ∧ r.2 ≤ source.length) ∧ s.StandsIn source r := by
  obtain ⟨ranges, hascending, hstand⟩ := SourceUnit.exists_ranges source
  obtain ⟨i, hi, rfl⟩ := List.mem_iff_getElem.1 hs
  have hr := hascending.proper _ (List.getElem_mem (hstand.length_eq ▸ hi))
  exact ⟨_, hr, hstand.get hi (hstand.length_eq ▸ hi)⟩

/-- **Statements stand in ranges.** The statements of a source stand in ranges of it that follow
each other, each of them is the source and its code the mask over its range, begins and ends with
no blank and gives the places of the source, and outside of all ranges the mask is blank. -/
theorem SourceUnit.statements_stand_in_ranges (source : Text) : ∃ ranges : List (Nat × Nat),
    Ascending source.length ranges
      ∧ List.Forall₂ (fun s r => s.StandsIn source r) (SourceUnit.parse source).statements ranges
      ∧ ∀ i c, (mask source)[i]? = some c → (∀ r ∈ ranges, ¬ (r.1 ≤ i ∧ i < r.2)) →
        isBlank c = true := by
  have hlaid : Laid Position.start (cells source) (split source) :=
    laid_splitFrom (cells source) 0 Position.start none (by simp)
  obtain ⟨ranges, hascending, -, hstand, hblank⟩ := hlaid.exists_ranges [] rfl
  have hcode : (cells source).map Cell.code = mask source :=
    map_code_zipWith (length_mask source).symm
  have hlength : (cells source).length = source.length := by
    rw [← length_mask source, ← hcode, List.length_map]
  rw [List.nil_append] at hascending hstand hblank
  rw [hlength] at hascending
  refine ⟨ranges, hascending, ?_, ?_⟩
  · show List.Forall₂ _ ((split source).map Statement.ofSpan) ranges
    rw [List.forall₂_map_left_iff]
    refine List.forall₂_iff_zip.2 ⟨hstand.length_eq, fun {s r} hmem => ?_⟩
    have hr := hascending.proper r (List.of_mem_zip hmem).2
    exact ((List.forall₂_iff_zip.1 hstand).2 hmem).statement hr
  · intro i c hc hout
    rw [← hcode, List.getElem?_map] at hc
    obtain ⟨cell, hcell, rfl⟩ := Option.map_eq_some_iff.1 hc
    exact hblank i cell (Nat.zero_le i) hcell hout

end TypeCoverage
