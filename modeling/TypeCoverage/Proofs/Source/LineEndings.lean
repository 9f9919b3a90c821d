import Mathlib.Data.List.TakeWhile
import TypeCoverage.Proofs.Source.Join
import TypeCoverage.Proofs.Source.Ranges
import TypeCoverage.Proofs.Source.Returns

/-!
# Line endings

A source whose line breaks all have a carriage return before them excludes the lines that it
excludes without them. It is cut as the source is that has a blank for each backslash that escapes a
line break in a literal other than a template, where the line break then ends the literal. So it has
the same statements, up to carriage returns, exactly if those blanks leave the statements where they
are.
-/

set_option autoImplicit false

namespace TypeCoverage.Source

variable {s : Text} {before ahead ahead' : List Cell}

/-! ## Line breaks among carriage returns -/

/-- Whether a cell is no carriage return. -/
def Cell.isKept (cell : Cell) : Bool := cell.source != '\r'

/-- Whether the carriage returns among some cells are blank. -/
def BlankReturns (cells : List Cell) : Prop :=
  ∀ cell ∈ cells, cell.isKept = false → cell.isBlank = true

/-- Blank carriage returns can be deleted before or after the blanks at the head are dropped. -/
theorem dropWhile_filter_isKept (h : BlankReturns before) :
    (before.filter Cell.isKept).dropWhile Cell.isBlank
      = (before.dropWhile Cell.isBlank).filter Cell.isKept := by
  induction before with
  | nil => rfl
  | cons cell cells ih =>
      have hcells : BlankReturns cells := fun d hd => h d (by simp [hd])
      by_cases hblank : cell.isBlank = true
      · rw [List.dropWhile_cons_of_pos hblank, ← ih hcells, List.filter_cons]
        split
        · rw [List.dropWhile_cons_of_pos hblank]
        · rfl
      · have hkept : cell.isKept = true := by
          by_contra hkept
          exact hblank (h cell (by simp) (by simpa using hkept))
        rw [List.dropWhile_cons_of_neg hblank, List.filter_cons_of_pos hkept,
          List.dropWhile_cons_of_neg hblank]

theorem isKept_of_mem_dropWhile {cell : Cell} {rest : List Cell} (h : BlankReturns before)
    (hdrop : before.dropWhile Cell.isBlank = cell :: rest) :
    cell.isKept = true ∧ BlankReturns rest := by
  have hsuffix : cell :: rest <:+ before := by
    rw [← hdrop]
    exact List.dropWhile_suffix _
  have hblank : ¬ cell.isBlank = true := by
    have hhead := List.head?_dropWhile_not Cell.isBlank before
    rw [hdrop] at hhead
    simpa using hhead
  refine ⟨?_, fun d hd => h d (hsuffix.subset (by simp [hd]))⟩
  by_contra hkept
  exact hblank (h cell (hsuffix.subset (by simp)) (by simpa using hkept))

theorem head?_dropWhile_filter_isKept (h : BlankReturns before) :
    ((before.filter Cell.isKept).dropWhile Cell.isBlank).head?
      = (before.dropWhile Cell.isBlank).head? := by
  rw [dropWhile_filter_isKept h]
  cases hdrop : before.dropWhile Cell.isBlank with
  | nil => rfl
  | cons cell rest => rw [List.filter_cons_of_pos (isKept_of_mem_dropWhile h hdrop).1]; rfl

theorem endsWithArrow_filter_isKept (h : BlankReturns before) :
    endsWithArrow (before.filter Cell.isKept) = endsWithArrow before := by
  rw [endsWithArrow_eq, endsWithArrow_eq, dropWhile_map_code, dropWhile_map_code,
    dropWhile_filter_isKept h]
  cases hdrop : before.dropWhile Cell.isBlank with
  | nil => rfl
  | cons cell rest =>
      obtain ⟨hkept, hrest⟩ := isKept_of_mem_dropWhile h hdrop
      have hnext : (((rest.filter Cell.isKept).map Cell.code).dropWhile isBlank).head?
          = ((rest.map Cell.code).dropWhile isBlank).head? := by
        rw [dropWhile_map_code, dropWhile_map_code, List.head?_map, List.head?_map,
          head?_dropWhile_filter_isKept hrest]
      rw [List.filter_cons_of_pos hkept, List.map_cons, List.map_cons]
      exact congrArg (fun next? => cell.code == '>' && next? == some '=') hnext

theorem leadingWord_returned (h : Returned ahead' ahead) :
    leadingWord ahead' = leadingWord ahead := by
  -- a word ends at a blank, so at a carriage return as at the line break behind it
  have htake : ∀ {cells' cells : List Cell}, Returned cells' cells →
      cells'.takeWhile (fun cell => !endsWord cell.code)
        = cells.takeWhile fun cell => !endsWord cell.code := by
    intro cells' cells h
    induction h with
    | nil => rfl
    | cell hsource hmore ih => rw [List.takeWhile_cons, List.takeWhile_cons, ih]
    | line hblank hbreak hmore ih =>
        rw [List.takeWhile_cons_of_neg (by simp [endsWord, hblank]),
          List.takeWhile_cons_of_neg (by decide)]
  induction h with
  | nil => rfl
  | @cell cell more' more hsource hmore ih =>
      by_cases hblank : cell.isBlank = true
      · rw [leadingWord_blank hblank, leadingWord_blank hblank, ih]
      · rw [leadingWord, leadingWord, List.dropWhile_cons_of_neg hblank,
          List.dropWhile_cons_of_neg hblank, htake (.cell hsource hmore)]
  | @line shown more' more hblank hbreak hmore ih =>
      have hreturn : (Cell.mk '\r' shown).isBlank = true := hblank
      have hline : (Cell.mk '\n' '\n').isBlank = true := by decide
      rw [leadingWord_blank hreturn, leadingWord_blank hline, leadingWord_blank hline, ih]

/-- Blank carriage returns make no difference to a line break. -/
theorem endsAtBreak_returned (hbefore : BlankReturns before) (hahead : Returned ahead' ahead) :
    endsAtBreak (before.filter Cell.isKept) ahead = endsAtBreak before ahead' := by
  have hfind : (before.filter Cell.isKept).find? (fun cell => !cell.isBlank)
      = before.find? fun cell => !cell.isBlank := by
    rw [List.find?_not_eq_head?_dropWhile, List.find?_not_eq_head?_dropWhile,
      head?_dropWhile_filter_isKept hbefore]
  unfold endsAtBreak
  rw [hfind, endsWithArrow_filter_isKept hbefore, leadingWord_returned hahead]

/-! ## The cut -/

/-- The pending statement without carriage returns. -/
def Pending.withoutReturns (p : Pending) : Pending := ⟨p.start, p.cells.filter Cell.isKept⟩

/-- Where a span begins, and its text without carriage returns. -/
def Span.outline (s : Span) : Position × Text := (s.start, s.text.filter fun c => c != '\r')

theorem outline_withoutReturns {p : Pending} (h : BlankReturns p.cells) :
    p.withoutReturns.span.outline = p.span.outline := by
  have hfilter : ∀ cells : List Cell, (cells.map Cell.source).filter (fun c => c != '\r')
      = (cells.filter Cell.isKept).map Cell.source := fun cells => List.filter_map
  unfold Span.outline Pending.span Pending.withoutReturns
  dsimp only
  rw [dropWhile_filter_isKept h, hfilter, hfilter, ← List.filter_reverse, List.filter_filter]
  simp

variable {cell : Cell} {p : Pending} {place place' : Position}

theorem withoutReturns_push (hkept : cell.isKept = true) (p : Pending) :
    (p.push cell).withoutReturns = p.withoutReturns.push cell := by
  unfold Pending.withoutReturns Pending.push
  rw [List.filter_cons_of_pos hkept]

theorem blankReturns_push (hcell : cell.isKept = false → cell.isBlank = true)
    (hp : BlankReturns p.cells) : BlankReturns (p.push cell).cells := by
  intro d hd hreturn
  rcases List.mem_cons.1 hd with rfl | hd
  · exact hcell hreturn
  · exact hp d hd hreturn

/-- One cell that is in both, in a statement that has begun in both. -/
theorem outline_cell {more more' : List Cell} (hkept : cell.isKept = true)
    (hmore : Returned more' more) (hp : BlankReturns p.cells) (depth : Nat)
    (hplace : place'.advance cell.code = place.advance cell.code)
    (ih : ∀ depth place pending?, (∀ p, pending? = some p → BlankReturns p.cells) →
      (splitFrom depth place pending? more').map Span.outline
        = (splitFrom depth place (pending?.map Pending.withoutReturns) more).map Span.outline) :
    (splitFrom depth place' (some p) (cell :: more')).map Span.outline
      = (splitFrom depth place (some p.withoutReturns) (cell :: more)).map Span.outline := by
  have hnone := ih depth (place.advance cell.code) none (by simp)
  have hpush : BlankReturns (p.push cell).cells := blankReturns_push (by simp [hkept]) hp
  by_cases hend : cell.code = ';' ∧ depth = 0
  · rw [splitFrom_end rfl hend, splitFrom_end rfl hend, List.map_cons, List.map_cons, hplace, hnone,
      ← withoutReturns_push hkept, outline_withoutReturns hpush]
    rfl
  have hjudged : endsAtBreak p.withoutReturns.cells more = endsAtBreak p.cells more' :=
    endsAtBreak_returned hp hmore
  by_cases hbreak : cell.code = '\n' ∧ depth = 0 ∧ endsAtBreak p.cells more' = true
  · have hbreak' := hbreak
    rw [← hjudged] at hbreak'
    rw [splitFrom_break rfl hbreak, splitFrom_break rfl hbreak', List.map_cons, List.map_cons,
      hplace, hnone, outline_withoutReturns hp]
    rfl
  · have hbreak' := hbreak
    rw [← hjudged] at hbreak'
    rw [splitFrom_push rfl hend hbreak, splitFrom_push rfl hend hbreak', hplace,
      ← withoutReturns_push hkept]
    refine ih _ _ (some (p.push cell)) fun q hq => ?_
    obtain rfl := Option.some.inj hq
    exact hpush

/-- Carriage returns before line breaks leave the statements where they are. -/
theorem outline_splitFrom (h : Returned ahead' ahead) (depth : Nat) (place : Position)
    (pending? : Option Pending) (hpending : ∀ p, pending? = some p → BlankReturns p.cells) :
    (splitFrom depth place pending? ahead').map Span.outline
      = (splitFrom depth place (pending?.map Pending.withoutReturns) ahead).map Span.outline := by
  induction h generalizing depth place pending? with
  | nil =>
      cases pending? with
      | none => rfl
      | some p => exact congrArg (fun x => [x]) (outline_withoutReturns (hpending p rfl)).symm
  | @cell cell more' more hsource hmore ih =>
      have hkept : cell.isKept = true := by simpa [Cell.isKept] using hsource
      cases pending? with
      | some p => exact outline_cell hkept hmore (hpending p rfl) depth rfl ih
      | none =>
          by_cases hblank : cell.isBlank = true
          · have hopen : openAt none place cell = none := if_pos hblank
            rw [Option.map_none, splitFrom_skip hopen, splitFrom_skip hopen]
            exact ih depth _ none (by simp)
          · have hfirst : cell.isBlank = false := by simpa using hblank
            rw [Option.map_none, splitFrom_open hfirst, splitFrom_open hfirst]
            have hempty : BlankReturns ([] : List Cell) := by simp [BlankReturns]
            exact outline_cell (p := ⟨place, []⟩) hkept hmore hempty depth rfl ih
  | @line shown more' more hblank hbreak hmore ih =>
      have hline : (Cell.mk '\n' '\n').isKept = true := by decide
      have hplace : (place.advance shown).advance '\n' = place.advance '\n' := by
        simp [Position.advance, hbreak]
      have hreturn : (Cell.mk '\r' shown).isBlank = true := hblank
      cases pending? with
      | none =>
          have hopen : ∀ place, openAt none place ⟨'\r', shown⟩ = none := fun _ => if_pos hreturn
          have hopen' : ∀ place, openAt none place ⟨'\n', '\n'⟩ = none := fun _ => rfl
          rw [Option.map_none, splitFrom_skip (hopen _), splitFrom_skip (hopen' _),
            splitFrom_skip (hopen' _), hplace]
          exact ih depth _ none (by simp)
      | some p =>
          -- the carriage return is one more blank of the statement
          have hend : ¬ (shown = ';' ∧ depth = 0) := by
            rintro ⟨rfl, -⟩
            exact absurd hblank (by decide)
          rw [splitFrom_push rfl hend fun h => hbreak h.1, depthAfter_blank hblank]
          have hp : BlankReturns (p.push ⟨'\r', shown⟩).cells :=
            blankReturns_push (fun _ => hreturn) (hpending p rfl)
          have hdeleted : (p.push ⟨'\r', shown⟩).withoutReturns = p.withoutReturns := rfl
          rw [Option.map_some, ← hdeleted]
          exact outline_cell hline hmore hp depth hplace ih

/-! ## Places and lengths -/

/-- Where a span begins, and how long it is. -/
def Span.extent (s : Span) : Position × Nat := (s.start, s.text.length)

/-- Cells that show the same code are cut in the same places. -/
theorem extent_splitFrom {cells cells' : List Cell}
    (h : cells'.map Cell.code = cells.map Cell.code) :
    (splitFrom 0 Position.start none cells').map Span.extent
      = (splitFrom 0 Position.start none cells).map Span.extent := by
  have hboth : (cells'.zip cells).map (Cell.ofItem (fun x => x.1.source) fun x => x.2.code) = cells'
      ∧ (cells'.zip cells).map (Cell.ofItem (fun x => x.2.source) fun x => x.2.code) = cells := by
    induction cells' generalizing cells with
    | nil =>
        obtain rfl := List.map_eq_nil_iff.1 h.symm
        exact ⟨rfl, rfl⟩
    | cons x xs ih =>
        obtain ⟨y, ys, rfl, hy, hys⟩ := List.map_eq_cons_iff.1 h.symm
        obtain ⟨hxs, hys⟩ := ih hys.symm
        have hx : Cell.mk x.source y.code = x := by rw [hy]
        rw [List.zip_cons_cons, List.map_cons, List.map_cons, hxs, hys]
        exact ⟨congrArg (· :: xs) hx, rfl⟩
  obtain ⟨stretches, -, hsplit⟩ := exists_stretches (fun x : Cell × Cell => x.2.code)
    (cells'.zip cells) 0 Position.start none
  have hextent : ∀ source : Cell × Cell → Char,
      (stretches.map (Span.ofItems source fun x => x.2.code)).map Span.extent
        = stretches.map fun stretch => (stretch.2, stretch.1.length) := by
    intro source
    rw [List.map_map]
    exact List.map_congr_left fun stretch _ => by simp [Span.extent, Span.ofItems]
  have hcut' := hsplit fun x => x.1.source
  have hcut := hsplit fun x => x.2.source
  rw [hboth.1, Option.map_none] at hcut'
  rw [hboth.2, Option.map_none] at hcut
  rw [hcut', hcut, hextent, hextent]

theorem after_take_unescapedFrom (mode : Mode) (p : Position) (s : Text) (n : Nat) :
    p.after ((unescapedFrom mode s).take n) = p.after (s.take n) := by
  induction s generalizing mode p n with
  | nil => rfl
  | cons c cs ih =>
      cases n with
      | zero => rfl
      | succ n =>
          have hbreak : unescapedAt mode c cs.head? = '\n' ↔ c = '\n' := by
            rcases unescapedAt_eq mode c cs.head? with hkept | ⟨hblank, hescape⟩
            · rw [hkept]
            · rw [hblank, hescape]
              decide
          rw [unescapedFrom, List.take_succ_cons, List.take_succ_cons, Position.after_cons,
            Position.after_cons, Position.advance_congr p hbreak]
          exact ih _ _ n

/-- The statements of a source where the code that it shows is that of another source. -/
def splitAs (s t : Text) : List Span :=
  splitFrom 0 Position.start none (List.zipWith Cell.mk s (mask t))

/-- Whether a span is a part of a text, at its place in the text. -/
def Span.PartOf (q : Span) (s : Text) : Prop :=
  ∃ r : Nat × Nat, r.1 ≤ r.2 ∧ r.2 ≤ s.length ∧ q.text = s.extract r.1 r.2
    ∧ q.start = Position.ofOffset s r.1

theorem partOf_of_mem_splitAs {t : Text} {q : Span} (hlength : t.length = s.length)
    (hplaces : ∀ n, Position.start.after (t.take n) = Position.start.after (s.take n))
    (hq : q ∈ splitAs s t) : q.PartOf s := by
  have hmask : s.length = (mask t).length := by rw [length_mask, hlength]
  obtain ⟨r, ⟨hproper, hbound⟩, hstands⟩ := exists_standsIn hq
  rw [List.length_zipWith, ← hmask, Nat.min_self] at hbound
  refine ⟨r, Nat.le_of_lt hproper, hbound, ?_, ?_⟩
  · rw [hstands.text, List.extract_eq_take_drop, List.map_take, List.map_drop,
      map_source_zipWith hmask, List.extract_eq_take_drop]
  · calc q.start = Position.start.after ((mask t).take r.1) := by
          rw [hstands.start, List.map_take, map_code_zipWith hmask]
      _ = Position.start.after (s.take r.1) := by rw [← hplaces, mask, after_take_maskFrom]
      _ = Position.ofOffset s r.1 := Position.after_take s (by omega)

theorem Span.PartOf.outline_eq {q : Span} (hq : q.PartOf s) (hs : '\r' ∉ s) :
    q.outline = (q.start, q.text) := by
  obtain ⟨r, -, -, htext, -⟩ := hq
  have hkept : ∀ c ∈ q.text, (c != '\r') = true := by
    intro c hc
    rw [htext, List.extract_eq_take_drop] at hc
    have hmem : c ∈ s := (List.drop_sublist _ _).subset ((List.take_sublist _ _).subset hc)
    simpa using fun hreturn : c = '\r' => hs (hreturn ▸ hmem)
  rw [Span.outline, List.filter_eq_self.2 hkept]

/-- Two parts of a text are the same if they begin at the same place and are of the same length. -/
theorem Span.PartOf.outline_eq_iff {q q' : Span} (hq : q.PartOf s) (hq' : q'.PartOf s)
    (hs : '\r' ∉ s) : q.outline = q'.outline ↔ q.extent = q'.extent := by
  rw [hq.outline_eq hs, hq'.outline_eq hs, Span.extent, Span.extent, Prod.mk.injEq, Prod.mk.injEq]
  refine and_congr_right fun hstart => ⟨congrArg List.length, fun hlength => ?_⟩
  obtain ⟨r, hle, hbound, htext, hplace⟩ := hq
  obtain ⟨r', hle', hbound', htext', hplace'⟩ := hq'
  have hfirst : r.1 = r'.1 :=
    Position.ofOffset_inj (by omega) (by omega) (hplace.symm.trans (hstart.trans hplace'))
  have hlast : r.2 = r'.2 := by
    rw [htext, htext', List.extract_eq_take_drop, List.extract_eq_take_drop, List.length_take,
      List.length_take, List.length_drop, List.length_drop] at hlength
    omega
  rw [htext, htext', hfirst, hlast]

theorem map_eq_map_iff_of_forall {α β γ : Type} {f : α → β} {g : α → γ} {xs ys : List α}
    (h : ∀ x ∈ xs, ∀ y ∈ ys, f x = f y ↔ g x = g y) :
    xs.map f = ys.map f ↔ xs.map g = ys.map g := by
  induction xs generalizing ys with
  | nil => cases ys <;> simp
  | cons x xs ih =>
      cases ys with
      | nil => simp
      | cons y ys =>
          have hrest : xs.map f = ys.map f ↔ xs.map g = ys.map g :=
            ih fun a ha b hb => h a (by simp [ha]) b (by simp [hb])
          rw [List.map_cons, List.map_cons, List.map_cons, List.map_cons, List.cons.injEq,
            List.cons.injEq, h x (by simp) y (by simp), hrest]

/-! ## Sources with other line endings -/

/-- **Line endings.** With a carriage return before each line break a source excludes the same
lines. It has the same statements, at the same places and with the same texts up to carriage
returns, exactly if a blank for each backslash that escapes a line break in a literal other than a
template leaves the statements where they are. -/
theorem split_withReturns_iff (s : Text) (hs : '\r' ∉ s) :
    ignoredLines s.withReturns = ignoredLines s
      ∧ ((split s.withReturns).map Span.outline = (split s).map Span.outline
        ↔ (split (unescaped s)).map Span.extent = (split s).map Span.extent) := by
  refine ⟨ignoredLines_withReturns hs, ?_⟩
  have hlength : (unescaped s).length = s.length := length_unescapedFrom .code s
  have houtline : (split s.withReturns).map Span.outline
      = (splitAs s (unescaped s)).map Span.outline :=
    outline_splitFrom (returned_cells hs) 0 Position.start none (by simp)
  have hextent : (split (unescaped s)).map Span.extent
      = (splitAs s (unescaped s)).map Span.extent := by
    apply extent_splitFrom
    rw [cells, map_code_zipWith (length_mask _).symm,
      map_code_zipWith (by rw [length_mask, hlength])]
  rw [houtline, hextent]
  apply map_eq_map_iff_of_forall
  intro q hq q' hq'
  have hpart : q.PartOf s :=
    partOf_of_mem_splitAs hlength (after_take_unescapedFrom .code _ s) hq
  have hpart' : q'.PartOf s := partOf_of_mem_splitAs rfl (fun _ => rfl) hq'
  exact hpart.outline_eq_iff hpart' hs

/-- A statement with a template and a comment over several lines, and one behind it. -/
def templateBreak : Text := "f(\x60a\\\nb\x60) /*\n*/\nlet c = 'd' // e".toList

theorem split_withReturns_templateBreak : '\r' ∉ templateBreak
    ∧ ignoredLines templateBreak.withReturns = ignoredLines templateBreak
    ∧ (split templateBreak.withReturns).map Span.outline
      = (split templateBreak).map Span.outline := by
  have hs : '\r' ∉ templateBreak := by decide +kernel
  obtain ⟨hignored, hsplit⟩ := split_withReturns_iff templateBreak hs
  exact ⟨hs, hignored, hsplit.2 (by decide +kernel)⟩

/-- A string that goes on in the next line. -/
def stringBreak : Text := "let a = 'x\\\ny;z'".toList

/-- With carriage returns the string ends with its first line, and a semicolon in its second line
ends the statement. -/
theorem withReturns_ends_string : '\r' ∉ stringBreak ∧ (split stringBreak).length = 1
    ∧ (split stringBreak.withReturns).length = 2 := by
  decide +kernel

end TypeCoverage.Source
