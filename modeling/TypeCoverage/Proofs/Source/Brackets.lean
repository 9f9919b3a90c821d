import TypeCoverage.Proofs.Source.Semicolon

/-!
# Statements and brackets

A statement ends outside of brackets, and a semicolon outside of brackets ends it. The pass has one
count of open brackets for the whole source, but this is zero wherever a statement begins, so it is
also the count over the code of the pending statement alone, and the blanks that a statement loses
at its end have no part in it. Only the last statement may leave brackets open.
-/

set_option autoImplicit false

namespace TypeCoverage.Source

variable {depth : Nat} {place : Position} {pending? : Option Pending} {p : Pending} {cell : Cell}
  {c : Char} {taken gap : Text} {s : Span} {spans : List Span}

/-! ## Open brackets -/

/-- The number of brackets that are open after a code, where a closing one that closes nothing does
not count. -/
def openAfter (code : Text) : Nat := code.foldl depthAfter 0

theorem openAfter_concat (taken : Text) (c : Char) :
    openAfter (taken ++ [c]) = depthAfter (openAfter taken) c :=
  List.foldl_concat depthAfter 0 c taken

theorem openAfter_append_blanks (hgap : ∀ c ∈ gap, isBlank c = true) :
    openAfter (taken ++ gap) = openAfter taken := by
  induction gap using List.reverseRecOn with
  | nil => rw [List.append_nil]
  | append_singleton gap c ih =>
      rw [← List.append_assoc, openAfter_concat, depthAfter_blank (hgap c (by simp)),
        ih fun d hd => hgap d (by simp [hd])]

/-! ## The pending statement -/

def Pending.code (p : Pending) : Text := p.cells.reverse.map Cell.code

theorem Pending.code_push (p : Pending) (cell : Cell) :
    (p.push cell).code = p.code ++ [cell.code] := by
  simp [Pending.code, Pending.push]

/-- A statement is cut off where blanks are all that is left. -/
theorem Pending.exists_code_eq (p : Pending) :
    ∃ gap, p.code = p.span.code ++ gap ∧ ∀ c ∈ gap, isBlank c = true := by
  refine ⟨(p.cells.takeWhile Cell.isBlank).reverse.map Cell.code, ?_, fun c hc => ?_⟩
  · rw [Pending.code, Pending.span, ← List.map_append, ← List.reverse_append,
      List.takeWhile_append_dropWhile]
  · obtain ⟨cell, hcell, rfl⟩ := List.mem_map.1 hc
    exact List.mem_takeWhile_imp (p := Cell.isBlank) (List.mem_reverse.1 hcell)

theorem openAfter_span (p : Pending) : openAfter p.span.code = openAfter p.code := by
  obtain ⟨gap, hcode, hgap⟩ := p.exists_code_eq
  rw [hcode, openAfter_append_blanks hgap]

/-- What the pass keeps of the code of a pending statement: the depth counts the brackets that are
open in it, and no semicolon in it stands outside of brackets. -/
structure Tracks (code : Text) (depth : Nat) : Prop where
  openAfter_eq : openAfter code = depth
  semicolons : ∀ before after, code = before ++ ';' :: after → openAfter before ≠ 0

theorem tracks_nil : Tracks [] 0 := ⟨rfl, by simp⟩

theorem Tracks.push (h : Tracks taken depth) (hend : ¬ (c = ';' ∧ depth = 0)) :
    Tracks (taken ++ [c]) (depthAfter depth c) := by
  refine ⟨by rw [openAfter_concat, h.openAfter_eq], fun before after hcode hzero => ?_⟩
  -- the semicolon is the new character, or was there before
  rcases List.eq_nil_or_concat after with rfl | ⟨more, last, rfl⟩
  · obtain ⟨rfl, hlast⟩ := List.append_inj' hcode rfl
    exact hend ⟨List.singleton_inj.1 hlast, h.openAfter_eq.symm.trans hzero⟩
  · rw [List.concat_eq_append, ← List.cons_append, ← List.append_assoc] at hcode
    exact h.semicolons before more (List.append_inj' hcode rfl).1 hzero

theorem code_of_openAt (h : openAt pending? place cell = some p) :
    p.code = pending?.elim [] Pending.code := by
  rcases openAt_eq_some h with rfl | ⟨rfl, rfl, -⟩ <;> rfl

/-! ## Statements -/

/-- Whether a semicolon outside of brackets stands nowhere but at the end of a code. -/
def SemicolonsLast (code : Text) : Prop :=
  ∀ before after, code = before ++ ';' :: after → openAfter before = 0 → after = []

/-- What it is for statements that follow each other to respect brackets and semicolons: none but
the last leaves a bracket open, and none goes on behind a semicolon outside of brackets. -/
structure RespectBrackets (spans : List Span) : Prop where
  closed : ∀ s ∈ spans.dropLast, openAfter s.code = 0
  semicolonsLast : ∀ s ∈ spans, SemicolonsLast s.code

theorem respectBrackets_nil : RespectBrackets [] := ⟨by simp, by simp⟩

theorem respectBrackets_singleton (h : SemicolonsLast s.code) : RespectBrackets [s] :=
  ⟨by simp, by simpa using h⟩

theorem RespectBrackets.cons (h : RespectBrackets spans) (hclosed : openAfter s.code = 0)
    (hlast : SemicolonsLast s.code) : RespectBrackets (s :: spans) := by
  refine ⟨fun t ht => ?_, List.forall_mem_cons.2 ⟨hlast, h.semicolonsLast⟩⟩
  cases spans with
  | nil => simp at ht
  | cons next rest =>
      rw [List.dropLast_cons_of_ne_nil (List.cons_ne_nil next rest)] at ht
      rcases List.mem_cons.1 ht with rfl | ht
      · exact hclosed
      · exact h.closed t ht

/-- A statement without a semicolon of its own has none outside of brackets. -/
theorem Tracks.semicolonsLast_span (h : Tracks p.code depth) : SemicolonsLast p.span.code := by
  intro before after hcode hzero
  obtain ⟨gap, hgap, -⟩ := p.exists_code_eq
  rw [hcode, List.append_assoc, List.cons_append] at hgap
  exact absurd hzero (h.semicolons before _ hgap)

/-- A semicolon that ends a statement is its last character. -/
theorem span_push_semicolon (hcode : cell.code = ';') :
    (p.push cell).span.code = p.code ++ [';'] := by
  have hblank : ¬ cell.isBlank = true := fun hblank => ne_semicolon_of_isBlank hblank hcode
  have hcells : (p.push cell).cells.dropWhile Cell.isBlank = cell :: p.cells :=
    List.dropWhile_cons_of_neg hblank
  show ((p.push cell).cells.dropWhile Cell.isBlank).reverse.map Cell.code = _
  rw [hcells, List.reverse_cons, List.map_append, List.map_singleton, hcode]
  rfl

theorem Tracks.semicolonsLast_push (h : Tracks p.code depth) (hcode : cell.code = ';') :
    SemicolonsLast (p.push cell).span.code := by
  intro before after hspan hzero
  rw [span_push_semicolon hcode] at hspan
  rcases List.eq_nil_or_concat after with rfl | ⟨more, last, rfl⟩
  · rfl
  · rw [List.concat_eq_append, ← List.cons_append, ← List.append_assoc] at hspan
    exact absurd hzero (h.semicolons before more (List.append_inj' hspan rfl).1)

/-! ## The pass -/

/-- From a cell where the depth counts the brackets of the pending statement, the pass cuts
statements that respect brackets. -/
theorem respectBrackets_splitFrom (cells : List Cell) (depth : Nat) (place : Position)
    (pending? : Option Pending) (h : Tracks (pending?.elim [] Pending.code) depth) :
    RespectBrackets (splitFrom depth place pending? cells) := by
  induction cells generalizing depth place pending? with
  | nil =>
      cases pending? with
      | none => exact respectBrackets_nil
      | some p => exact respectBrackets_singleton h.semicolonsLast_span
  | cons cell cells ih =>
      cases hopen : openAt pending? place cell with
      | none =>
          obtain rfl : pending? = none := by
            cases pending? with
            | none => rfl
            | some p => cases hopen
          rw [splitFrom_skip hopen]
          exact ih depth _ none h
      | some p =>
          rw [← code_of_openAt hopen] at h
          -- a statement that ends leaves the depth at zero, as it is for the next one
          by_cases hend : cell.code = ';' ∧ depth = 0
          · obtain ⟨hcode, rfl⟩ := hend
            rw [splitFrom_end hopen ⟨hcode, rfl⟩]
            refine (ih 0 _ none tracks_nil).cons ?_ (h.semicolonsLast_push hcode)
            rw [span_push_semicolon hcode, openAfter_concat, h.openAfter_eq]
            rfl
          by_cases hbreak : cell.code = '\n' ∧ depth = 0 ∧ endsAtBreak p.cells cells = true
          · obtain ⟨hcode, rfl, hjudged⟩ := hbreak
            rw [splitFrom_break hopen ⟨hcode, rfl, hjudged⟩]
            refine (ih 0 _ none tracks_nil).cons ?_ h.semicolonsLast_span
            rw [openAfter_span, h.openAfter_eq]
          · rw [splitFrom_push hopen hend hbreak]
            refine ih _ _ (some (p.push cell)) ?_
            show Tracks (p.push cell).code _
            rw [p.code_push]
            exact h.push hend

/-- **Statements respect brackets and semicolons.** The statements of a source, whatever brackets
are missing in it, are all of it but blanks. No bracket is open at the end of a statement but
perhaps the last, counting from the beginning of that statement, and a semicolon that stands outside
of brackets by this count is the last character of its statement. -/
theorem split_respects_brackets (source : Text) :
    Laid Position.start (cells source) (split source) ∧ RespectBrackets (split source) :=
  ⟨laid_splitFrom (cells source) 0 Position.start none (by simp),
    respectBrackets_splitFrom (cells source) 0 Position.start none tracks_nil⟩

/-- A closing bracket that closes nothing does not count, and one of another kind closes as well. -/
example : openAfter "f(".toList = 1 ∧ openAfter ")f([".toList = 2 ∧ openAfter "f(a[0])".toList = 0
    ∧ openAfter "f(a]".toList = 0 := by
  decide

end TypeCoverage.Source
