import TypeCoverage.Proofs.Source.Join
import TypeCoverage.Proofs.Source.Ranges

/-!
# A semicolon separates a source

A text that ends with a semicolon outside of brackets, comments and literals is cut alike whatever
follows it, and what follows is cut as it is alone. The pass looks ahead of where it stands, for the
second character of a delimiter and for the word behind a line break, but never beyond such a
semicolon in a way that matters.
-/

set_option autoImplicit false

namespace TypeCoverage.Source

variable {before ahead more cells : List Cell} {depth : Nat} {place : Position}
  {pending? : Option Pending} {cell : Cell} {p : Pending}

/-! ## The word behind a line break -/

/-- A word ahead that runs into a semicolon goes on with what follows; any other stays as it is. -/
theorem exists_leadingWord_append (hahead : ∃ cell ∈ ahead, cell.code = ';') (more : List Cell) :
    ∃ rest, leadingWord (ahead ++ more) = leadingWord ahead ++ rest
      ∧ (rest = [] ∨ ';' ∈ leadingWord ahead) := by
  obtain ⟨stop, hstop, hcode⟩ := hahead
  have hmem : ';' ∈ (ahead.map Cell.code).dropWhile isBlank := by
    have hmap : ';' ∈ ahead.map Cell.code := hcode ▸ List.mem_map_of_mem hstop
    rw [← List.takeWhile_append_dropWhile (p := isBlank) (l := ahead.map Cell.code)] at hmap
    rcases List.mem_append.1 hmap with hblank | hmem
    · exact absurd (List.mem_takeWhile_imp hblank) (by decide)
    · exact hmem
  have hdrop : ((ahead ++ more).map Cell.code).dropWhile isBlank
      = (ahead.map Cell.code).dropWhile isBlank ++ more.map Cell.code := by
    rw [List.map_append, List.dropWhile_append, if_neg]
    rw [List.isEmpty_iff]
    exact List.ne_nil_of_mem hmem
  rw [leadingWord_eq, leadingWord_eq, hdrop, List.takeWhile_append]
  split
  · next hwhole =>
      -- the word takes in all that is ahead
      have hall := (List.takeWhile_prefix _).eq_of_length hwhole
      rw [hall]
      exact ⟨_, rfl, Or.inr hmem⟩
  · exact ⟨[], (List.append_nil _).symm, Or.inl rfl⟩

/-- A line break asks four things of the word behind it. -/
theorem endsAtBreak_of_words {ahead' : List Cell}
    (hempty : (leadingWord ahead').isEmpty = (leadingWord ahead).isEmpty)
    (hjoins : joinsBack (leadingWord ahead') = joinsBack (leadingWord ahead))
    (hblocks : blockContinuations.contains (leadingWord ahead')
      = blockContinuations.contains (leadingWord ahead))
    (hstatements : statementWords.contains (leadingWord ahead')
      = statementWords.contains (leadingWord ahead)) :
    endsAtBreak before ahead' = endsAtBreak before ahead := by
  unfold endsAtBreak
  dsimp only
  rw [hempty, hjoins, hblocks, hstatements]

/-- What follows a semicolon does not matter to a line break before it. -/
theorem endsAtBreak_append_ahead (hahead : ∃ cell ∈ ahead, cell.code = ';') (more : List Cell) :
    endsAtBreak before (ahead ++ more) = endsAtBreak before ahead := by
  obtain ⟨rest, hword, hrest⟩ := exists_leadingWord_append hahead more
  rcases hrest with rfl | hmem
  · rw [List.append_nil] at hword
    apply endsAtBreak_of_words <;> rw [hword]
  · -- no word that is asked for has a semicolon in it, however it goes on
    have hlist : ∀ words : List Text, (∀ word ∈ words, ';' ∉ word) →
        words.contains (leadingWord (ahead ++ more)) = words.contains (leadingWord ahead) := by
      intro words hwords
      have hnot : ∀ word, ';' ∈ word → words.contains word = false := by
        intro word hword
        rw [← Bool.not_eq_true, List.contains_iff_mem]
        exact fun h => hwords word h hword
      rw [hnot _ hmem, hword, hnot _ (List.mem_append_left _ hmem)]
    obtain ⟨c, cs, hcons⟩ := List.exists_cons_of_ne_nil (List.ne_nil_of_mem hmem)
    apply endsAtBreak_of_words
    · rw [hword, hcons]
      rfl
    · rw [hword, hcons]
      rfl
    · exact hlist _ (by decide)
    · exact hlist _ (by decide)

/-! ## The last cell -/

/-- Whether the pass over the cells ahead ends a statement by a semicolon that is the last of
them. -/
def endsBySemicolon : Nat → Position → Option Pending → List Cell → Bool
  | _, _, _, [] => false
  | depth, place, pending?, cell :: ahead =>
    match openAt pending? place cell with
    | none => endsBySemicolon depth (place.advance cell.code) none ahead
    | some p =>
      if cell.code = ';' ∧ depth = 0 then
        ahead.isEmpty || endsBySemicolon depth (place.advance cell.code) none ahead
      else if cell.code = '\n' ∧ depth = 0 ∧ endsAtBreak p.cells ahead then
        endsBySemicolon depth (place.advance cell.code) none ahead
      else
        endsBySemicolon (depthAfter depth cell.code) (place.advance cell.code)
          (some (p.push cell)) ahead

/-- Whether the pass over a source ends its last statement by a semicolon that is the last character
of the source. -/
def EndsBySemicolon (source : Text) : Prop :=
  endsBySemicolon 0 Position.start none (Source.cells source) = true

instance (source : Text) : Decidable (EndsBySemicolon source) :=
  inferInstanceAs (Decidable (_ = true))

theorem endsBySemicolon_cons (depth : Nat) (place : Position) (pending? : Option Pending)
    (cell : Cell) (ahead : List Cell) : endsBySemicolon depth place pending? (cell :: ahead)
      = match openAt pending? place cell with
        | none => endsBySemicolon depth (place.advance cell.code) none ahead
        | some p =>
          if cell.code = ';' ∧ depth = 0 then
            ahead.isEmpty || endsBySemicolon depth (place.advance cell.code) none ahead
          else if cell.code = '\n' ∧ depth = 0 ∧ endsAtBreak p.cells ahead then
            endsBySemicolon depth (place.advance cell.code) none ahead
          else
            endsBySemicolon (depthAfter depth cell.code) (place.advance cell.code)
              (some (p.push cell)) ahead := by
  cases pending? <;> rfl

theorem ne_semicolon_of_isBlank (h : cell.isBlank = true) : cell.code ≠ ';' := by
  intro hcode
  rw [Cell.isBlank, hcode] at h
  exact absurd h (by decide)

theorem isBlank_of_openAt_eq_none (h : openAt pending? place cell = none) :
    cell.isBlank = true := by
  cases pending? with
  | some p => cases h
  | none =>
      by_contra hblank
      rw [openAt, if_neg hblank] at h
      cases h

theorem endsBySemicolon_singleton (depth : Nat) (place : Position) (pending? : Option Pending)
    (cell : Cell) :
    endsBySemicolon depth place pending? [cell] = true ↔ cell.code = ';' ∧ depth = 0 := by
  rw [endsBySemicolon_cons]
  cases hopen : openAt pending? place cell with
  | none =>
      have hcode := ne_semicolon_of_isBlank (isBlank_of_openAt_eq_none hopen)
      simp [endsBySemicolon, hcode]
  | some p =>
      dsimp only
      by_cases hend : cell.code = ';' ∧ depth = 0
      · simp [hend]
      · rw [if_neg hend, endsBySemicolon, endsBySemicolon, ite_self]
        exact iff_of_false (by simp) hend

/-- The pass ends a statement by a last semicolon exactly if the mask ends with one that stands
outside of brackets. -/
theorem endsBySemicolon_iff (depth : Nat) (place : Position) (pending? : Option Pending)
    (cells : List Cell) : endsBySemicolon depth place pending? cells = true
      ↔ (cells.map Cell.code).getLast? = some ';'
        ∧ (cells.map Cell.code).foldl depthAfter depth = 0 := by
  induction cells generalizing depth place pending? with
  | nil => simp [endsBySemicolon]
  | cons cell ahead ih =>
      by_cases hahead : ahead = []
      · subst hahead
        rw [endsBySemicolon_singleton]
        refine Iff.trans ?_ (and_congr_left' (by simp : cell.code = ';' ↔ _))
        refine and_congr_right fun hcode => ?_
        rw [List.map_cons, hcode]
        rfl
      -- with more cells ahead the last one is among them, and only brackets change the depth
      · have hlast : ((cell :: ahead).map Cell.code).getLast? = (ahead.map Cell.code).getLast? := by
          obtain ⟨next, rest, rfl⟩ := List.exists_cons_of_ne_nil hahead
          rfl
        have hempty : ahead.isEmpty = false := by simpa using hahead
        rw [endsBySemicolon_cons, hlast, List.map_cons, List.foldl_cons]
        cases hopen : openAt pending? place cell with
        | none =>
            rw [depthAfter_blank (isBlank_of_openAt_eq_none hopen)]
            exact ih _ _ _
        | some p =>
            dsimp only
            rw [hempty, Bool.false_or]
            split
            · next hend =>
                rw [hend.1]
                exact ih _ _ _
            · split
              · next hbreak =>
                  rw [hbreak.1]
                  exact ih _ _ _
              · exact ih _ _ _

/-! ## What stands behind -/

/-- Behind cells with a last semicolon the pass goes on with nothing pending and no bracket open. -/
theorem splitFrom_append (h : endsBySemicolon depth place pending? cells = true)
    (more : List Cell) : splitFrom depth place pending? (cells ++ more)
      = splitFrom depth place pending? cells
        ++ splitFrom 0 (place.after (cells.map Cell.code)) none more := by
  induction cells generalizing depth place pending? with
  | nil => cases h
  | cons cell ahead ih =>
      rw [endsBySemicolon_cons] at h
      rw [List.cons_append, List.map_cons, Position.after_cons]
      cases hopen : openAt pending? place cell with
      | none =>
          rw [hopen] at h
          rw [splitFrom_skip hopen, splitFrom_skip hopen]
          exact ih h
      | some p =>
          rw [hopen] at h
          dsimp only at h
          by_cases hend : cell.code = ';' ∧ depth = 0
          · rw [if_pos hend, Bool.or_eq_true, List.isEmpty_iff] at h
            rw [splitFrom_end hopen hend, splitFrom_end hopen hend, List.cons_append]
            rcases h with rfl | h
            · rw [hend.2]
              rfl
            · rw [ih h]
          · rw [if_neg hend] at h
            have hlast : (ahead.map Cell.code).getLast? = some ';' := by
              split at h <;> exact ((endsBySemicolon_iff _ _ _ _).1 h).1
            have hjudged : endsAtBreak p.cells (ahead ++ more) = endsAtBreak p.cells ahead :=
              endsAtBreak_append_ahead (List.mem_map.1 (List.mem_of_getLast? hlast)) more
            by_cases hbreak : cell.code = '\n' ∧ depth = 0 ∧ endsAtBreak p.cells ahead = true
            · rw [if_pos hbreak] at h
              rw [splitFrom_break hopen hbreak, splitFrom_break hopen (hjudged ▸ hbreak), ih h,
                List.cons_append]
            · rw [if_neg hbreak] at h
              rw [splitFrom_push hopen hend hbreak, splitFrom_push hopen hend (hjudged ▸ hbreak)]
              exact ih h

/-- A semicolon of code is read alike before anything, and code follows it. -/
theorem step_semicolon {mode : Mode} {next? : Option Char}
    (h : (step mode ';' next?).1 = .code) (next'? : Option Char) :
    step mode ';' next'? = (.code, .code) := by
  cases mode with
  | code => simp [step, isQuote]
  | literal quote =>
      simp only [step] at h ⊢
      split_ifs at h ⊢ <;> simp_all
  | _ => simp [step] at h

/-- The pass over the characters of a text whose mask ends with a semicolon is in code after it. -/
theorem maskFrom_append {mode : Mode} {source : Text}
    (h : (maskFrom mode source).getLast? = some ';') (more : Text) :
    maskFrom mode (source ++ more) = maskFrom mode source ++ maskFrom .code more := by
  induction source generalizing mode with
  | nil => cases h
  | cons c cs ih =>
      cases cs with
      | nil =>
          have hshown : shown c (step mode c none).1 = ';' := Option.some.inj h
          unfold shown at hshown
          split at hshown
          · next hkept =>
              subst hshown
              have hstep := step_semicolon (hkept.resolve_right (by decide))
              rw [List.singleton_append, maskFrom_cons, maskFrom_cons, hstep, hstep]
              rfl
          · cases hshown
      | cons d ds =>
          have hrest := @ih (step mode c (some d)).2 h
          exact congrArg (shown c (step mode c (some d)).1 :: ·) hrest

theorem map_code_sourceCells (source : Text) :
    (Source.cells source).map Cell.code = mask source :=
  map_code_zipWith (length_mask source).symm

/-- **A semicolon separates a source.** Where the pass over a text ends its last statement by a
semicolon that is the last character of the text, whatever follows is cut as it is alone: the
statements of both together are those of the text, unchanged, and then those of what follows with
the same texts and codes. These begin as many lines further down as the text has line breaks, and
those on the first line as many characters further on as the last line of the text has. -/
theorem split_append_of_endsBySemicolon {source : Text} (h : EndsBySemicolon source)
    (more : Text) : split (source ++ more)
      = split source ++ (split more).map (Span.behind (Position.ofOffset source source.length)) := by
  have hlast := ((endsBySemicolon_iff _ _ _ _).1 h).1
  rw [map_code_sourceCells] at hlast
  have hmask : mask (source ++ more) = mask source ++ mask more := maskFrom_append hlast more
  have hcells : Source.cells (source ++ more) = Source.cells source ++ Source.cells more := by
    rw [Source.cells, hmask, List.zipWith_append (length_mask source).symm]
    rfl
  have hplace : Position.start.after ((Source.cells source).map Cell.code)
      = (Position.ofOffset source source.length).behind Position.start := by
    have hwhole : (mask source).take source.length = mask source :=
      List.take_of_length_le (Nat.le_of_eq (length_mask source))
    rw [map_code_sourceCells, Position.behind_start, ← Position.after_start, ← hwhole]
    conv => rhs; rw [← List.take_length (l := source)]
    exact after_take_maskFrom .code Position.start source source.length
  calc split (source ++ more)
      = splitFrom 0 Position.start none (Source.cells source ++ Source.cells more) := by
        rw [split, hcells]
    _ = split source
        ++ splitFrom 0 ((Position.ofOffset source source.length).behind Position.start) none
          (Source.cells more) := by
        rw [splitFrom_append h, hplace]
        rfl
    _ = split source
        ++ (split more).map (Span.behind (Position.ofOffset source source.length)) :=
        congrArg (split source ++ ·) (splitFrom_behind _ 0 Position.start none _)

/-- A stray bracket, semicolons in a string and in brackets, and a line break before the last
statement. -/
def closedText : Text := ")';'\nlet a = [;]\nlet b;".toList

/-- A word that would go on with the last statement, and a template that stays open. -/
def openText : Text := "else\nlet c = `;".toList

theorem split_append_of_endsBySemicolon_open : EndsBySemicolon closedText
    ∧ split (closedText ++ openText)
      = split closedText ++ (split openText).map (Span.behind ⟨2, 6⟩) := by
  have hends : EndsBySemicolon closedText := by decide +kernel
  have hplace : Position.ofOffset closedText closedText.length = ⟨2, 6⟩ := by decide +kernel
  exact ⟨hends, hplace ▸ split_append_of_endsBySemicolon hends openText⟩

end TypeCoverage.Source
