import TypeCoverage.Proofs.Source.Import
import TypeCoverage.Proofs.Source.Join
import TypeCoverage.Proofs.Source.Mask

/-!
# Lines that name a module

A line that begins with the word `import` and ends with a string literal, or with the parenthesis
behind one. The pass reads such a line as one statement, whose kind is decided around the literal.
The line break after it ends the statement only before the end of the source, before a bracket, or
before a word that begins a statement; a semicolon behind the line ends it at once.
-/

set_option autoImplicit false

namespace TypeCoverage.Source

variable {rest s : Text} {place : Position}

/-! ## Characters -/

/-- The brackets that the pass over a source counts. -/
def brackets : List Char := ['(', ')', '[', ']', '\x7b', '\x7d']

/-- The other characters that the pass over a source stops at. -/
def stops : List Char := ['/', ';', '\n', '\x27', '\x22', '\x60']

theorem of_not_mem_stops {c : Char} (h : c ∉ stops) :
    (c ≠ '/' ∧ isQuote c = false) ∧ (c ≠ ';' ∧ c ≠ '\n') ∧ isSpecifierQuote c = false := by
  simp only [stops, List.mem_cons, List.not_mem_nil, or_false, not_or] at h
  simp [h, isQuote, isSpecifierQuote]

theorem foldl_depthAfter {depth : Nat} (h : ∀ c ∈ s, c ∉ brackets) :
    s.foldl depthAfter depth = depth := by
  induction s with
  | nil => rfl
  | cons c cs ih =>
      have hc : c ∉ brackets := h c (by simp)
      have hstep : depthAfter depth c = depth := by
        rw [depthAfter, if_neg, if_neg]
        · rintro (rfl | rfl | rfl) <;> exact hc (by decide)
        · rintro (rfl | rfl | rfl) <;> exact hc (by decide)
      rw [List.foldl_cons, hstep, ih fun d hd => h d (by simp [hd])]

theorem cells_code_cons {c : Char} (h : c ≠ '/' ∧ isQuote c = false) (rest : Text) :
    cells (c :: rest) = ⟨c, c⟩ :: cells rest := by
  have hmask : mask (c :: rest) = c :: mask rest := by
    have hc : ∀ d ∈ [c], d ≠ '/' ∧ isQuote d = false := by simpa using h
    exact maskFrom_code_append hc
  rw [cells, hmask]
  rfl

theorem cells_break (rest : Text) : cells ('\n' :: rest) = ⟨'\n', '\n'⟩ :: cells rest :=
  cells_code_cons (by decide) rest

/-- The place after a line and its line break. -/
theorem advance_break {p : Position} (h : ∀ c ∈ s, c ≠ '\n') :
    (p.after s).advance '\n' = ⟨p.line + 1, 0⟩ := by
  have hline : (p.after s).line = p.line := by
    induction s generalizing p with
    | nil => rfl
    | cons c cs ih =>
        rw [Position.after_cons, ih fun d hd => h d (by simp [hd]), Position.advance,
          if_neg (h c (by simp))]
  rw [Position.advance, if_pos rfl, hline]

/-- A pending statement that ends with no blank is a span as it is. -/
theorem span_of_last {cell : Cell} {before : List Cell} (h : cell.isBlank = false) :
    (Pending.mk place (cell :: before)).span
      = ⟨(cell :: before).reverse.map Cell.source, (cell :: before).reverse.map Cell.code,
        place⟩ := by
  have hkept : (cell :: before).dropWhile Cell.isBlank = cell :: before :=
    List.dropWhile_cons_of_neg (by simp [h])
  unfold Pending.span
  dsimp only
  rw [hkept]

/-! ## The line -/

/-- A line with a clause after the word `import`, a literal, and what closes a call around it. -/
structure SpecifierLine where
  clause : Text
  quote : Char
  specifier : Text
  tail : Text
  clause_not_mem : ∀ c ∈ clause, c ∉ stops
  tail_eq : tail = [] ∨ tail = [')']
  balanced : (clause ++ tail).foldl depthAfter 0 = 0
  quoted : isSpecifierQuote quote = true
  ne_nil : specifier ≠ []
  noQuote : NoQuote specifier
  plain : ∀ c ∈ specifier, c ≠ '\\' ∧ c ≠ '\n'

/-- Whether a source has no word to begin with, or one that begins a statement. -/
def BeginsStatement (source : Text) : Prop :=
  leadingWord (cells source) = [] ∨ leadingWord (cells source) ∈ statementWords

instance (source : Text) : Decidable (BeginsStatement source) := inferInstanceAs (Decidable (_ ∨ _))

namespace SpecifierLine

variable (i : SpecifierLine)

def head : Text := importWord ++ ' ' :: i.clause

def text : Text := i.head ++ i.quote :: (i.specifier ++ i.quote :: i.tail)

def code : Text := i.head ++ i.quote :: (List.replicate i.specifier.length ' ' ++ i.quote :: i.tail)

theorem head_not_mem : ∀ c ∈ i.head, c ∉ stops := by
  have hword : ∀ c ∈ importWord ++ [' '], c ∉ stops := by simp [importWord, stops]
  have hhead : i.head = (importWord ++ [' ']) ++ i.clause := by simp [head]
  intro c hc
  rw [hhead, List.mem_append] at hc
  rcases hc with hc | hc
  · exact hword c hc
  · exact i.clause_not_mem c hc

theorem eq_of_mem_tail {c : Char} (h : c ∈ i.tail) : c = ')' := by
  rcases i.tail_eq with htail | htail
  · rw [htail] at h
    cases h
  · rw [htail] at h
    exact List.mem_singleton.1 h

/-! ## Its mask -/

theorem length_code : i.code.length = i.text.length := by
  simp [code, text]

/-- The mask of a source that begins with the line. -/
theorem mask_append (rest : Text) : mask (i.text ++ rest) = i.code ++ mask rest := by
  have hquote : isQuote i.quote = true := quote_cases i.quoted (by decide) (by decide)
  have hcontent : ∀ c ∈ i.specifier, c ≠ i.quote ∧ c ≠ '\\' ∧ c ≠ '\n' := by
    intro c hc
    refine ⟨?_, i.plain c hc⟩
    rintro rfl
    have hno := i.noQuote i.quote hc
    rw [i.quoted] at hno
    cases hno
  have htail : ∀ c ∈ i.tail, c ≠ '/' ∧ isQuote c = false := by
    intro c hc
    rw [i.eq_of_mem_tail hc]
    decide
  have hhead : ∀ c ∈ i.head, c ≠ '/' ∧ isQuote c = false :=
    fun c hc => (of_not_mem_stops (i.head_not_mem c hc)).1
  have hline : i.text ++ rest
      = i.head ++ i.quote :: (i.specifier ++ i.quote :: (i.tail ++ rest)) := by
    simp [text]
  rw [mask, hline, maskFrom_code_append hhead, maskFrom_quoted hquote hcontent,
    maskFrom_code_append htail, code]
  simp [mask]

def cells : List Cell := List.zipWith Cell.mk i.text i.code

theorem map_source_cells : i.cells.map Cell.source = i.text :=
  map_source_zipWith i.length_code.symm

theorem map_code_cells : i.cells.map Cell.code = i.code :=
  map_code_zipWith i.length_code.symm

theorem cells_append (rest : Text) :
    Source.cells (i.text ++ rest) = i.cells ++ Source.cells rest := by
  rw [Source.cells, mask_append, List.zipWith_append i.length_code.symm]
  rfl

/-- The characters of the mask: those of the clause, the quotes with spaces between them, and what
stands behind. -/
theorem mem_code {c : Char} (h : c ∈ i.code) :
    c ∈ i.head ∨ c = i.quote ∨ c = ' ' ∨ c ∈ i.tail := by
  rw [code, List.mem_append, List.mem_cons, List.mem_append, List.mem_cons] at h
  rcases h with h | h | h | h | h
  · exact Or.inl h
  · exact Or.inr (Or.inl h)
  · exact Or.inr (Or.inr (Or.inl (List.eq_of_mem_replicate h)))
  · exact Or.inr (Or.inl h)
  · exact Or.inr (Or.inr (Or.inr h))

theorem code_not_mem : ∀ c ∈ i.code, c ≠ ';' ∧ c ≠ '\n' := by
  intro c hc
  rcases i.mem_code hc with hc | rfl | rfl | hc
  · exact (of_not_mem_stops (i.head_not_mem c hc)).2.1
  · exact quote_cases i.quoted (by decide) (by decide)
  · decide
  · rw [i.eq_of_mem_tail hc]
    decide

theorem foldl_code : i.code.foldl depthAfter 0 = 0 := by
  have hliteral : ∀ c ∈ i.quote :: (List.replicate i.specifier.length ' ' ++ [i.quote]),
      c ∉ brackets := by
    have hquote : i.quote ∉ brackets := quote_cases i.quoted (by decide) (by decide)
    intro c hc
    rw [List.mem_cons, List.mem_append, List.mem_singleton] at hc
    rcases hc with rfl | hc | rfl
    · exact hquote
    · rw [List.eq_of_mem_replicate hc]
      decide
    · exact hquote
  have hcode : i.code = (importWord ++ [' ']) ++ (i.clause
      ++ ((i.quote :: (List.replicate i.specifier.length ' ' ++ [i.quote])) ++ i.tail)) := by
    simp [code, head]
  have hword : (importWord ++ [' ']).foldl depthAfter 0 = 0 := by decide
  rw [hcode, List.foldl_append, hword, List.foldl_append, List.foldl_append,
    foldl_depthAfter hliteral, ← List.foldl_append]
  exact i.balanced

/-- The pass takes in the line as the beginning of a statement. -/
theorem splitFrom_line (place : Position) (ahead : List Cell) :
    splitFrom 0 place none (i.cells ++ ahead)
      = splitFrom 0 (place.after i.code) (some ⟨place, i.cells.reverse⟩) ahead := by
  have hstretch : ∀ cell ∈ i.cells, cell.code ≠ ';' ∧ cell.code ≠ '\n' := by
    intro cell hcell
    refine i.code_not_mem cell.code ?_
    rw [← i.map_code_cells]
    exact List.mem_map_of_mem hcell
  have hopen : splitFrom 0 place none (i.cells ++ ahead)
      = splitFrom 0 place (some ⟨place, []⟩) (i.cells ++ ahead) := by
    have hfirst : (Cell.mk 'i' 'i').isBlank = false := by decide
    exact splitFrom_open hfirst
  rw [hopen, splitFrom_stretch hstretch, i.map_code_cells, i.foldl_code, List.append_nil]

/-! ## Its end -/

/-- The line ends with a quote or a parenthesis. -/
theorem exists_last :
    ∃ front cell, i.cells = front ++ [cell] ∧ (cell.code = i.quote ∨ cell.code = ')') := by
  obtain ⟨front, c, hcode, hc⟩ : ∃ front c, i.code = front ++ [c] ∧ (c = i.quote ∨ c = ')') := by
    rcases i.tail_eq with htail | htail
    · refine ⟨i.head ++ i.quote :: List.replicate i.specifier.length ' ', i.quote, ?_,
        Or.inl rfl⟩
      simp [code, htail]
    · refine ⟨i.head ++ i.quote :: (List.replicate i.specifier.length ' ' ++ [i.quote]), ')',
        ?_, Or.inr rfl⟩
      simp [code, htail]
  obtain ⟨cells, last, hcells, -, hlast⟩ :=
    List.map_eq_append_iff.1 (i.map_code_cells.trans hcode)
  obtain ⟨cell, rfl, rfl⟩ := List.map_eq_singleton_iff.1 hlast
  exact ⟨cells, cell, hcells, hc⟩

theorem last_facts {c : Char} (hc : c = i.quote ∨ c = ')') :
    isBlank c = false ∧ c ∉ continuationChars ∧ c ≠ '\x7d' ∧ c ≠ '=' := by
  rcases hc with rfl | rfl
  · exact quote_cases i.quoted (by decide) (by decide)
  · decide

theorem exists_lastCode? :
    ∃ c, lastCode? i.cells.reverse = some c ∧ (c = i.quote ∨ c = ')') := by
  obtain ⟨front, cell, hcells, hc⟩ := i.exists_last
  have hblank : cell.isBlank = false := (i.last_facts hc).1
  refine ⟨cell.code, ?_, hc⟩
  rw [hcells, List.reverse_concat, lastCode?_cons hblank]

theorem endsAtBreak_line_iff (rest : Text) :
    endsAtBreak i.cells.reverse (Source.cells rest) = true ↔ BeginsStatement rest := by
  obtain ⟨c, hlast, hc⟩ := i.exists_lastCode?
  obtain ⟨-, hgoes, hbrace, -⟩ := i.last_facts hc
  exact endsAtBreak_iff hlast hgoes hbrace

/-- The line alone is a span of its own. -/
theorem span_line (place : Position) :
    (Pending.mk place i.cells.reverse).span = ⟨i.text, i.code, place⟩ := by
  obtain ⟨front, cell, hcells, hc⟩ := i.exists_last
  have hlast : i.cells.reverse = cell :: front.reverse := by rw [hcells, List.reverse_concat]
  rw [hlast, span_of_last (i.last_facts hc).1, ← hlast, List.reverse_reverse, map_source_cells,
    map_code_cells]

/-- The line is one line of a source. -/
theorem text_is_line : (∀ c ∈ i.text, c ≠ '\n') ∧ i.text.getLast? ≠ some '\r' := by
  have hquote : i.quote ≠ '\n' ∧ i.quote ≠ '\r' := quote_cases i.quoted (by decide) (by decide)
  constructor
  · intro c hc
    rw [text, List.mem_append, List.mem_cons, List.mem_append, List.mem_cons] at hc
    rcases hc with hc | rfl | hc | rfl | hc
    · exact (of_not_mem_stops (i.head_not_mem c hc)).2.1.2
    · exact hquote.1
    · exact (i.plain c hc).2
    · exact hquote.1
    · rw [i.eq_of_mem_tail hc]
      decide
  · rcases i.tail_eq with htail | htail
    · have hlast : i.text = (i.head ++ i.quote :: i.specifier) ++ [i.quote] := by
        simp [text, htail]
      rw [hlast, List.getLast?_concat]
      exact fun heq => hquote.2 (Option.some.inj heq)
    · have hlast : i.text = (i.head ++ i.quote :: (i.specifier ++ [i.quote])) ++ [')'] := by
        simp [text, htail]
      rw [hlast, List.getLast?_concat]
      decide

/-- A statement whose text begins with the line has the literal between its first two quotes. -/
theorem kind_append {span : Span} (more more' : Text) (htext : span.text = i.text ++ more)
    (hcode : span.code = i.code ++ more') :
    span.kind = kindOfParts i.head i.specifier (i.tail ++ more) := by
  have hparts : span.text
      = i.head ++ i.quote :: (i.specifier ++ i.quote :: (i.tail ++ more)) := by
    rw [htext, text]
    simp
  have hhead : NoQuote i.head := fun c hc => (of_not_mem_stops (i.head_not_mem c hc)).2.2
  have hword : importWord.isPrefixOf span.code = true := by
    rw [hcode]
    rfl
  exact kind_quoted hword hparts hhead i.noQuote i.quoted i.quoted

/-! ## Code after the line -/

theorem split_append (rest : Text) :
    split (i.text ++ rest)
      = splitFrom 0 (Position.start.after i.code) (some ⟨Position.start, i.cells.reverse⟩)
        (Source.cells rest) := by
  rw [split, cells_append, splitFrom_line]

theorem splitFrom_rest (rest : Text) :
    splitFrom 0 Position.start.down none (Source.cells rest) = (split rest).map Span.down :=
  splitFrom_down 0 Position.start (Source.cells rest)

theorem place_after_line : (Position.start.after i.code).advance '\n' = Position.start.down :=
  advance_break fun c hc => (i.code_not_mem c hc).2

/-- The line alone is the only statement of its source. -/
theorem split_alone : split i.text = [⟨i.text, i.code, Position.start⟩] := by
  have hsplit := i.split_append []
  rw [List.append_nil] at hsplit
  rw [hsplit, ← i.span_line]
  rfl

/-- Before code that begins a statement the line is a span of its own. -/
theorem split_apart (hbegins : BeginsStatement rest) :
    split (i.text ++ '\n' :: rest)
      = ⟨i.text, i.code, Position.start⟩ :: (split rest).map Span.down := by
  have hbreak : endsAtBreak i.cells.reverse (Source.cells rest) = true :=
    (i.endsAtBreak_line_iff rest).2 hbegins
  rw [split_append, cells_break, splitFrom_break rfl ⟨rfl, rfl, hbreak⟩, span_line,
    place_after_line, splitFrom_rest]

/-- Before other code the line is one span with the first span of that code. -/
theorem split_joined (hbegins : ¬ BeginsStatement rest) :
    ∃ gap first more, split rest = first :: more
      ∧ split (i.text ++ '\n' :: rest)
        = first.down.joined (gap ++ ⟨'\n', '\n'⟩ :: i.cells.reverse) Position.start
          :: more.map Span.down := by
  have hbreak : endsAtBreak i.cells.reverse (Source.cells rest) = false := by
    rw [← i.endsAtBreak_line_iff rest] at hbegins
    simpa using hbegins
  have hblank : (Cell.mk '\n' '\n').isBlank = true := by decide
  -- the line break is one more blank of the statement, which goes on at the rest
  have hpush : split (i.text ++ '\n' :: rest)
      = splitFrom 0 Position.start.down
        (some ⟨Position.start, ⟨'\n', '\n'⟩ :: i.cells.reverse⟩) (Source.cells rest) := by
    rw [split_append, cells_break, splitFrom_push rfl (by simp) (by simp [hbreak]),
      depthAfter_blank (by decide), place_after_line]
    rfl
  obtain ⟨c, hlast, hc⟩ := i.exists_lastCode?
  have hlast' : lastCode? (⟨'\n', '\n'⟩ :: i.cells.reverse) ≠ some '=' := by
    rw [lastCode?_blank hblank, hlast]
    exact fun heq => (i.last_facts hc).2.2.2 (Option.some.inj heq)
  have hbreak' : endsAtBreak (⟨'\n', '\n'⟩ :: i.cells.reverse) (Source.cells rest) = false := by
    rw [endsAtBreak_blank hblank, endsAtBreak_blank_ahead hblank, hbreak]
  have hword : leadingWord (Source.cells rest) ≠ [] := fun hword => hbegins (Or.inl hword)
  obtain ⟨gap, first, spans, hfirst, hjoined⟩ :=
    exists_joined_of_break Position.start.down Position.start hlast' hbreak' hword
  rw [splitFrom_rest] at hfirst
  obtain ⟨first, more, hmore, rfl, rfl⟩ := List.map_eq_cons_iff.1 hfirst
  exact ⟨gap, first, more, hmore, hpush.trans hjoined⟩

/-- A semicolon ends the line at once. -/
theorem split_closed (rest : Text) :
    split (i.text ++ ';' :: rest)
      = ⟨i.text ++ [';'], i.code ++ [';'], Position.start⟩
        :: splitFrom 0 (Position.start.after (i.code ++ [';'])) none (Source.cells rest) := by
  have hlast : (Cell.mk ';' ';').isBlank = false := by decide
  have hspan : (Pending.mk Position.start (⟨';', ';'⟩ :: i.cells.reverse)).span
      = ⟨i.text ++ [';'], i.code ++ [';'], Position.start⟩ := by
    rw [span_of_last hlast]
    simp [map_source_cells, map_code_cells]
  have hplace : (Position.start.after i.code).advance ';'
      = Position.start.after (i.code ++ [';']) := by
    rw [Position.after_append]
    rfl
  rw [split_append, cells_code_cons (by decide), splitFrom_end rfl ⟨rfl, rfl⟩, ← hspan, ← hplace]
  rfl

/-- After a semicolon a line break stands between statements. -/
theorem split_closed_apart (rest : Text) :
    split (i.text ++ ';' :: '\n' :: rest)
      = ⟨i.text ++ [';'], i.code ++ [';'], Position.start⟩ :: (split rest).map Span.down := by
  have hbreak : ∀ c ∈ i.code ++ [';'], c ≠ '\n' := by
    intro c hc
    rcases List.mem_append.1 hc with hc | hc
    · exact (i.code_not_mem c hc).2
    · rw [List.mem_singleton.1 hc]
      decide
  have hplace : (Position.start.after (i.code ++ [';'])).advance '\n' = Position.start.down :=
    advance_break hbreak
  have hskip : ∀ place, openAt none place ⟨'\n', '\n'⟩ = none := fun _ => rfl
  rw [split_closed, cells_break, splitFrom_skip (hskip _), hplace, splitFrom_rest]

end SpecifierLine

end TypeCoverage.Source
