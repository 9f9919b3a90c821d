import TypeCoverage.Proofs.Source.SpecifierLine

/-!
# Imports on one line

The forms of an import that fit on one line, with no semicolon at the end. The pass reads such a
line as one statement, and a text that begins with it is that of an import. The line break after it
ends the statement only before the end of the source, before a bracket, or before a word that begins
a statement.
-/

set_option autoImplicit false

namespace TypeCoverage.Source

variable {name : Text}

/-! ## Forms

What an import binds decides how its line is written: a head with the clause, the specifier between
quotes, and a tail. -/

/-- Whether a text is a name. -/
def IsIdentifier (name : Text) : Prop :=
  ∃ c cs, name = c :: cs ∧ isNameStart c = true ∧ ∀ d ∈ cs, isNameChar d = true

inductive ImportForm where
  | default (name : Text)
  | named (names : List Text)
  | all (name : Text)
  | effect
  | require (name : Text)

namespace ImportForm

def names : ImportForm → List Text
  | default name => [name]
  | named names => names
  | all name => [name]
  | effect => []
  | require name => [name]

def fromWord : Text := [' ', 'f', 'r', 'o', 'm', ' ']

def clause : ImportForm → Text
  | default name => name ++ fromWord
  | named names => ['\x7b', ' '] ++ (Text.join [',', ' '] names ++ ([' ', '\x7d'] ++ fromWord))
  | all name => ['*', ' ', 'a', 's', ' '] ++ (name ++ fromWord)
  | effect => []
  | require name => name ++ ([' ', '=', ' '] ++ (requireWord ++ ['(']))

def head (form : ImportForm) : Text := importWord ++ ' ' :: form.clause

def tail : ImportForm → Text
  | require _ => [')']
  | _ => []

end ImportForm

/-- An import on one line. -/
structure ImportLine where
  form : ImportForm
  quote : Char
  specifier : Text
  isIdentifier : ∀ name ∈ form.names, IsIdentifier name
  quoted : isSpecifierQuote quote = true
  ne_nil : specifier ≠ []
  noQuote : NoQuote specifier
  plain : ∀ c ∈ specifier, c ≠ '\\' ∧ c ≠ '\n'

namespace ImportLine

def text (i : ImportLine) : Text :=
  i.form.head ++ i.quote :: (i.specifier ++ i.quote :: i.form.tail)

def code (i : ImportLine) : Text :=
  i.form.head ++ i.quote :: (List.replicate i.specifier.length ' ' ++ i.quote :: i.form.tail)

end ImportLine

/-! ## Characters of names and clauses -/

theorem isBlank_of_isNameStart {c : Char} (h : isNameStart c = true) : isBlank c = false := by
  have hrange : (65 ≤ c.toNat ∧ c.toNat ≤ 90) ∨ (97 ≤ c.toNat ∧ c.toNat ≤ 122) ∨ c.toNat = 95
      ∨ c.toNat = 36 := by
    delta isNameStart Char.isAlpha Char.isUpper Char.isLower at h
    simp only [Bool.or_eq_true, Bool.and_eq_true, decide_eq_true_eq, beq_iff_eq,
      UInt32.le_iff_toNat_le, ge_iff_le] at h
    rcases h with ((h | h) | rfl) | rfl
    · exact Or.inl h
    · exact Or.inr (Or.inl h)
    · exact Or.inr (Or.inr (Or.inl rfl))
    · exact Or.inr (Or.inr (Or.inr rfl))
  by_contra hblank
  have hblank : isBlank c = true := by simpa using hblank
  unfold isBlank at hblank
  simp only [Bool.or_eq_true, Bool.and_eq_true, decide_eq_true_eq, beq_iff_eq] at hblank
  omega

theorem IsIdentifier.not_mem (h : IsIdentifier name) {c : Char} (hc : c ∈ name) :
    c ∉ stops ∧ c ∉ brackets := by
  have hstart : ∀ d ∈ stops ++ brackets, isNameStart d = false := by
    simp [stops, brackets, isNameStart]
  have hmore : ∀ d ∈ stops ++ brackets, isNameChar d = false := by
    intro d hd
    have hall : (stops ++ brackets).all (fun d => !isNameChar d) = true := by decide
    simpa using List.all_eq_true.1 hall d hd
  rw [← not_or, ← List.mem_append]
  intro hmem
  obtain ⟨d, ds, rfl, hd, hds⟩ := h
  rcases List.mem_cons.1 hc with rfl | hc
  · rw [hstart c hmem] at hd
    cases hd
  · have hname := hds c hc
    rw [hmore c hmem] at hname
    cases hname

theorem forall_mem_join {p : Char → Prop} {sep : Text} {ps : List Text} (hsep : ∀ c ∈ sep, p c)
    (h : ∀ s ∈ ps, ∀ c ∈ s, p c) : ∀ c ∈ Text.join sep ps, p c := by
  induction ps with
  | nil => simp [Text.join]
  | cons s ps ih =>
      cases ps with
      | nil => exact h s (by simp)
      | cons t ps =>
          intro c hc
          rw [Text.join, List.mem_append, List.mem_append] at hc
          rcases hc with (hc | hc) | hc
          · exact h s (by simp) c hc
          · exact hsep c hc
          · exact ih (fun u hu => h u (by simp [List.mem_cons.1 hu])) c hc

namespace ImportForm

variable {form : ImportForm}

/-- No quote, slash, semicolon or line break stands in a clause. -/
theorem clause_not_mem_stops (hnames : ∀ name ∈ form.names, IsIdentifier name) :
    ∀ c ∈ form.clause, c ∉ stops := by
  have hfrom : ∀ c ∈ fromWord, c ∉ stops := by simp [fromWord, stops]
  have hname : ∀ name ∈ form.names, ∀ c ∈ name, c ∉ stops :=
    fun name hmem c hc => ((hnames name hmem).not_mem hc).1
  intro c hc
  cases form with
  | default name =>
      rcases List.mem_append.1 hc with hc | hc
      · exact hname name (by simp [names]) c hc
      · exact hfrom c hc
  | named names =>
      have hopen : ∀ c ∈ ['\x7b', ' '], c ∉ stops := by simp [stops]
      have hclose : ∀ c ∈ [' ', '\x7d'] ++ fromWord, c ∉ stops := by simp [fromWord, stops]
      rcases List.mem_append.1 hc with hc | hc
      · exact hopen c hc
      rcases List.mem_append.1 hc with hc | hc
      · exact forall_mem_join (by simp [stops]) hname c hc
      · exact hclose c hc
  | all name =>
      have hstar : ∀ c ∈ ['*', ' ', 'a', 's', ' '], c ∉ stops := by simp [stops]
      rcases List.mem_append.1 hc with hc | hc
      · exact hstar c hc
      rcases List.mem_append.1 hc with hc | hc
      · exact hname name (by simp [names]) c hc
      · exact hfrom c hc
  | effect => cases hc
  | require name =>
      have hcall : ∀ c ∈ [' ', '=', ' '] ++ (requireWord ++ ['(']), c ∉ stops := by
        simp [requireWord, stops]
      rcases List.mem_append.1 hc with hc | hc
      · exact hname name (by simp [names]) c hc
      · exact hcall c hc

/-- The brackets of a clause are closed before the specifier, or behind it. -/
theorem foldl_clause (hnames : ∀ name ∈ form.names, IsIdentifier name) :
    (form.clause ++ form.tail).foldl depthAfter 0 = 0 := by
  have hname : ∀ name ∈ form.names, ∀ c ∈ name, c ∉ brackets :=
    fun name hmem c hc => ((hnames name hmem).not_mem hc).2
  have hfrom : fromWord.foldl depthAfter 0 = 0 := by decide
  rw [List.foldl_append]
  -- names hold no brackets, so only those of the form itself count
  cases form with
  | default name =>
      rw [clause, List.foldl_append, foldl_depthAfter (hname name (by simp [names])), hfrom]
      rfl
  | named names =>
      have hopen : ['\x7b', ' '].foldl depthAfter 0 = 1 := by decide
      have hclose : ([' ', '\x7d'] ++ fromWord).foldl depthAfter 1 = 0 := by decide
      have hjoin : ∀ c ∈ Text.join [',', ' '] names, c ∉ brackets :=
        forall_mem_join (by simp [brackets]) hname
      rw [clause, List.foldl_append, hopen, List.foldl_append, foldl_depthAfter hjoin, hclose]
      rfl
  | all name =>
      have hstar : ['*', ' ', 'a', 's', ' '].foldl depthAfter 0 = 0 := by decide
      rw [clause, List.foldl_append, hstar, List.foldl_append,
        foldl_depthAfter (hname name (by simp [names])), hfrom]
      rfl
  | effect => rfl
  | require name =>
      have hcall : ([' ', '=', ' '] ++ (requireWord ++ ['('])).foldl depthAfter 0 = 1 := by decide
      rw [clause, List.foldl_append, foldl_depthAfter (hname name (by simp [names])), hcall]
      rfl

/-! ## Forms as imports -/

/-- Whether the word `from` stands before the specifier. -/
def HasFrom : ImportForm → Prop
  | effect => False
  | require _ => False
  | _ => True

theorem exists_fromWord (h : form.HasFrom) : ∃ front, form.clause = front ++ fromWord := by
  cases form with
  | default name => exact ⟨name, rfl⟩
  | named names =>
      refine ⟨['\x7b', ' '] ++ Text.join [',', ' '] names ++ [' ', '\x7d'], ?_⟩
      simp [clause]
  | all name =>
      refine ⟨['*', ' ', 'a', 's', ' '] ++ name, ?_⟩
      simp [clause]
  | effect => cases h
  | require name => cases h

/-- Behind the specifier of a form stands nothing, or the parenthesis of a call. -/
theorem tail_cases (form : ImportForm) : (form.tail = [] ∧ (form.HasFrom ∨ form = .effect))
    ∨ (form.tail = [')'] ∧ ∃ name, form = .require name) := by
  cases form with
  | default name => exact Or.inl ⟨rfl, Or.inl trivial⟩
  | named names => exact Or.inl ⟨rfl, Or.inl trivial⟩
  | all name => exact Or.inl ⟨rfl, Or.inl trivial⟩
  | effect => exact Or.inl ⟨rfl, Or.inr rfl⟩
  | require name => exact Or.inr ⟨rfl, name, rfl⟩

theorem tail_eq (form : ImportForm) : form.tail = [] ∨ form.tail = [')'] :=
  form.tail_cases.imp And.left And.left

theorem leadsToSpecifier_fromWord (s : Text) : leadsToSpecifier (s ++ fromWord) = true := by
  have hreverse : (s ++ fromWord).reverse.dropWhile isBlank
      = ['m', 'o', 'r', 'f', ' '] ++ s.reverse := by
    rw [List.reverse_append]
    rfl
  rw [leadsToSpecifier, hreverse]
  show (!isWord ' ') = true
  decide

theorem stripPrefix?_importWord (s : Text) :
    Text.stripPrefix? importWord (importWord ++ s) = some s :=
  Text.stripPrefix?_eq_some_iff.2 rfl

/-- With the word `from` at its end a form is a declaration, whatever stands before its clause. -/
theorem declares_clause (h : form.HasFrom) (keyword : Text) :
    declares (importWord ++ ' ' :: (keyword ++ form.clause)) = true := by
  obtain ⟨front, hclause⟩ := exists_fromWord h
  have hword : ' ' :: (keyword ++ form.clause) = (' ' :: keyword ++ front) ++ fromWord := by
    simp [hclause]
  rw [declares, stripPrefix?_importWord, hword]
  exact leadsToSpecifier_fromWord _

theorem callsRequire_name (h : IsIdentifier name) :
    callsRequire (name ++ ([' ', '=', ' '] ++ (requireWord ++ ['(']))) = true := by
  obtain ⟨c, cs, rfl, hc, hcs⟩ := h
  have hname : name? ((c :: cs) ++ ([' ', '=', ' '] ++ (requireWord ++ ['('])))
      = some ([' ', '=', ' '] ++ (requireWord ++ ['('])) := by
    rw [List.cons_append, name?, if_pos hc, List.dropWhile_append_of_pos hcs]
    rfl
  rw [callsRequire, callHead?, requireHead?, hname]
  decide

theorem opensRequire_name (h : IsIdentifier name) : opensRequire (require name).head = true := by
  have hcalls := callsRequire_name h
  have hhead : importHead? (require name).head = some (require name).clause := by
    rw [importHead?, head, stripPrefix?_importWord, Option.bind_some, someBlanks?,
      if_pos (by decide)]
    -- the name begins with no blank
    obtain ⟨c, cs, rfl, hc, -⟩ := h
    have hblank : isBlank c = false := isBlank_of_isNameStart hc
    exact congrArg some (List.dropWhile_cons_of_neg (by simp [hblank]))
  rw [opensRequire, hhead, Option.any_some, Bool.or_eq_true_iff]
  exact Or.inr hcalls

end ImportForm

/-! ## The line in a source -/

namespace ImportLine

variable (i : ImportLine)

/-- The line as one that names a module. -/
def toSpecifierLine : SpecifierLine where
  clause := i.form.clause
  quote := i.quote
  specifier := i.specifier
  tail := i.form.tail
  clause_not_mem := ImportForm.clause_not_mem_stops i.isIdentifier
  tail_eq := i.form.tail_eq
  balanced := ImportForm.foldl_clause i.isIdentifier
  quoted := i.quoted
  ne_nil := i.ne_nil
  noQuote := i.noQuote
  plain := i.plain

theorem text_toSpecifierLine : i.toSpecifierLine.text = i.text := rfl

theorem code_toSpecifierLine : i.toSpecifierLine.code = i.code := rfl

/-- The line is one line of a source. -/
theorem text_is_line : (∀ c ∈ i.text, c ≠ '\n') ∧ i.text.getLast? ≠ some '\r' :=
  i.toSpecifierLine.text_is_line

/-- What stands before the specifier has the form of an import. -/
theorem opens_or_declares : (i.form.tail = [')'] ∧ opensRequire i.form.head = true)
    ∨ declares i.form.head = true := by
  rcases i.form.tail_cases with ⟨-, hfrom | heffect⟩ | ⟨htail, name, hform⟩
  · exact Or.inr (ImportForm.declares_clause hfrom [])
  · rw [heffect]
    exact Or.inr (by decide)
  · have hname : IsIdentifier name := i.isIdentifier name (by simp [hform, ImportForm.names])
    refine Or.inl ⟨htail, ?_⟩
    rw [hform]
    exact ImportForm.opensRequire_name hname

/-- A statement whose text begins with the line is an import. -/
theorem kind_ne_other {span : Span} (more more' : Text) (htext : span.text = i.text ++ more)
    (hcode : span.code = i.code ++ more') : span.kind ≠ .other := by
  rw [← text_toSpecifierLine] at htext
  rw [← code_toSpecifierLine] at hcode
  rw [i.toSpecifierLine.kind_append more more' htext hcode]
  show kindOfParts i.form.head i.specifier (i.form.tail ++ more) ≠ .other
  rw [kindOfParts, if_neg i.ne_nil]
  rcases i.opens_or_declares with ⟨htail, hopens⟩ | hdeclares
  · have hcloses : closesCall (i.form.tail ++ more) = true := by
      rw [htail]
      rfl
    rw [if_pos ⟨hopens, hcloses⟩]
    simp
  · rw [if_pos hdeclares]
    split <;> simp

/-- The spans of a source after the line: the line and those of the rest, if that begins a
statement; if not, the line with the first of them, and the others. -/
theorem split_after_line (rest : Text) :
    ∃ span : Span, span.kind ≠ .other
      ∧ ((BeginsStatement rest
          ∧ split (i.text ++ '\n' :: rest) = span :: (split rest).map Span.down)
        ∨ (¬ BeginsStatement rest ∧ ∃ first more, split rest = first :: more
          ∧ split (i.text ++ '\n' :: rest) = span :: more.map Span.down)) := by
  by_cases hbegins : BeginsStatement rest
  · refine ⟨_, ?_, Or.inl ⟨hbegins, i.toSpecifierLine.split_apart hbegins⟩⟩
    exact i.kind_ne_other [] [] (by simp [text_toSpecifierLine]) (by simp [code_toSpecifierLine])
  · obtain ⟨gap, first, more, hrest, hsplit⟩ := i.toSpecifierLine.split_joined hbegins
    refine ⟨_, ?_, Or.inr ⟨hbegins, first, more, hrest, hsplit⟩⟩
    apply i.kind_ne_other ('\n' :: (gap.reverse.map Cell.source ++ first.text))
      ('\n' :: (gap.reverse.map Cell.code ++ first.code))
    · show (gap ++ ⟨'\n', '\n'⟩ :: i.toSpecifierLine.cells.reverse).reverse.map Cell.source
        ++ first.text = _
      simp [SpecifierLine.map_source_cells, text_toSpecifierLine]
    · show (gap ++ ⟨'\n', '\n'⟩ :: i.toSpecifierLine.cells.reverse).reverse.map Cell.code
        ++ first.code = _
      simp [SpecifierLine.map_code_cells, code_toSpecifierLine]

end ImportLine

end TypeCoverage.Source
