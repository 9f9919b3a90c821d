import TypeCoverage.Imports.Resolver
import TypeCoverage.Proofs.Source.ImportLine

/-!
# Blocks of imports

Imports that are written one on a line are read back as they were written, in order: each is a
statement on its own line, of the kind of its form and with its specifier. A line without a
semicolon ends at its line break because the next one begins with the word `import`. The specifier
may hold what opens a comment, a semicolon, a bracket or a backtick, and a name may be a word of the
forms, such as `from` or `type`.
-/

set_option autoImplicit false

namespace TypeCoverage.Source

variable {rest : Text}

/-! ## Entries -/

def ImportForm.kind (specifier : Text) : ImportForm → StatementKind
  | .require _ => .importEquals specifier
  | _ => .importDeclaration specifier

/-- An import of a block: one on a line, which may have the word `type` before its clause and a
semicolon at its end. -/
structure ImportEntry where
  line : ImportLine
  typed : Bool
  closed : Bool
  hasFrom : typed = true → line.form.HasFrom

namespace ImportEntry

variable (e : ImportEntry)

def keyword : Text := if e.typed then typeWord ++ [' '] else []

def close : Text := if e.closed then [';'] else []

theorem keyword_eq : e.keyword = [] ∨ e.keyword = typeWord ++ [' '] := by
  rw [keyword]
  split
  · exact Or.inr rfl
  · exact Or.inl rfl

theorem close_eq : e.close = [] ∨ e.close = [';'] := by
  rw [close]
  split
  · exact Or.inr rfl
  · exact Or.inl rfl

/-- Before the word `from` is no place for the word `type`. -/
theorem keyword_of_not_hasFrom (h : ¬ e.line.form.HasFrom) : e.keyword = [] :=
  if_neg fun htyped => h (e.hasFrom htyped)

/-- The line of the entry without its semicolon. -/
def toSpecifierLine : SpecifierLine where
  clause := e.keyword ++ e.line.form.clause
  quote := e.line.quote
  specifier := e.line.specifier
  tail := e.line.form.tail
  clause_not_mem := by
    have hword : ∀ c ∈ typeWord ++ [' '], c ∉ stops := by simp [typeWord, stops]
    intro c hc
    rcases List.mem_append.1 hc with hc | hc
    · rcases e.keyword_eq with hkeyword | hkeyword
      · rw [hkeyword] at hc
        cases hc
      · rw [hkeyword] at hc
        exact hword c hc
    · exact ImportForm.clause_not_mem_stops e.line.isIdentifier c hc
  tail_eq := e.line.form.tail_eq
  balanced := by
    have hkeyword : e.keyword.foldl depthAfter 0 = 0 := by
      rcases e.keyword_eq with hkeyword | hkeyword
      · rw [hkeyword]
        rfl
      · rw [hkeyword]
        decide
    rw [List.append_assoc, List.foldl_append, hkeyword]
    exact ImportForm.foldl_clause e.line.isIdentifier
  quoted := e.line.quoted
  ne_nil := e.line.ne_nil
  noQuote := e.line.noQuote
  plain := e.line.plain

def text : Text := e.toSpecifierLine.text ++ e.close

def code : Text := e.toSpecifierLine.code ++ e.close

def span (n : Nat) : Span := ⟨e.text, e.code, ⟨n, 0⟩⟩

def statement (n : Nat) : Statement :=
  ⟨e.line.form.kind e.line.specifier, e.text, e.code, ⟨n, 0⟩⟩

end ImportEntry

/-! ## Kinds -/

namespace ImportForm

variable {form : ImportForm} {specifier : Text}

theorem specifier?_kind (form : ImportForm) (specifier : Text) :
    (form.kind specifier).specifier? = some specifier := by
  cases form <;> rfl

theorem kind_of_tail_eq_nil (h : form.tail = []) :
    form.kind specifier = .importDeclaration specifier := by
  cases form with
  | require name => cases h
  | default name => rfl
  | named names => rfl
  | all name => rfl
  | effect => rfl

end ImportForm

namespace ImportEntry

variable (e : ImportEntry)

/-- An entry that calls nothing declares its specifier, also after the word `type`. -/
theorem declares_head (h : e.line.form.HasFrom ∨ e.line.form = .effect) :
    declares e.toSpecifierLine.head = true := by
  show declares (importWord ++ ' ' :: (e.keyword ++ e.line.form.clause)) = true
  rcases h with hfrom | heffect
  · exact ImportForm.declares_clause hfrom e.keyword
  · have hkeyword : e.keyword = [] :=
      e.keyword_of_not_hasFrom (by simp [heffect, ImportForm.HasFrom])
    rw [hkeyword, heffect]
    decide

theorem opensRequire_head {name : Text} (hform : e.line.form = .require name) :
    opensRequire e.toSpecifierLine.head = true := by
  have hname : IsIdentifier name := e.line.isIdentifier name (by simp [hform, ImportForm.names])
  have hkeyword : e.keyword = [] := e.keyword_of_not_hasFrom (by simp [hform, ImportForm.HasFrom])
  show opensRequire (importWord ++ ' ' :: (e.keyword ++ e.line.form.clause)) = true
  rw [hkeyword, hform]
  exact ImportForm.opensRequire_name hname

theorem kind_span (n : Nat) : (e.span n).kind = e.line.form.kind e.line.specifier := by
  have htext : (e.span n).text = e.toSpecifierLine.text ++ e.close := rfl
  have hcode : (e.span n).code = e.toSpecifierLine.code ++ e.close := rfl
  rw [e.toSpecifierLine.kind_append e.close e.close htext hcode]
  show kindOfParts e.toSpecifierLine.head e.line.specifier (e.line.form.tail ++ e.close) = _
  rw [kindOfParts, if_neg e.line.ne_nil]
  rcases e.line.form.tail_cases with ⟨htail, hdeclares⟩ | ⟨htail, name, hform⟩
  · have hcloses : closesCall (e.line.form.tail ++ e.close) = false := by
      rw [htail]
      rcases e.close_eq with hclose | hclose
      · rw [hclose]
        rfl
      · rw [hclose]
        rfl
    rw [if_neg (by simp [hcloses]), if_pos (e.declares_head hdeclares),
      ImportForm.kind_of_tail_eq_nil htail]
  · have hcloses : closesCall (e.line.form.tail ++ e.close) = true := by
      rw [htail]
      rfl
    rw [if_pos ⟨e.opensRequire_head hform, hcloses⟩, hform]
    rfl

/-! ## An entry and what follows -/

/-- A source that begins with the word `import` begins a statement. -/
theorem beginsStatement_append (rest : Text) : BeginsStatement (e.text ++ rest) := by
  obtain ⟨more, htext⟩ : ∃ more, e.text ++ rest = (importWord ++ [' ']) ++ more := ⟨_, rfl⟩
  have hword : ∀ c ∈ importWord ++ [' '], c ≠ '/' ∧ isQuote c = false := by
    simp [importWord, isQuote]
  have hmask : mask ((importWord ++ [' ']) ++ more) = (importWord ++ [' ']) ++ mask more :=
    maskFrom_code_append hword
  have hcells : (cells ((importWord ++ [' ']) ++ more)).map Cell.code
      = (importWord ++ [' ']) ++ mask more := by
    rw [cells, map_code_zipWith (length_mask _).symm, hmask]
  have hleading : leadingWord (cells (e.text ++ rest)) = importWord := by
    rw [htext, leadingWord_eq, hcells]
    rfl
  exact Or.inr (by rw [hleading]; decide)

theorem split_alone : split e.text = [e.span 0] := by
  rw [span, text, code]
  rcases e.close_eq with hclose | hclose
  · rw [hclose, List.append_nil, List.append_nil]
    exact e.toSpecifierLine.split_alone
  · rw [hclose]
    exact e.toSpecifierLine.split_closed []

/-- An entry ends before the next one, and before the end of the source. -/
theorem split_followed (hbegins : BeginsStatement rest) :
    split (e.text ++ '\n' :: rest) = e.span 0 :: (split rest).map Span.down := by
  rw [span, text, code]
  rcases e.close_eq with hclose | hclose
  · rw [hclose, List.append_nil, List.append_nil]
    exact e.toSpecifierLine.split_apart hbegins
  · rw [hclose, List.append_assoc]
    exact e.toSpecifierLine.split_closed_apart rest

end ImportEntry

/-! ## Blocks -/

/-- The source of a block: its entries one on a line, where the last line may have a line break as
well. -/
def importBlock (entries : List ImportEntry) (ended : Bool) : Text :=
  Text.join ['\n'] (entries.map ImportEntry.text) ++ if ended then ['\n'] else []

theorem importBlock_singleton (e : ImportEntry) (ended : Bool) :
    importBlock [e] ended = e.text ++ if ended then ['\n'] else [] := rfl

theorem importBlock_cons_cons (e f : ImportEntry) (entries : List ImportEntry) (ended : Bool) :
    importBlock (e :: f :: entries) ended = e.text ++ '\n' :: importBlock (f :: entries) ended := by
  simp [importBlock, Text.join]

theorem beginsStatement_importBlock (e : ImportEntry) (entries : List ImportEntry) (ended : Bool) :
    BeginsStatement (importBlock (e :: entries) ended) := by
  cases entries with
  | nil => exact e.beginsStatement_append _
  | cons f entries =>
      rw [importBlock_cons_cons]
      exact e.beginsStatement_append _

theorem map_down_span (entries : List ImportEntry) :
    (entries.zipIdx.map fun p => p.1.span p.2).map Span.down
      = (entries.zipIdx 1).map fun p => p.1.span p.2 := by
  rw [List.zipIdx_succ, List.map_map, List.map_map]
  rfl

/-- The block is cut into its lines. -/
theorem split_importBlock (entries : List ImportEntry) (ended : Bool) :
    split (importBlock entries ended) = entries.zipIdx.map fun p => p.1.span p.2 := by
  induction entries with
  | nil => cases ended <;> rfl
  | cons e entries ih =>
      cases entries with
      | nil =>
          rw [importBlock_singleton]
          cases ended with
          | false => exact (congrArg split (List.append_nil _)).trans e.split_alone
          | true => exact e.split_followed (by decide)
      | cons f entries =>
          have hbegins := beginsStatement_importBlock f entries ended
          rw [importBlock_cons_cons, e.split_followed hbegins, ih, map_down_span]
          rfl

/-- **Blocks of imports.** A block has a statement for each of its entries, in order: on the line of
the entry, with its kind and its specifier. Its dependencies are one for each entry with a local
specifier. -/
theorem parse_importBlock (entries : List ImportEntry) (ended : Bool) :
    (SourceUnit.parse (importBlock entries ended)).statements
        = entries.zipIdx.map (fun p => p.1.statement p.2)
      ∧ ∀ (r : Resolver) (file : Text),
        r.edges [(file, SourceUnit.parse (importBlock entries ended))]
          = (entries.filter fun e => Resolver.isLocal e.line.specifier).map
            fun e => ⟨file, r.resolve file e.line.specifier⟩ := by
  have hstatements : (SourceUnit.parse (importBlock entries ended)).statements
      = entries.zipIdx.map fun p => p.1.statement p.2 := by
    have hspan : ∀ p : ImportEntry × Nat,
        Statement.ofSpan (p.1.span p.2) = p.1.statement p.2 := by
      intro p
      rw [Statement.ofSpan, p.1.kind_span]
      rfl
    show (split (importBlock entries ended)).map Statement.ofSpan = _
    rw [split_importBlock, List.map_map]
    exact List.map_congr_left fun p _ => hspan p
  refine ⟨hstatements, fun r file => ?_⟩
  have hspecifiers : (SourceUnit.parse (importBlock entries ended)).statements.filterMap
      Statement.specifier? = entries.map fun e => e.line.specifier := by
    have hspecifier : ∀ p : ImportEntry × Nat,
        (p.1.statement p.2).specifier? = some p.1.line.specifier :=
      fun p => ImportForm.specifier?_kind p.1.line.form p.1.line.specifier
    calc (SourceUnit.parse (importBlock entries ended)).statements.filterMap Statement.specifier?
        = entries.zipIdx.filterMap fun p => (p.1.statement p.2).specifier? := by
          rw [hstatements, List.filterMap_map]
          rfl
      _ = entries.zipIdx.map fun p => p.1.line.specifier := by
          rw [← List.filterMap_eq_map]
          exact List.filterMap_congr fun p _ => hspecifier p
      _ = (entries.zipIdx.map Prod.fst).map fun e => e.line.specifier := by rw [List.map_map]; rfl
      _ = entries.map fun e => e.line.specifier := by rw [List.zipIdx_map_fst]
  rw [Resolver.edges, List.flatMap_singleton, Resolver.edgesOf, hspecifiers, List.filterMap_map,
    ← List.filterMap_eq_map, List.filterMap_filter]
  rfl

/-- Words of the forms as names, and what opens a comment in a specifier. -/
example : let source := "import type from from './a//b;'\nimport type = require(\x22./c\x22);\n"
    (SourceUnit.parse source.toList).statements.map Statement.kind
      = [.importDeclaration "./a//b;".toList, .importEquals "./c".toList] := by
  decide +kernel

/-- A package and a file of data give no dependency. -/
example : let source := "import a from './a'\nimport b from 'b';\nimport './c.json'\nimport '../d'"
    let file := "src/m.ts".toList
    (Resolver.mk ["src/a.ts".toList] none).edges [(file, SourceUnit.parse source.toList)]
      = [⟨file, "src/a.ts".toList⟩, ⟨file, "d".toList⟩] := by
  decide +kernel

end TypeCoverage.Source
