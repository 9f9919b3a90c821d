import TypeCoverage.Proofs.Analysis.Places
import TypeCoverage.Proofs.Run.Decision
import TypeCoverage.Proofs.Text.Pieces
import TypeCoverage.Report

/-!
# The lines of the console form

The console form writes the text of a finding as it stands, so a finding has as many lines as its
text. The code that a finding of the lexical analyzer is about may go over several lines: where an
assertion has a line break behind `as`, and where a type expression has one in its type arguments
or in front of them.
-/

set_option autoImplicit false

namespace TypeCoverage

/-! ## Lines -/

namespace Text

variable {lines : List Text} {line : Text}

/-- The pieces of a text that was written line by line. -/
theorem pieces_flatMap_newline (lines : List Text) :
    pieces '\n' (lines.flatMap fun line => line ++ ['\n'])
      = lines.flatMap (pieces '\n') ++ [[]] := by
  induction lines with
  | nil => rfl
  | cons line lines ih =>
      rw [List.flatMap_cons, List.flatMap_cons, List.append_assoc, List.singleton_append,
        pieces_append_sep, ih, List.append_assoc]

theorem flatMap_pieces_of_not_mem (h : ∀ line ∈ lines, '\n' ∉ line) :
    lines.flatMap (pieces '\n') = lines := by
  induction lines with
  | nil => rfl
  | cons line lines ih =>
      rw [List.flatMap_cons, pieces_of_not_mem (h line (by simp)),
        ih fun l hl => h l (by simp [hl])]
      rfl

theorem length_le_flatMap_pieces (lines : List Text) :
    lines.length ≤ (lines.flatMap (pieces '\n')).length := by
  induction lines with
  | nil => exact Nat.le_refl _
  | cons line lines ih =>
      have hpos := List.length_pos_iff.2 (pieces_ne_nil '\n' line)
      rw [List.flatMap_cons, List.length_append, List.length_cons]
      omega

/-- Lines of which none gives more than one piece have no line break in them. -/
theorem not_mem_of_length_flatMap_pieces
    (h : (lines.flatMap (pieces '\n')).length = lines.length) : ∀ line ∈ lines, '\n' ∉ line := by
  induction lines with
  | nil => simp
  | cons line lines ih =>
      have hpos := List.length_pos_iff.2 (pieces_ne_nil '\n' line)
      have hle := length_le_flatMap_pieces lines
      rw [List.flatMap_cons, List.length_append, List.length_cons] at h
      have hone : (pieces '\n' line).length = 1 := by omega
      obtain ⟨p, hp⟩ := List.length_eq_one_iff.1 hone
      have hline : line = p := by
        rw [← join_pieces '\n' line, hp]
        rfl
      have hmem : line ∈ pieces '\n' line := by rw [hp, hline, List.mem_singleton]
      rw [List.forall_mem_cons]
      exact ⟨not_mem_of_mem_pieces hmem, ih (by omega)⟩

theorem newline_not_mem_ofNat (n : Nat) : '\n' ∉ ofNat n := by
  intro h
  have hdigit := Nat.isDigit_of_mem_toDigits (by decide) (by decide) h
  exact absurd hdigit (by decide)

end Text

theorem Binary64.newline_not_mem_fixedTwo (x : Binary64) : '\n' ∉ x.fixedTwo := by
  cases x with
  | nan => decide
  | infinite negative => cases negative <;> decide
  | finite negative m e =>
      have hsign : '\n' ∉ signText negative := by cases negative <;> decide
      simp [fixedTwo, hsign, Text.newline_not_mem_ofNat]

/-! ## Line breaks in findings -/

namespace Analysis

variable {type text before ahead gap : Text} {kind : FindingKind} {s : Statement} {f : Finding}

/-- Whether a type expression has a line break in its type arguments or in front of them. -/
def BreaksInArguments (type : Text) : Prop :=
  ∃ name gap inner suffix, type = name ++ (gap ++ '<' :: inner) ++ suffix
    ∧ dottedName? name = some name ∧ (∀ c ∈ gap, isBlank c = true) ∧ '\n' ∈ gap ++ '<' :: inner

/-- The findings whose text has a line break in it. -/
inductive Breaks : FindingKind → Text → Prop
  /-- A type that holds the word `any`, broken in its type arguments or in front of them. -/
  | annotated {type : Text} (h : BreaksInArguments type) : Breaks .containsAny type
  /-- An assertion, broken behind `as`, in its type arguments or in front of them. -/
  | asserted {gap type : Text} (hgap : ∀ c ∈ gap, isBlank c = true)
      (h : '\n' ∈ gap ∨ BreaksInArguments type) :
      Breaks (if type = anyWord then .any else .unsafeAs) (asWord ++ (gap ++ type))

/-- A dotted name is one by itself. -/
theorem dottedName?_self {name : Text} (h : dottedName? text = some name) :
    dottedName? name = some name := by
  cases text with
  | nil => cases h
  | cons c cs =>
      rw [dottedName?] at h
      split at h
      · next hc =>
          obtain rfl := Option.some.inj h
          rw [dottedName?, if_pos hc, List.takeWhile_idem]
      · cases h

theorem newline_not_mem_dottedName? {name : Text} (h : dottedName? name = some name) :
    '\n' ∉ name := by
  intro hmem
  cases name with
  | nil => cases hmem
  | cons c cs =>
      rw [dottedName?] at h
      split at h
      · next hc =>
          have hcs : cs.takeWhile isDottedChar = cs := (List.cons.inj (Option.some.inj h)).2
          rcases List.mem_cons.1 hmem with rfl | hmem
          · exact absurd hc (by decide)
          · rw [← hcs] at hmem
            exact absurd (List.mem_takeWhile_imp hmem) (by decide)
      · cases h

theorem newline_not_mem_arraySuffix (s : Text) : '\n' ∉ arraySuffix s := by
  induction s using arraySuffix.induct with
  | case1 cs ih =>
      rw [arraySuffix]
      simp [ih]
  | case2 s hs =>
      rw [arraySuffix]
      · simp
      · exact hs

/-- Type arguments have an angle behind blanks, unless there are none. -/
theorem typeArguments_eq (s : Text) : typeArguments s = []
    ∨ ∃ gap inner, typeArguments s = gap ++ '<' :: inner ∧ ∀ c ∈ gap, isBlank c = true := by
  unfold typeArguments
  dsimp only
  split
  · split
    · exact Or.inl rfl
    · exact Or.inr ⟨_, _, rfl, fun c hc => isBlank_of_mem_blanks hc⟩
  · exact Or.inl rfl

theorem breaksInArguments_of_newline_mem (h : typeExpression? text = some type)
    (hmem : '\n' ∈ type) : BreaksInArguments type := by
  unfold typeExpression? at h
  obtain ⟨name, hname, h⟩ := Option.bind_eq_some_iff.1 h
  obtain rfl := Option.some.inj h
  have hself := dottedName?_self hname
  rw [List.mem_append, List.mem_append] at hmem
  rcases hmem with (hmem | hmem) | hmem
  · exact absurd hmem (newline_not_mem_dottedName? hself)
  · rcases typeArguments_eq (text.drop name.length) with hnone | ⟨gap, inner, heq, hgap⟩
    · rw [hnone] at hmem
      cases hmem
    · rw [heq] at hmem ⊢
      exact ⟨name, gap, inner, _, rfl, hself, hgap, hmem⟩
  · exact absurd hmem (newline_not_mem_arraySuffix _)

theorem BreaksInArguments.newline_mem (h : BreaksInArguments type) : '\n' ∈ type := by
  obtain ⟨name, gap, inner, suffix, rfl, -, -, hmem⟩ := h
  exact List.mem_append_left _ (List.mem_append_right _ hmem)

theorem Breaks.newline_mem (h : Breaks kind text) : '\n' ∈ text := by
  cases h with
  | annotated h => exact h.newline_mem
  | asserted hgap h =>
      exact List.mem_append_right _ (List.mem_append.2 (h.imp_right BreaksInArguments.newline_mem))

/-- What a finding names has a line break in it exactly if it is one of those that have. -/
theorem Names.newline_mem_iff (h : Names before ahead kind text) :
    '\n' ∈ text ↔ Breaks kind text := by
  refine ⟨fun hmem => ?_, Breaks.newline_mem⟩
  cases h with
  | annotated front hgap htype hany =>
      have hne : text ≠ anyWord := by
        rintro rfl
        exact absurd hmem (by decide)
      rw [if_neg hne]
      exact .annotated (breaksInArguments_of_newline_mem htype hmem)
  | @asserted _ gap ahead type hword hgap hne htype hconst =>
      refine .asserted hgap ?_
      rcases List.mem_append.1 hmem with hmem | hmem
      · exact absurd hmem (by decide)
      · exact (List.mem_append.1 hmem).imp_right (breaksInArguments_of_newline_mem htype)
  | @angled _ name suffix rest hname hsuffix =>
      have hself := newline_not_mem_dottedName? (dottedName?_self hname)
      have harray := newline_not_mem_arraySuffix (suffix ++ '>' :: rest)
      rw [hsuffix] at harray
      simp [hself, harray] at hmem
  | nonNull front hends hrest => exact absurd hmem (by decide)

end Analysis

/-! ## The report -/

namespace Report

/-- Where a finding is, for people. -/
def placeText (f : FileFinding) : Text :=
  f.file ++ ':' :: Text.ofNat (f.finding.line + 1) ++ ':' :: Text.ofNat (f.finding.character + 1)
    ++ [':', ' ']

def label (f : FileFinding) : Text := f.finding.text?.getD f.finding.kind.name

/-- The coverage by file, if it is there. -/
def fileEntries (r : RunResult) : List (Text × Coverage) :=
  match r.fileCounts? with
  | some counts => counts.entries
  | none => []

/-- Whether a text has a line for each finding of a result, which begins with its place, then a line
for each entry of the coverage by file, and then the summary, and nothing else. -/
def LinePerFinding (r : RunResult) (output : Text) : Prop :=
  ∃ details counts, Text.pieces '\n' output = details ++ counts ++ [summaryLine r.toCoverage, []]
    ∧ List.Forall₂ (fun f line => placeText f <+: line) r.findings details
    ∧ List.Forall₂ (fun e line => e.1 ++ [':', ' '] <+: line) (fileEntries r) counts

variable {r : RunResult} {f : FileFinding} {schedule : Schedule}

theorem findingLine_eq (f : FileFinding) : findingLine f = placeText f ++ label f := rfl

theorem consoleLines_eq (r : RunResult) : consoleLines true r
    = r.findings.map findingLine ++ (fileEntries r).map fileLine ++ [summaryLine r.toCoverage] := by
  unfold consoleLines fileEntries
  cases r.fileCounts? <;> rfl

theorem newline_not_mem_percentText (c : Coverage) : '\n' ∉ c.percentText := by
  simp [Coverage.percentText, Binary64.newline_not_mem_fixedTwo]

theorem newline_not_mem_summaryLine (c : Coverage) : '\n' ∉ summaryLine c := by
  simp [summaryLine, newline_not_mem_percentText, Text.newline_not_mem_ofNat]

theorem newline_mem_fileLine_iff (e : Text × Coverage) : '\n' ∈ fileLine e ↔ '\n' ∈ e.1 := by
  simp [fileLine, newline_not_mem_percentText, Text.newline_not_mem_ofNat]

theorem newline_mem_findingLine_iff (f : FileFinding) :
    '\n' ∈ findingLine f ↔ '\n' ∈ f.file ∨ '\n' ∈ label f := by
  simp [findingLine_eq, placeText, Text.newline_not_mem_ofNat]

/-- What is written about a finding of a visit that analyzes its file is what the finding names. -/
theorem names_of_computed {settings : Settings} {d : Disk} {files : List Text} {v : Visit}
    (hv : v ∈ (Run.start Analysis.lexical settings d files schedule).visits)
    (horigin : v.origin = .computed) (hf : f ∈ v.findings settings) :
    ∃ before ahead, Analysis.Names before ahead f.finding.kind (label f) := by
  rcases Run.start_cases Analysis.lexical settings d files schedule with
    ⟨hnone, -, -⟩ | ⟨store, sources, hvisiting⟩
  · rw [hnone] at hv
    cases hv
  · have hrecord := hvisiting.record_of_computed hv horigin
    obtain ⟨g, hg, rfl⟩ := List.mem_map.1 hf
    rcases List.mem_append.1 hg with hg | hg
    · rw [hrecord] at hg
      obtain ⟨s, -, hsite⟩ := Analyzer.exists_of_mem_findings (List.mem_filter.1 hg).1
      obtain ⟨-, before, ahead, text, -, hplaced, hnames⟩ :=
        Analysis.namesIn_of_mem_lexicalSites hsite
      have htext : g.text? = some text := congrArg Finding.text? hplaced
      refine ⟨before, ahead, ?_⟩
      rwa [label, htext]
    · -- there are no diagnostics to report
      have hnone : v.source.semanticErrors Analysis.lexical = [] := rfl
      have herrors : v.semanticErrors settings = [] := by
        rw [Visit.semanticErrors, hrecord, Visit.compute, hnone]
        cases settings.reportSemanticErrors <;> rfl
      rw [herrors] at hg
      cases hg

/-- The coverage by file is that of files which were visited. -/
theorem exists_visit_of_mem_fileEntries {settings : Settings} {visits : List Visit}
    {e : Text × Coverage} (he : e ∈ fileEntries (RunResult.ofVisits settings visits)) :
    ∃ v ∈ visits, e.1 = v.source.path := by
  unfold fileEntries RunResult.ofVisits at he
  split at he
  · next counts hcounts =>
      dsimp only at hcounts
      split at hcounts
      · obtain rfl := Option.some.inj hcounts
        obtain ⟨v, hv, rfl⟩ := List.mem_map.1 (OrderedMap.mem_of_mem_ofList he)
        exact ⟨v, hv, rfl⟩
      · cases hcounts
  · cases he

/-- Where no path has a line break in it, there is a line for each finding exactly if no finding has
one. -/
theorem linePerFinding_console_iff (hfindings : ∀ f ∈ r.findings, '\n' ∉ f.file)
    (hentries : ∀ e ∈ fileEntries r, '\n' ∉ e.1) :
    LinePerFinding r (console true r) ↔ ∀ f ∈ r.findings, '\n' ∉ label f := by
  have hpieces : Text.pieces '\n' (console true r)
      = (consoleLines true r).flatMap (Text.pieces '\n') ++ [[]] :=
    Text.pieces_flatMap_newline _
  constructor
  · rintro ⟨details, counts, houtput, hdetails, hcounts⟩ f hf hmem
    have hlength : ((consoleLines true r).flatMap (Text.pieces '\n')).length
        = (consoleLines true r).length := by
      have hsame := congrArg List.length (hpieces.symm.trans houtput)
      rw [consoleLines_eq] at hsame ⊢
      simp only [List.length_append, List.length_map, List.length_cons, List.length_nil] at hsame ⊢
      have hd := hdetails.length_eq
      have hc := hcounts.length_eq
      omega
    have hline := Text.not_mem_of_length_flatMap_pieces hlength (findingLine f)
    rw [consoleLines_eq] at hline
    exact hline (by simp [List.mem_map_of_mem hf]) ((newline_mem_findingLine_iff f).2 (Or.inr hmem))
  · intro hlabels
    have hlines : ∀ line ∈ consoleLines true r, '\n' ∉ line := by
      intro line hline
      rw [consoleLines_eq, List.mem_append, List.mem_append, List.mem_singleton] at hline
      rcases hline with (hline | hline) | rfl
      · obtain ⟨f, hf, rfl⟩ := List.mem_map.1 hline
        rw [newline_mem_findingLine_iff, not_or]
        exact ⟨hfindings f hf, hlabels f hf⟩
      · obtain ⟨e, he, rfl⟩ := List.mem_map.1 hline
        rw [newline_mem_fileLine_iff]
        exact hentries e he
      · exact newline_not_mem_summaryLine _
    refine ⟨r.findings.map findingLine, (fileEntries r).map fileLine, ?_, ?_, ?_⟩
    · rw [hpieces, Text.flatMap_pieces_of_not_mem hlines, consoleLines_eq, List.append_assoc]
      rfl
    · exact List.forall₂_map_right_iff.2 (List.forall₂_same.2 fun f _ => ⟨label f, rfl⟩)
    · refine List.forall₂_map_right_iff.2 (List.forall₂_same.2 fun e _ => ?_)
      exact ⟨Text.ofNat e.2.correct ++ '/' :: Text.ofNat e.2.total ++ ' ' :: e.2.percentText,
        by simp [fileLine]⟩

/-- **Lines of the console form.** With details, and where no path has a line break in it, the
console form of a run has a line for each finding, one for each entry of the coverage by file, and
the summary, exactly if what is written about the findings has no line break in it. That of a
finding that the run computed has one exactly if an assertion is broken behind `as`, or a type in
its type arguments or in front of them. -/
theorem linePerFinding_iff {settings : Settings} {d : Disk} {files : List Text} {r : RunResult}
    (hpaths : ∀ path ∈ files, '\n' ∉ path) (hformat : settings.format = .console)
    (hdetail : settings.detail = true)
    (hrun : (Run.start Analysis.lexical settings d files schedule).outcome = .ok r) :
    (LinePerFinding r (render settings r) ↔ ∀ f ∈ r.findings, '\n' ∉ label f)
      ∧ ∀ v ∈ (Run.start Analysis.lexical settings d files schedule).visits, v.origin = .computed →
        ∀ f ∈ v.findings settings,
          ('\n' ∈ label f ↔ Analysis.Breaks f.finding.kind (label f)) := by
  constructor
  · obtain ⟨store, sources, hvisiting⟩ := Run.visiting_of_ok hrun
    have hvisited : ∀ v ∈ (Run.start Analysis.lexical settings d files schedule).visits,
        '\n' ∉ v.source.path := by
      intro v hv
      obtain ⟨hread, -⟩ := SourceFile.loadAll_eq_ok_iff.1 hvisiting.reads
      have hsource := (hvisiting.exists_source_of_mem_visits hv).1
      exact hpaths _ (hread ▸ List.mem_map_of_mem hsource)
    obtain rfl := hvisiting.result_eq hrun
    have hrender : ∀ r, render settings r = console true r := by
      intro r
      rw [render, hformat, hdetail]
    rw [hrender]
    apply linePerFinding_console_iff
    · intro f hf
      obtain ⟨v, hv, hf⟩ := List.mem_flatMap.1 hf
      obtain ⟨g, -, rfl⟩ := List.mem_map.1 hf
      exact hvisited v hv
    · intro e he
      obtain ⟨v, hv, heq⟩ := exists_visit_of_mem_fileEntries he
      exact heq ▸ hvisited v hv
  · intro v hv horigin f hf
    obtain ⟨before, ahead, hnames⟩ := names_of_computed hv horigin hf
    exact hnames.newline_mem_iff

/-- Settings under which assertions are looked at and all is reported in the console form. -/
def detailed : Settings := { strict := true, detail := true, fileCounts := true }

/-- A run over two files with a finding each. -/
def plainRun : Run :=
  Run.start Analysis.lexical detailed
    (projectDisk "let a = b as Foo;\nlet c = <any>a;\n" "let b: Promise<any>;\n") [aFile, bFile]

theorem linePerFinding_iff_plain : ∃ r, plainRun.outcome = .ok r ∧ r.findings.length = 3
    ∧ LinePerFinding r (render detailed r) := by
  have hcomputed : plainRun.outcome.toOption.map (fun r => (r.findings.length,
      r.findings.all fun f => !(label f).contains '\n')) = some (3, true) := by decide +kernel
  obtain ⟨r, hrun, hfindings⟩ := Option.map_eq_some_iff.1 hcomputed
  obtain ⟨hcount, hlabels⟩ := Prod.mk.inj hfindings
  have hrun := toOption_eq_some_iff.1 hrun
  refine ⟨r, hrun, hcount, (linePerFinding_iff (by decide) rfl rfl hrun).1.2 fun f hf hmem => ?_⟩
  have hlabel := List.all_eq_true.1 hlabels f hf
  rw [List.contains_iff_mem.2 hmem] at hlabel
  cases hlabel

/-- A run over a file with an assertion over two lines. -/
def brokenRun : Run :=
  Run.start Analysis.lexical detailed (projectDisk "let a = b as\n  Foo;" "") [aFile]

/-- The one finding of the file has two lines. -/
theorem assertion_breaks_line : (∀ path ∈ [aFile], '\n' ∉ path) ∧ ∃ r, brokenRun.outcome = .ok r
    ∧ render detailed r
      = "a.ts:1:11: as\n  Foo\na.ts: 0/1 0.00%\n0 / 1 0.00%\n".toList
    ∧ r.findings.length = 1 ∧ ¬ LinePerFinding r (render detailed r) := by
  have hcomputed : brokenRun.outcome.toOption.map (fun r => (render detailed r,
      r.findings.map fun f => (f.file, label f), (fileEntries r).map Prod.fst))
      = some ("a.ts:1:11: as\n  Foo\na.ts: 0/1 0.00%\n0 / 1 0.00%\n".toList,
        [(aFile, "as\n  Foo".toList)], [aFile]) := by
    decide +kernel
  obtain ⟨r, hrun, hreport⟩ := Option.map_eq_some_iff.1 hcomputed
  obtain ⟨hrender, hreport⟩ := Prod.mk.inj hreport
  obtain ⟨hfindings, hentries⟩ := Prod.mk.inj hreport
  obtain ⟨f, hf, hfile⟩ := List.map_eq_singleton_iff.1 hfindings
  obtain ⟨hfile, hlabel⟩ := Prod.mk.inj hfile
  refine ⟨by decide, r, toOption_eq_some_iff.1 hrun, hrender, by simp [hf], fun hlines => ?_⟩
  have hnone : ∀ f ∈ r.findings, '\n' ∉ label f := by
    refine (linePerFinding_console_iff ?_ fun e he => ?_).1 hlines
    · rw [hf]
      simp [hfile, aFile]
    · have hmem : e.1 ∈ (fileEntries r).map Prod.fst := List.mem_map_of_mem he
      rw [hentries, List.mem_singleton] at hmem
      rw [hmem]
      decide
  refine hnone f (by simp [hf]) ?_
  rw [hlabel]
  decide

end Report

end TypeCoverage
