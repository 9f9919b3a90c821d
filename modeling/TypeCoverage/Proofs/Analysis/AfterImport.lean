import TypeCoverage.Analysis.Lexical
import TypeCoverage.Proofs.Source.Ignore
import TypeCoverage.Proofs.Source.ImportLine

/-!
# Code after an import

An import on one line, with no semicolon at its end, should leave the tally of the code after it
alone, one line further down. It does so unless the code begins with a word that is not known to
begin a statement: then the import takes in the first statement of the code, and the sites of that
statement are lost. A directive in the specifier is the other exception.
-/

set_option autoImplicit false

namespace TypeCoverage

open Source (ImportLine BeginsStatement leadingWord)

/-! ## One line further down -/

def Finding.down (f : Finding) : Finding := { f with line := f.line + 1 }

def Site.down : Site → Site
  | .sound => .sound
  | .unsound f => .unsound f.down

def Tally.down (t : Tally) : Tally := { t with findings := t.findings.map Finding.down }

def Statement.down (s : Statement) : Statement := { s with start := s.start.down }

namespace Analysis

variable {s : Statement}

theorem findingOf_down (s : Statement) (offset : Nat) (m : Match) (kind : FindingKind) :
    findingOf s.down offset m kind = (findingOf s offset m kind).down := by
  have hplace : s.down.placeOf (offset + m.lead) = (s.placeOf (offset + m.lead)).down :=
    Position.after_down _ _
  rw [findingOf, findingOf, hplace]
  rfl

theorem annotationSites_down (s : Statement) :
    annotationSites s.down = (annotationSites s).map Site.down := by
  have hsite : ∀ m : Nat × Match, annotationSite? s.down m.1 m.2
      = (annotationSite? s m.1 m.2).map Site.down := by
    intro m
    unfold annotationSite?
    rw [findingOf_down, findingOf_down]
    split_ifs <;> rfl
  have hcode : s.down.code = s.code := rfl
  rw [annotationSites, annotationSites, hcode, List.map_filterMap]
  exact List.filterMap_congr fun m _ => hsite m

theorem assertionSites_down (s : Statement) :
    assertionSites s.down = (assertionSites s).map Site.down := by
  have has : ∀ m : Nat × Match, asSite? s.down m.1 m.2 = (asSite? s m.1 m.2).map Site.down := by
    intro m
    unfold asSite?
    rw [findingOf_down]
    split_ifs <;> rfl
  have hcode : s.down.code = s.code := rfl
  rw [assertionSites, assertionSites, hcode, List.map_append, List.map_append, List.map_filterMap,
    List.map_map, List.map_map, List.filterMap_congr fun m _ => has m]
  refine congr_arg₂ _ (congr_arg₂ _ rfl ?_) ?_
  · exact List.map_congr_left fun m _ => findingOf_down s m.1 m.2 _
  · exact List.map_congr_left fun m _ => findingOf_down s m.1 m.2 _

theorem lexicalSites_down (strict : Bool) (s : Statement) :
    lexicalSites strict s.down = (lexicalSites strict s).map Site.down := by
  unfold lexicalSites
  rw [annotationSites_down, assertionSites_down]
  show (if s.kind = .other then _ ++ (if (strict && !isReExport s.code) = true then _ else _)
    else _) = _
  split_ifs <;> simp

end Analysis

namespace Tally

variable {ignored ignored' : List Nat} {sites : List Site} {carried : Bool} {f : Finding}

/-- Sites that are kept as the same findings, one line further down, have the same tally. -/
theorem ofSites_map_down (hkept : ∀ s ∈ sites, kept? ignored' s.down
      = (kept? ignored s).map Finding.down) :
    ofSites ignored' (sites.map Site.down) = (ofSites ignored sites).down := by
  have hcorrect : (sites.map Site.down).countP (fun s => (kept? ignored' s).isNone)
      = sites.countP fun s => (kept? ignored s).isNone := by
    rw [List.countP_map]
    refine List.countP_congr fun s hs => ?_
    show (kept? ignored' s.down).isNone = true ↔ _
    rw [hkept s hs, Option.isNone_map]
  have hfindings : (sites.map Site.down).filterMap (kept? ignored')
      = (sites.filterMap (kept? ignored)).map Finding.down := by
    rw [List.filterMap_map, List.map_filterMap]
    exact List.filterMap_congr hkept
  unfold ofSites down
  rw [hcorrect, hfindings, List.length_map]

/-- The tally of sites one line further down, where `carried` says that the line before them
excludes their first line. -/
theorem ofSites_map_down_iff
    (hignored : ∀ n, n + 1 ∈ ignored' ↔ (carried = true ∧ n = 0) ∨ n ∈ ignored) :
    ofSites ignored' (sites.map Site.down) = (ofSites ignored sites).down
      ↔ (carried = true → ∀ f ∈ (ofSites ignored sites).findings, f.line ≠ 0) := by
  constructor
  · -- a finding on the first line would be kept in one tally only
    intro hsame hcarried f hf hline
    have hdown : f.down ∈ (ofSites ignored' (sites.map Site.down)).findings := by
      rw [hsame]
      exact List.mem_map_of_mem hf
    obtain ⟨-, hnot⟩ := mem_findings_iff.1 hdown
    exact hnot ((hignored f.line).2 (Or.inl ⟨hcarried, hline⟩))
  · intro hfirst
    apply ofSites_map_down
    intro s hs
    cases s with
    | sound => rfl
    | unsound f =>
        show (if ignored'.contains (f.line + 1) = true then none else some f.down) = _
        rw [kept?]
        by_cases hline : f.line ∈ ignored
        · have hline' := (hignored f.line).2 (Or.inr hline)
          rw [if_pos (List.contains_iff_mem.2 hline'), if_pos (List.contains_iff_mem.2 hline)]
          rfl
        · have hline' : f.line + 1 ∉ ignored' := by
            intro hmem
            rcases (hignored f.line).1 hmem with ⟨hcarried, hzero⟩ | hmem
            · exact hfirst hcarried f (mem_findings_iff.2 ⟨hs, hline⟩) hzero
            · exact hline hmem
          rw [if_neg (List.contains_iff_mem.not.2 hline'),
            if_neg (List.contains_iff_mem.not.2 hline)]
          rfl

end Tally

/-! ## After an import -/

namespace Analysis

theorem lexicalSites_of_import {strict : Bool} {s : Statement} (h : s.kind ≠ .other) :
    lexicalSites strict s = [] := if_neg h

theorem flatMap_lexicalSites_down (strict : Bool) (statements : List Statement) :
    (statements.map Statement.down).flatMap (lexicalSites strict)
      = (statements.flatMap (lexicalSites strict)).map Site.down := by
  rw [List.flatMap_map, List.map_flatMap]
  exact List.flatMap_congr fun s _ => lexicalSites_down strict s

/-- The sites of a source after an import on one line are those of the rest, one line further down,
without those of its first statement where the import takes that in. -/
theorem sites_after_import (i : ImportLine) (rest : Text) (strict : Bool) :
    (SourceUnit.parse (i.text ++ '\n' :: rest)).statements.flatMap (lexicalSites strict)
      = ((if BeginsStatement rest then (SourceUnit.parse rest).statements
          else (SourceUnit.parse rest).statements.tail).flatMap (lexicalSites strict)).map
        Site.down := by
  have hdown : ∀ spans : List Source.Span, (spans.map Source.Span.down).map Statement.ofSpan
      = (spans.map Statement.ofSpan).map Statement.down := by
    intro spans
    rw [List.map_map, List.map_map]
    rfl
  unfold SourceUnit.parse
  dsimp only
  obtain ⟨span, hkind, ⟨hbegins, hsplit⟩ | ⟨hbegins, first, more, hrest, hsplit⟩⟩ :=
    i.split_after_line rest
  · rw [hsplit, if_pos hbegins, List.map_cons, List.flatMap_cons, hdown,
      flatMap_lexicalSites_down, lexicalSites_of_import (s := Statement.ofSpan span) hkind,
      List.nil_append]
  · rw [hsplit, if_neg hbegins, hrest, List.map_cons, List.map_cons, List.tail_cons,
      List.flatMap_cons, hdown, flatMap_lexicalSites_down,
      lexicalSites_of_import (s := Statement.ofSpan span) hkind, List.nil_append]

/-- The statements without the first have the same sites if the first has none. -/
theorem flatMap_tail_of_silent {strict : Bool} {statements : List Statement}
    (h : ∀ s ∈ statements.head?, lexicalSites strict s = []) :
    statements.tail.flatMap (lexicalSites strict) = statements.flatMap (lexicalSites strict) := by
  cases statements with
  | nil => rfl
  | cons s more =>
      rw [List.flatMap_cons, h s rfl]
      rfl

/-- The statements without the first have fewer sites if the first has some. -/
theorem length_flatMap_tail_lt {strict : Bool} {statements : List Statement}
    (h : ¬ ∀ s ∈ statements.head?, lexicalSites strict s = []) :
    (statements.tail.flatMap (lexicalSites strict)).length
      < (statements.flatMap (lexicalSites strict)).length := by
  cases statements with
  | nil => exact absurd (by simp) h
  | cons s more =>
      have hsites : lexicalSites strict s ≠ [] := fun hnil => h (by simpa using hnil)
      have hpos := List.length_pos_iff.2 hsites
      rw [List.tail_cons, List.flatMap_cons, List.length_append]
      omega

/-- **Code after an import.** The tally of a source after an import on one line is that of the rest,
one line further down, exactly if the rest begins a statement or its first statement has no sites,
and no finding of the rest is on a first line that the import excludes. -/
theorem tally_after_import_iff (i : ImportLine) (rest file : Text) (strict : Bool) :
    lexical.tally file (SourceUnit.parse (i.text ++ '\n' :: rest)) strict
        = (lexical.tally file (SourceUnit.parse rest) strict).down
      ↔ (BeginsStatement rest
          ∨ ∀ s ∈ (SourceUnit.parse rest).statements.head?, lexicalSites strict s = [])
        ∧ (Source.hasDirective .nextLine i.text = true →
          ∀ f ∈ (lexical.tally file (SourceUnit.parse rest) strict).findings, f.line ≠ 0) := by
  have hignored : ∀ n, n + 1 ∈ (SourceUnit.parse (i.text ++ '\n' :: rest)).ignoredLines
      ↔ (Source.hasDirective .nextLine i.text = true ∧ n = 0)
        ∨ n ∈ (SourceUnit.parse rest).ignoredLines :=
    fun n => Source.mem_ignoredLines_append i.text_is_line.1 i.text_is_line.2
  rw [lexical_tally, lexical_tally, sites_after_import]
  by_cases hbegins : BeginsStatement rest
  · rw [if_pos hbegins, Tally.ofSites_map_down_iff hignored]
    exact (and_iff_right (Or.inl hbegins)).symm
  rw [if_neg hbegins]
  by_cases hsilent : ∀ s ∈ (SourceUnit.parse rest).statements.head?, lexicalSites strict s = []
  · rw [flatMap_tail_of_silent hsilent, Tally.ofSites_map_down_iff hignored]
    exact (and_iff_right (Or.inr hsilent)).symm
  · -- the sites of the first statement are missing, so the totals differ
    have hfewer := length_flatMap_tail_lt hsilent
    constructor
    · intro hsame
      have htotal := congrArg Tally.total hsame
      simp only [Tally.ofSites, Tally.down, List.length_map] at htotal
      omega
    · rintro ⟨hbegins' | hsilent', -⟩
      · exact absurd hbegins' hbegins
      · exact absurd hsilent' hsilent

def namedImport : ImportLine where
  form := .named [['o', 'k']]
  quote := '\x27'
  specifier := ['.', '/', 'o', 'k']
  isIdentifier := by
    intro name hname
    obtain rfl := List.mem_singleton.1 hname
    have hk : isNameChar 'k' = true := by decide
    exact ⟨'o', ['k'], rfl, by decide, by simpa using hk⟩
  quoted := by decide
  ne_nil := by decide
  noQuote := by simp [Source.NoQuote, Source.isSpecifierQuote]
  plain := by simp

/-- A statement with a finding, whose first word is not known to begin one. -/
def conditional : Text := "if (ok) \x7b var n: any = ok \x7d".toList

/-- An import takes in the statement after it. -/
theorem import_hides_statement :
    lexical.tally [] (SourceUnit.parse (namedImport.text ++ '\n' :: conditional)) false = ⟨0, 0, []⟩
      ∧ lexical.tally [] (SourceUnit.parse conditional) false
        = ⟨0, 1, [⟨0, 17, .any, some ['a', 'n', 'y']⟩]⟩ := by
  decide +kernel

end Analysis

end TypeCoverage
