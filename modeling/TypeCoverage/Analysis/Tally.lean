import TypeCoverage.Finding
import TypeCoverage.Source.Unit

/-!
# Counting sites

An analyzer is handed the statements of a file in order, each with the tally of those before it.
Mostly it finds sites in them: places whose type is fine, and places that are findings. A finding
on an excluded line counts as fine and is not kept.
-/

set_option autoImplicit false

namespace TypeCoverage

/-- A counted place of a statement. -/
inductive Site where
  | sound
  | unsound (finding : Finding)
  deriving DecidableEq, Repr

/-- The counts of a file and its findings in the order in which they were met. -/
structure Tally where
  correct : Nat
  total : Nat
  findings : List Finding
  deriving DecidableEq, Repr

namespace Tally

def zero : Tally := ⟨0, 0, []⟩

instance : Inhabited Tally := ⟨zero⟩

/-- The tally with one more place whose type is fine. -/
def addSound (t : Tally) : Tally := { t with correct := t.correct + 1, total := t.total + 1 }

def addFinding (t : Tally) (f : Finding) : Tally :=
  { t with total := t.total + 1, findings := t.findings ++ [f] }

/-- The finding that a site is kept as. -/
def kept? (ignored : List Nat) : Site → Option Finding
  | .sound => none
  | .unsound f => if ignored.contains f.line then none else some f

def add (ignored : List Nat) (t : Tally) (s : Site) : Tally :=
  match kept? ignored s with
  | some f => t.addFinding f
  | none => t.addSound

/-- The tally of a list of sites. -/
def ofSites (ignored : List Nat) (sites : List Site) : Tally where
  correct := sites.countP fun s => (kept? ignored s).isNone
  total := sites.length
  findings := sites.filterMap (kept? ignored)

/-- Sites may be counted one by one. -/
theorem ofSites_concat (ignored : List Nat) (sites : List Site) (s : Site) :
    ofSites ignored (sites ++ [s]) = (ofSites ignored sites).add ignored s := by
  unfold add
  cases h : kept? ignored s with
  | none => simp [ofSites, addSound, h]
  | some f => simp [ofSites, addFinding, h]

/-- A site is kept as a finding exactly if it is that finding and its line is not excluded. -/
theorem kept?_eq_some_iff {ignored : List Nat} {s : Site} {f : Finding} :
    kept? ignored s = some f ↔ s = .unsound f ∧ f.line ∉ ignored := by
  cases s with
  | sound => simp [kept?]
  | unsound g =>
      by_cases hline : g.line ∈ ignored
      · have hnone : kept? ignored (.unsound g) = none := if_pos (List.contains_iff_mem.2 hline)
        rw [hnone]
        constructor
        · intro h
          cases h
        · rintro ⟨h, hnot⟩
          obtain rfl := Site.unsound.inj h
          exact absurd hline hnot
      · have hsome : kept? ignored (.unsound g) = some g :=
          if_neg fun hmem => hline (List.contains_iff_mem.1 hmem)
        rw [hsome]
        constructor
        · intro h
          obtain rfl := Option.some.inj h
          exact ⟨rfl, hline⟩
        · rintro ⟨h, -⟩
          rw [Site.unsound.inj h]

/-- The findings of a tally are the findings among its sites whose lines are not excluded. -/
theorem mem_findings_iff {ignored : List Nat} {sites : List Site} {f : Finding} :
    f ∈ (ofSites ignored sites).findings ↔ .unsound f ∈ sites ∧ f.line ∉ ignored := by
  show f ∈ sites.filterMap (kept? ignored) ↔ _
  rw [List.mem_filterMap]
  constructor
  · rintro ⟨s, hs, hkept⟩
    obtain ⟨rfl, hline⟩ := kept?_eq_some_iff.1 hkept
    exact ⟨hs, hline⟩
  · rintro ⟨hs, hline⟩
    exact ⟨_, hs, kept?_eq_some_iff.2 ⟨rfl, hline⟩⟩

end Tally

/-- A semantic error that an analyzer reports for a file. -/
structure Diagnostic where
  place : Position
  message : Text
  deriving DecidableEq, Repr

def Diagnostic.toFinding (d : Diagnostic) : Finding :=
  .placed d.place .semanticError d.message

/-! ## Analyzers -/

/-- What an analyzer is handed with a statement: the file, and what was counted in it so far. -/
structure FileContext where
  file : Text
  unit : SourceUnit
  strict : Bool
  tally : Tally

namespace FileContext

/-- The context of the first statement of a file. -/
def ofFile (file : Text) (unit : SourceUnit) (strict : Bool) : FileContext :=
  ⟨file, unit, strict, .zero⟩

/-- The context with one more site. -/
def collect (c : FileContext) (s : Site) : FileContext :=
  { c with tally := c.tally.add c.unit.ignoredLines s }

end FileContext

/-- A way to look at statements, and the diagnostics of a file. The tally is the analyzer's own: it
may count sites, and it may as well change what was counted before. -/
structure Analyzer where
  check : Statement → FileContext → FileContext
  diagnostics : Text → SourceUnit → List Diagnostic

namespace Analyzer

/-- The tally of a file, the statements of which are handed to the analyzer in order. -/
def tally (a : Analyzer) (file : Text) (unit : SourceUnit) (strict : Bool) : Tally :=
  (unit.statements.foldl (fun c s => a.check s c) (.ofFile file unit strict)).tally

/-- The analyzer that counts the sites which it finds in a statement. -/
def ofSites (sites : Text → SourceUnit → Bool → Statement → List Site)
    (diagnostics : Text → SourceUnit → List Diagnostic) : Analyzer where
  check s c := (sites c.file c.unit c.strict s).foldl FileContext.collect c
  diagnostics := diagnostics

variable {sites : Text → SourceUnit → Bool → Statement → List Site}
  {diagnostics : Text → SourceUnit → List Diagnostic}

/-- Sites are counted behind those that were counted before. -/
theorem foldl_collect (file : Text) (unit : SourceUnit) (strict : Bool) (before new : List Site) :
    new.foldl FileContext.collect ⟨file, unit, strict, .ofSites unit.ignoredLines before⟩
      = ⟨file, unit, strict, .ofSites unit.ignoredLines (before ++ new)⟩ := by
  induction new generalizing before with
  | nil => rw [List.append_nil]; rfl
  | cons s new ih =>
      rw [List.foldl_cons, FileContext.collect, ← Tally.ofSites_concat, ih, List.append_assoc]
      rfl

/-- The tally of an analyzer that counts sites is that of all sites of the file in order. -/
theorem tally_ofSites (file : Text) (unit : SourceUnit) (strict : Bool) :
    (ofSites sites diagnostics).tally file unit strict
      = .ofSites unit.ignoredLines (unit.statements.flatMap (sites file unit strict)) := by
  have hfold : ∀ (statements : List Statement) (before : List Site),
      statements.foldl (fun c s => (ofSites sites diagnostics).check s c)
          ⟨file, unit, strict, .ofSites unit.ignoredLines before⟩
        = ⟨file, unit, strict, .ofSites unit.ignoredLines
            (before ++ statements.flatMap (sites file unit strict))⟩ := by
    intro statements
    induction statements with
    | nil => exact fun before => by rw [List.flatMap_nil, List.append_nil]; rfl
    | cons s statements ih =>
        intro before
        have hs : (ofSites sites diagnostics).check s
            ⟨file, unit, strict, .ofSites unit.ignoredLines before⟩
          = ⟨file, unit, strict, .ofSites unit.ignoredLines (before ++ sites file unit strict s)⟩ :=
          foldl_collect file unit strict before _
        rw [List.foldl_cons, List.flatMap_cons, ← List.append_assoc, ← ih, hs]
  exact congrArg FileContext.tally (hfold unit.statements [])

/-- What an analyzer that counts sites finds is among the sites of a statement. -/
theorem exists_of_mem_findings {file : Text} {unit : SourceUnit} {strict : Bool} {f : Finding}
    (hf : f ∈ ((ofSites sites diagnostics).tally file unit strict).findings) :
    ∃ s ∈ unit.statements, .unsound f ∈ sites file unit strict s := by
  rw [tally_ofSites] at hf
  exact List.mem_flatMap.1 (Tally.mem_findings_iff.1 hf).1

end Analyzer

end TypeCoverage
