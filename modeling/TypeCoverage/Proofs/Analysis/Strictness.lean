import Mathlib.Data.List.Basic
import TypeCoverage.Analysis.Lexical
import TypeCoverage.Run.Source

/-!
# What strictness changes

The lexical analyzer finds the same annotations with and without strictness; a strict analysis
adds the assertions of a statement. So two strictnesses agree about sources exactly if they are
the same or none of the sources has an assertion that counts.
-/

set_option autoImplicit false

namespace TypeCoverage

namespace Analysis

/-- The assertions of a statement that a strict analysis counts. -/
def countedAssertions (s : Statement) : List Site :=
  if s.kind = .other ∧ isReExport s.code = false then assertionSites s else []

theorem lexicalSites_eq_append (strict : Bool) (s : Statement) :
    lexicalSites strict s
      = lexicalSites false s ++ if strict = true then countedAssertions s else [] := by
  unfold lexicalSites countedAssertions
  by_cases hkind : s.kind = .other
  · cases strict <;> simp [hkind]
  · simp [hkind]

/-- The assertions of a scanned source that a strict analysis counts. -/
def assertionsOf (unit : SourceUnit) : List Site := unit.statements.flatMap countedAssertions

theorem assertionsOf_eq_nil_iff {unit : SourceUnit} :
    assertionsOf unit = [] ↔ ∀ s ∈ unit.statements, countedAssertions s = [] :=
  List.flatMap_eq_nil_iff

theorem tally_total (file : Text) (unit : SourceUnit) (strict : Bool) :
    (lexical.tally file unit strict).total
      = (lexical.tally file unit false).total
        + if strict = true then (assertionsOf unit).length else 0 := by
  rw [lexical_tally, lexical_tally]
  show (unit.statements.flatMap (lexicalSites strict)).length
    = (unit.statements.flatMap (lexicalSites false)).length + _
  cases strict with
  | false => simp
  | true =>
      rw [assertionsOf]
      induction unit.statements with
      | nil => rfl
      | cons s statements ih =>
          simp only [List.flatMap_cons, List.length_append, lexicalSites_eq_append true s,
            if_true] at ih ⊢
          omega

/-- Without assertions that count, strictness changes nothing. -/
theorem tally_eq_of_assertionsOf {unit : SourceUnit} (h : assertionsOf unit = [])
    (file : Text) (strict strict' : Bool) :
    lexical.tally file unit strict = lexical.tally file unit strict' := by
  have hsites : ∀ s ∈ unit.statements, lexicalSites strict s = lexicalSites strict' s := by
    intro s hs
    rw [lexicalSites_eq_append strict, lexicalSites_eq_append strict',
      assertionsOf_eq_nil_iff.1 h s hs]
    simp
  rw [lexical_tally, lexical_tally, List.flatMap_congr hsites]

/-! ## Many sources -/

/-- How many places of some sources an analysis counts. -/
def placesOf (strict : Bool) (sources : List SourceFile) : Nat :=
  sources.foldr (fun s n => (lexical.tally s.path s.unit strict).total + n) 0

theorem placesOf_eq_add (strict : Bool) (sources : List SourceFile) :
    placesOf strict sources = placesOf false sources
      + if strict = true then (sources.flatMap fun s => assertionsOf s.unit).length else 0 := by
  unfold placesOf
  cases strict with
  | false => simp
  | true =>
      induction sources with
      | nil => rfl
      | cons s sources ih =>
          have hs := tally_total s.path s.unit true
          simp only [List.foldr_cons, List.flatMap_cons, List.length_append, if_true] at hs ih ⊢
          omega

/-- Two strictnesses count the same number of places in sources exactly if they are the same or
none of the sources has an assertion that counts. -/
theorem placesOf_eq_iff {sources : List SourceFile} {strict strict' : Bool} :
    placesOf strict sources = placesOf strict' sources
      ↔ strict = strict' ∨ ∀ s ∈ sources, assertionsOf s.unit = [] := by
  rw [placesOf_eq_add strict, placesOf_eq_add strict', ← List.flatMap_eq_nil_iff,
    ← List.length_eq_zero_iff]
  cases strict <;> cases strict' <;> simp

end Analysis

end TypeCoverage
