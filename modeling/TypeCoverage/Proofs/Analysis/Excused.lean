import Mathlib.Data.List.Induction
import TypeCoverage.Proofs.Analysis.Apart

/-!
# What excluding lines does

Excluding lines excuses the findings on them: they are not kept and count as correct. Every place is
counted as before, and the other findings stay in their order, since each site is judged by the line
of its own finding and by nothing that was counted before it.
-/

set_option autoImplicit false

namespace TypeCoverage

namespace Tally

variable {ignored excluded : List Nat} {t t' : Tally}

/-- What it is for a tally to be another one whose findings on some lines are excused. -/
structure Excuses (excluded : List Nat) (t t' : Tally) : Prop where
  total_eq : t'.total = t.total
  findings_eq : t'.findings = t.findings.filter fun f => f.line ∉ excluded
  correct_eq : t'.correct = t.correct + t.findings.countP fun f => f.line ∈ excluded

/-- More excluded lines leave out the findings on them. -/
theorem kept?_append (ignored excluded : List Nat) (s : Site) :
    kept? (ignored ++ excluded) s = (kept? ignored s).filter fun f => f.line ∉ excluded := by
  rw [kept?_eq_filter, kept?_eq_filter, Option.filter_filter]
  congr 1
  funext f
  simp

theorem Excuses.addSound (h : Excuses excluded t t') :
    Excuses excluded t.addSound t'.addSound := by
  refine ⟨congrArg (· + 1) h.total_eq, h.findings_eq, ?_⟩
  show t'.correct + 1 = t.correct + 1 + t.findings.countP _
  rw [h.correct_eq, Nat.add_right_comm]

/-- A finding on one of the lines counts as correct instead. -/
theorem Excuses.excuse {f : Finding} (h : Excuses excluded t t') (hline : f.line ∈ excluded) :
    Excuses excluded (t.addFinding f) t'.addSound := by
  refine ⟨congrArg (· + 1) h.total_eq, ?_, ?_⟩
  · show t'.findings = (t.findings ++ [f]).filter _
    rw [h.findings_eq, List.filter_append, List.filter_cons_of_neg (by simpa using hline),
      List.filter_nil, List.append_nil]
  · show t'.correct + 1 = t.correct + (t.findings ++ [f]).countP _
    rw [h.correct_eq, List.countP_append, List.countP_cons_of_pos (by simpa using hline),
      List.countP_nil, Nat.zero_add, Nat.add_assoc]

/-- A finding on another line is kept. -/
theorem Excuses.keep {f : Finding} (h : Excuses excluded t t') (hline : f.line ∉ excluded) :
    Excuses excluded (t.addFinding f) (t'.addFinding f) := by
  refine ⟨congrArg (· + 1) h.total_eq, ?_, ?_⟩
  · show t'.findings ++ [f] = (t.findings ++ [f]).filter _
    rw [h.findings_eq, List.filter_append, List.filter_cons_of_pos (by simpa using hline),
      List.filter_nil]
  · show t'.correct = t.correct + (t.findings ++ [f]).countP _
    rw [h.correct_eq, List.countP_append, List.countP_cons_of_neg (by simpa using hline),
      List.countP_nil, Nat.add_zero]

/-- Counting one more site on both sides excuses it or leaves it as it is. -/
theorem Excuses.add (h : Excuses excluded t t') (s : Site) :
    Excuses excluded (t.add ignored s) (t'.add (ignored ++ excluded) s) := by
  unfold Tally.add
  rw [kept?_append]
  cases kept? ignored s with
  | none => exact h.addSound
  | some f =>
      by_cases hline : f.line ∈ excluded
      · rw [Option.filter_some, if_neg (by simpa using hline)]
        exact h.excuse hline
      · rw [Option.filter_some, if_pos (by simpa using hline)]
        exact h.keep hline

/-- Sites that are counted one by one with more excluded lines are counted with findings excused. -/
theorem excuses_ofSites (ignored excluded : List Nat) (sites : List Site) :
    Excuses excluded (ofSites ignored sites) (ofSites (ignored ++ excluded) sites) := by
  induction sites using List.reverseRecOn with
  | nil => exact ⟨rfl, rfl, rfl⟩
  | append_singleton sites s ih =>
      rw [ofSites_concat, ofSites_concat]
      exact ih.add s

end Tally

/-- The source with other lines excluded from counting. -/
def SourceUnit.excluding (unit : SourceUnit) (lines : List Nat) : SourceUnit :=
  { unit with ignoredLines := lines }

namespace Analysis

open Tally (Excuses excuses_ofSites)

/-- **Directives excuse findings.** Whatever lines are excluded, the tally of a source counts as
many places as that with no line excluded, its findings are those that are on none of these lines,
in the same order, and as many more places are correct as findings are left out. The lines that the
directives of the source exclude are an instance. -/
theorem tally_excuses (file source : Text) (strict : Bool) (excluded : List Nat) :
    Excuses excluded (lexical.tally file ((SourceUnit.parse source).excluding []) strict)
        (lexical.tally file ((SourceUnit.parse source).excluding excluded) strict)
      ∧ Excuses (Source.ignoredLines source)
        (lexical.tally file ((SourceUnit.parse source).excluding []) strict)
        (lexical.tally file (SourceUnit.parse source) strict) := by
  rw [lexical_tally, lexical_tally, lexical_tally]
  exact ⟨excuses_ofSites [] excluded _, excuses_ofSites [] (Source.ignoredLines source) _⟩

end Analysis

end TypeCoverage
