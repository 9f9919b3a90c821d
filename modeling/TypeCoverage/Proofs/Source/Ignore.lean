import Mathlib.Tactic.Common
import TypeCoverage.Source.Ignore

/-!
# Excluded lines after a first line

A source that goes on after a first line excludes the lines that the rest excludes, one line further
down, and the first line or the one after it if the first line holds a directive.
-/

set_option autoImplicit false

namespace TypeCoverage

/-- A character that begins no line ending is part of the first line. -/
theorem Text.lines_cons {c : Char} {cs l : Text} {ls : List Text} (hc : c ≠ '\n')
    (hreturn : c = '\r' → cs.head? ≠ some '\n') (h : lines cs = l :: ls) :
    lines (c :: cs) = (c :: l) :: ls := by
  unfold lines
  split
  · next heq => cases heq
  · next heq =>
      obtain ⟨rfl, rfl⟩ := List.cons.inj heq
      exact absurd rfl (hreturn rfl)
  · next heq => exact absurd (List.cons.inj heq).1 hc
  · next heq =>
      obtain ⟨rfl, rfl⟩ := List.cons.inj heq
      rw [h]

theorem Text.lines_append {line : Text} (rest : Text) (hbreak : ∀ c ∈ line, c ≠ '\n')
    (hlast : line.getLast? ≠ some '\r') : lines (line ++ '\n' :: rest) = line :: lines rest := by
  induction line with
  | nil => rfl
  | cons c cs ih =>
      have hrest : lines (cs ++ '\n' :: rest) = cs :: lines rest := by
        refine ih (fun d hd => hbreak d (by simp [hd])) fun hreturn => hlast ?_
        cases cs with
        | nil => cases hreturn
        | cons d ds => rwa [List.getLast?_cons_cons]
      refine lines_cons (hbreak c (by simp)) ?_ hrest
      -- a carriage return is followed by another character of the line
      rintro rfl
      cases cs with
      | nil => exact absurd rfl hlast
      | cons d ds =>
          intro hd
          exact hbreak d (by simp) (Option.some.inj hd)

namespace Source

theorem mem_ignoredFrom_succ {n m : Nat} {carried : Bool} {ls : List Text} :
    m + 1 ∈ ignoredFrom (n + 1) carried ls ↔ m ∈ ignoredFrom n carried ls := by
  induction ls generalizing n carried with
  | nil => cases carried <;> simp [ignoredFrom]
  | cons line ls ih =>
      rw [ignoredFrom, ignoredFrom, List.mem_append, List.mem_append, ih]
      refine or_congr_left ?_
      split <;> simp

theorem mem_ignoredFrom_carried {n m : Nat} {carried : Bool} {ls : List Text} :
    m ∈ ignoredFrom n carried ls ↔ (carried = true ∧ m = n) ∨ m ∈ ignoredFrom n false ls := by
  cases ls with
  | nil => cases carried <;> simp [ignoredFrom]
  | cons line ls =>
      rw [ignoredFrom, ignoredFrom, List.mem_append, List.mem_append]
      cases carried with
      | false => simp
      | true =>
          rw [Bool.true_or, Bool.false_or, if_pos rfl]
          by_cases hline : hasDirective .sameLine line = true
          · simp [hline]
          · simp [hline]

/-- The excluded lines after a first line: those of the rest, and the next one if the first line has
a directive for it. -/
theorem mem_ignoredLines_append {line rest : Text} {m : Nat} (hbreak : ∀ c ∈ line, c ≠ '\n')
    (hlast : line.getLast? ≠ some '\r') :
    m + 1 ∈ ignoredLines (line ++ '\n' :: rest)
      ↔ (hasDirective .nextLine line = true ∧ m = 0) ∨ m ∈ ignoredLines rest := by
  rw [ignoredLines, Text.lines_append rest hbreak hlast, ignoredFrom, List.mem_append,
    mem_ignoredFrom_succ, mem_ignoredFrom_carried, ignoredLines]
  refine or_iff_right ?_
  split <;> simp

end Source

end TypeCoverage
