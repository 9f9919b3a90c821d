import Mathlib.Data.List.Basic
import TypeCoverage.Selection

/-!
# First occurrences

The keys without repetitions are the first occurrences of the keys. Two lists have the same
first occurrences when neither has a member that the other lacks, and every occurrence in the
one is met in the other before anything new is. The first occurrences of the values of a partial
function stand in the order of the members that first give them.
-/

set_option autoImplicit false

namespace TypeCoverage.Selection

/-- The keys that are not among those that came before, each at its first occurrence. -/
theorem distinct_eq_eraseDups (seen keys : List Text) :
    distinct seen keys = (keys.filter fun k => !seen.contains k).eraseDups := by
  induction keys generalizing seen with
  | nil => rfl
  | cons k ks ih =>
      unfold distinct
      split
      · next hseen => rw [ih, List.filter_cons_of_neg (by simpa using hseen)]
      · next hnew =>
          rw [ih, List.filter_cons_of_pos (by simpa using hnew), List.eraseDups_cons,
            List.filter_filter]
          congr 3
          funext q
          rw [List.contains_cons, Bool.not_or]

theorem distinct_nil (keys : List Text) : distinct [] keys = keys.eraseDups := by
  rw [distinct_eq_eraseDups]
  simp

section

variable {α β : Type*} {before keys xs ys : List α} {k : α}

/-- An occurrence among the values of a partial function comes from a member of the list. -/
theorem exists_split_filterMap {f : α → Option β} {front back : List β} {b : β}
    (h : xs.filterMap f = front ++ b :: back) :
    ∃ ahead x rest, xs = ahead ++ x :: rest ∧ f x = some b ∧ ahead.filterMap f = front := by
  obtain ⟨ahead, others, rfl, rfl, hothers⟩ := List.filterMap_eq_append_iff.1 h
  obtain ⟨skipped, x, rest, rfl, hskipped, hx, -⟩ := List.filterMap_eq_cons_iff.1 hothers
  refine ⟨ahead ++ skipped, x, rest, by simp, hx, ?_⟩
  rw [List.filterMap_append, List.filterMap_eq_nil_iff.2 hskipped, List.append_nil]

/-! ## Occurrences and what is ahead of them -/

/-- Whether a key occurs in a list with nothing but members of `before` ahead of it. -/
def LedBy (before : List α) (k : α) (keys : List α) : Prop :=
  ∃ front back, keys = front ++ k :: back ∧ front ⊆ before

theorem ledBy_filterMap_iff {f : α → Option β} {before : List β} {b : β} :
    LedBy before b (xs.filterMap f) ↔
      ∃ front x back, xs = front ++ x :: back ∧ f x = some b ∧ front.filterMap f ⊆ before := by
  constructor
  · rintro ⟨front, back, hvalues, hfront⟩
    obtain ⟨ahead, x, rest, hxs, hx, rfl⟩ := exists_split_filterMap hvalues
    exact ⟨ahead, x, rest, hxs, hx, hfront⟩
  · rintro ⟨front, x, back, rfl, hx, hfront⟩
    refine ⟨front.filterMap f, back.filterMap f, ?_, hfront⟩
    rw [List.filterMap_append, List.filterMap_cons_some hx]

theorem LedBy.filter {p : α → Bool} (h : LedBy before k keys) (hk : p k = true) :
    LedBy (before.filter p) k (keys.filter p) := by
  obtain ⟨front, back, rfl, hfront⟩ := h
  refine ⟨front.filter p, back.filter p, ?_, List.filter_subset p hfront⟩
  rw [List.filter_append, List.filter_cons_of_pos hk]

/-- What is led in a list whose head it is not is led in the tail. -/
theorem LedBy.tail {y : α} (h : LedBy before k (y :: keys)) (hne : k ≠ y) :
    LedBy before k keys := by
  obtain ⟨front, back, hkeys, hfront⟩ := h
  obtain ⟨-, hback⟩ | ⟨inner, rfl, rfl⟩ := List.append_eq_cons_iff.1 hkeys.symm
  · exact absurd (List.cons.inj hback).1 hne
  · exact ⟨inner, back, rfl, List.subset_of_cons_subset hfront⟩

variable [BEq α] [LawfulBEq α]

/-- The first occurrence of a key is led by what leads any of its occurrences. -/
theorem ledBy_eraseDups_iff : LedBy before k keys.eraseDups ↔ LedBy before k keys := by
  constructor
  · rintro ⟨front, back, hkeys, hfront⟩
    have hk : k ∈ keys := by
      rw [← List.mem_eraseDups, hkeys]
      simp
    obtain ⟨ahead, rest, rfl, hfirst⟩ := List.eq_append_cons_of_mem hk
    refine ⟨ahead, rest, rfl, fun q hq => hfront ?_⟩
    rw [← List.mem_eraseDups] at hq
    rw [List.eraseDups_append] at hkeys
    -- `k` is not among the keys ahead of its first occurrence, so they all stand in the front
    obtain ⟨between, hfront', -⟩ | ⟨between, hahead, hrest⟩ := List.append_eq_append_iff.1 hkeys
    · rw [hfront']
      exact List.mem_append_left _ hq
    · rw [hahead] at hq
      cases between with
      | nil => simpa using hq
      | cons b bs =>
          obtain rfl : k = b := (List.cons.inj hrest).1
          exact absurd (List.mem_eraseDups.1 (by rw [hahead]; simp)) hfirst
  · rintro ⟨front, back, rfl, hfront⟩
    by_cases hk : k ∈ front
    · obtain ⟨ahead, rest, hahead⟩ := List.append_of_mem (List.mem_eraseDups.2 hk)
      refine ⟨ahead, rest ++ ((k :: back).removeAll front).eraseDups, ?_, fun q hq => ?_⟩
      · rw [List.eraseDups_append, hahead, List.append_assoc, List.cons_append]
      · refine hfront (List.mem_eraseDups.1 ?_)
        rw [hahead]
        exact List.mem_append_left _ hq
    · have hnew : (k :: back).removeAll front = k :: back.removeAll front :=
        List.filter_cons_of_pos (by simpa using hk)
      have hkeys : (front ++ k :: back).eraseDups
          = front.eraseDups ++ ((k :: back).removeAll front).eraseDups := List.eraseDups_append
      rw [hnew, List.eraseDups_cons] at hkeys
      exact ⟨_, _, hkeys, fun q hq => hfront (List.mem_eraseDups.1 hq)⟩

/-- A list has the first occurrences of another one when it has no further members, and each
occurrence in the other is met in it before anything new is. -/
theorem eraseDups_eq_of_ledBy (hsub : xs ⊆ ys)
    (hled : ∀ before k after, ys = before ++ k :: after → LedBy before k xs) :
    xs.eraseDups = ys.eraseDups := by
  induction hlength : ys.length using Nat.strongRecOn generalizing xs ys with
  | _ n ih =>
  cases ys with
  | nil => rw [List.subset_nil.1 hsub]
  | cons y ys =>
      obtain ⟨front, rest, rfl, hfront⟩ := hled [] y ys rfl
      obtain rfl : front = [] := List.subset_nil.1 hfront
      rw [List.nil_append] at hsub hled ⊢
      rw [List.eraseDups_cons, List.eraseDups_cons]
      congr 1
      -- the keys that differ from the first one are a shorter case of the same
      have hless : (ys.filter fun b => !b == y).length < n :=
        hlength ▸ Nat.lt_succ_of_le (List.length_filter_le _ ys)
      refine ih _ hless (fun q hq => ?_) (fun before k after hsplit => ?_) rfl
      · obtain ⟨hrest, hne⟩ := List.mem_filter.1 hq
        have hmem : q ∈ y :: ys := hsub (List.mem_cons_of_mem y hrest)
        exact List.mem_filter.2 ⟨(List.mem_cons.1 hmem).resolve_left (by simpa using hne), hne⟩
      · rw [← List.filterMap_eq_filter] at hsplit
        obtain ⟨ahead, x, others, rfl, hx, hahead⟩ := exists_split_filterMap hsplit
        obtain ⟨rfl, hne⟩ := Option.guard_eq_some_iff.1 hx
        have hled := (hled (y :: ahead) x others rfl).tail (by simpa using hne)
        have hdrop : (y :: ahead).filter (fun b => !b == y) = before := by
          rw [List.filter_cons_of_neg (by simp), ← hahead, List.filterMap_eq_filter]
        rw [← hdrop]
        exact hled.filter hne

/-- **The same first occurrences.** -/
theorem eraseDups_eq_iff : xs.eraseDups = ys.eraseDups ↔
    xs ⊆ ys ∧ ∀ before k after, ys = before ++ k :: after → LedBy before k xs := by
  refine ⟨fun h => ⟨fun q hq => ?_, ?_⟩, fun h => eraseDups_eq_of_ledBy h.1 h.2⟩
  · rw [← List.mem_eraseDups, ← h, List.mem_eraseDups]
    exact hq
  · rintro before k after hys
    rw [← ledBy_eraseDups_iff, h, ledBy_eraseDups_iff]
    exact ⟨before, after, hys, List.Subset.refl before⟩

/-! ## Values of a partial function -/

variable [BEq β] [LawfulBEq β]

/-- Where a partial function gives no value twice, the first occurrences of its values are the
values of the first occurrences. -/
theorem eraseDups_filterMap {f : α → Option β}
    (hinj : ∀ x y b, f x = some b → f y = some b → x = y) :
    (xs.filterMap f).eraseDups = xs.eraseDups.filterMap f := by
  induction hlength : xs.length using Nat.strongRecOn generalizing xs with
  | _ n ih =>
  cases xs with
  | nil => rfl
  | cons x xs =>
      have hless : (xs.filter fun y => !y == x).length < n :=
        hlength ▸ Nat.lt_succ_of_le (List.length_filter_le _ xs)
      have hothers := ih _ hless rfl
      rw [List.filterMap_filter] at hothers
      rw [List.eraseDups_cons]
      cases hx : f x with
      | none =>
          rw [List.filterMap_cons_none hx, List.filterMap_cons_none hx, ← hothers]
          refine congrArg List.eraseDups (List.filterMap_congr fun y _ => ?_)
          by_cases hy : y = x
          · simp [hy, hx]
          · simp [hy]
      | some b =>
          rw [List.filterMap_cons_some hx, List.filterMap_cons_some hx, List.eraseDups_cons,
            ← hothers, List.filter_filterMap]
          refine congrArg (fun bs => b :: List.eraseDups bs) (List.filterMap_congr fun y _ => ?_)
          by_cases hy : y = x
          · simp [hy, hx]
          · have hne : ∀ c, f y = some c → c ≠ b := fun c hc hcb => hy (hinj y x b (hcb ▸ hc) hx)
            cases hfy : f y with
            | none => simp
            | some c => simp [hy, hne c hfy]

omit [BEq β] [LawfulBEq β] in
theorem filter_eraseDups (p : α → Bool) :
    (xs.filter p).eraseDups = xs.eraseDups.filter p := by
  rw [← List.filterMap_eq_filter]
  refine eraseDups_filterMap fun x y b hx hy => ?_
  rw [Option.guard_eq_some_iff] at hx hy
  rw [hx.1, hy.1]

omit [BEq α] [LawfulBEq α] in
/-- First occurrences stand in the order of the first members that give them. -/
theorem pairwise_findIdx_eraseDups (f : α → Option β) (xs : List α) :
    (xs.filterMap f).eraseDups.Pairwise fun b c =>
      (xs.findIdx fun x => f x == some b) < xs.findIdx fun x => f x == some c := by
  induction xs with
  | nil => exact List.Pairwise.nil
  | cons x xs ih =>
      -- a value that the head does not give is first given by a member of the tail
      have hlater : ∀ b, f x ≠ some b → ((x :: xs).findIdx fun y => f y == some b)
          = (xs.findIdx fun y => f y == some b) + 1 := by
        intro b hb
        rw [List.findIdx_cons, beq_eq_false_iff_ne.2 hb, cond_false]
      cases hx : f x with
      | none =>
          rw [List.filterMap_cons_none hx]
          refine ih.imp fun {b c} hbc => ?_
          rw [hlater b (by simp [hx]), hlater c (by simp [hx])]
          omega
      | some a =>
          have hothers : ∀ b ∈ (xs.filterMap f).eraseDups.filter (fun b => !b == a),
              f x ≠ some b := by
            intro b hb
            have hne : b ≠ a := by simpa using (List.mem_filter.1 hb).2
            simpa [hx] using Ne.symm hne
          rw [List.filterMap_cons_some hx, List.eraseDups_cons, filter_eraseDups,
            List.pairwise_cons]
          constructor
          · intro b hb
            rw [hlater b (hothers b hb), List.findIdx_cons, hx, beq_self_eq_true, cond_true]
            omega
          · refine (ih.filter _).imp_of_mem fun {b c} hb hc hbc => ?_
            rw [hlater b (hothers b hb), hlater c (hothers c hc)]
            omega

end

end TypeCoverage.Selection
