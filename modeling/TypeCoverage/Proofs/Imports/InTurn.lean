import TypeCoverage.Proofs.Imports.Reached

/-!
# Invalidating from several files

Invalidating from files one after another clears the slots of just those files from which a chain of
dependencies leads to one of them over slots that held a result at the start. A later walk may stop
at a slot that an earlier one cleared, but the earlier one went on from there. So it makes no
difference in which order dependencies and files are listed, or how often.
-/

set_option autoImplicit false

namespace TypeCoverage

variable {α : Type}

/-! ## Slots cleared in turn -/

namespace Slots

variable {s t s' : Slots α} {reached reached' : Text → Prop} {count more : Nat} {x : Text}

/-- Invalidates from files one after another, and counts all results that were held. -/
def inTurn (invalidate : Slots α → Text → Slots α × Nat) : Slots α → List Text → Slots α × Nat
  | slots, [] => (slots, 0)
  | slots, seed :: seeds =>
    let (slots, count) := invalidate slots seed
    let (slots, more) := inTurn invalidate slots seeds
    (slots, count + more)

/-- What it means that the slots of just those files were cleared that are reached, all of which
held a result. -/
structure Clears (reached : Text → Prop) (s s' : Slots α) (count : Nat) : Prop where
  cleared_iff : ∀ x, (s.holds x = true ∧ s'.isCleared x = true) ↔ reached x
  unchanged : ∀ x, ¬ reached x → s'.get? x = s.get? x
  count_eq : count = s.keys.countP fun x => s.holds x && s'.isCleared x

theorem Clears.narrows (h : Clears reached s s' count) : s.Narrows s' := by
  intro x
  by_cases hx : reached x
  · obtain ⟨hholds, hcleared⟩ := (h.cleared_iff x).2 hx
    exact Or.inr ⟨hholds, isCleared_iff.1 hcleared⟩
  · exact Or.inl (h.unchanged x hx)

/-- Each slot that was cleared held a result that is gone. -/
theorem Clears.live_add (h : Clears reached s s' count) : s'.live + count = s.live := by
  rw [h.count_eq]
  exact h.narrows.live_add_countP

/-- A result that was held is held, or its slot was cleared. -/
theorem Clears.holds_or (h : Clears reached s s' count) (hx : s.holds x = true) :
    s'.holds x = true ∨ reached x := by
  by_cases hcleared : s'.isCleared x = true
  · exact Or.inr ((h.cleared_iff x).1 ⟨hx, hcleared⟩)
  · rw [h.narrows.holds_eq x hx]
    exact Or.inl (by simpa using hcleared)

/-- Nothing is reached, and nothing happens. -/
theorem Clears.refl (s : Slots α) (h : ∀ x, ¬ reached x) : Clears reached s s 0 := by
  have hnot : ∀ x, ¬ (s.holds x = true ∧ s.isCleared x = true) := by
    rintro x ⟨hx, hcleared⟩
    rw [(Narrows.refl s).holds_eq x hx, hcleared] at hx
    cases hx
  refine ⟨fun x => iff_of_false (hnot x) (h x), fun _ _ => rfl, ?_⟩
  rw [eq_comm, List.countP_eq_zero]
  exact fun x _ => by simpa using hnot x

theorem Clears.trans (h : Clears reached s t count) (h' : Clears reached' t s' more) :
    Clears (fun x => reached x ∨ reached' x) s s' (count + more) := by
  have hnarrows := h.narrows.trans h'.narrows
  refine ⟨fun x => ⟨fun ⟨hx, hcleared⟩ => ?_, ?_⟩, fun x hx => ?_, ?_⟩
  · rcases h.holds_or hx with ht | hreached
    · exact Or.inr ((h'.cleared_iff x).1 ⟨ht, hcleared⟩)
    · exact Or.inl hreached
  · rintro (hreached | hreached)
    · obtain ⟨hx, ht⟩ := (h.cleared_iff x).2 hreached
      exact ⟨hx, h'.narrows.isCleared ht⟩
    · obtain ⟨ht, hcleared⟩ := (h'.cleared_iff x).2 hreached
      exact ⟨h.narrows.holds ht, hcleared⟩
  · obtain ⟨hfirst, hsecond⟩ := not_or.1 hx
    rw [h'.unchanged x hsecond, h.unchanged x hfirst]
  · have hlive := h.live_add
    have hlive' := h'.live_add
    have hcount := hnarrows.live_add_countP
    omega

theorem Clears.congr (h : Clears reached s s' count) (hiff : ∀ x, reached x ↔ reached' x) :
    Clears reached' s s' count := by
  obtain rfl : reached = reached' := funext fun x => propext (hiff x)
  exact h

/-- What is reached decides what becomes of the slots. -/
theorem Clears.unique (h : Clears reached s s' count) (h' : Clears reached s t more) :
    (t, more) = (s', count) := by
  have hslots : t = s' := by
    apply OrderedMap.eq_of_get?
    intro x
    by_cases hx : reached x
    · rw [isCleared_iff.1 ((h.cleared_iff x).2 hx).2, isCleared_iff.1 ((h'.cleared_iff x).2 hx).2]
    · rw [h.unchanged x hx, h'.unchanged x hx]
  rw [h.count_eq, h'.count_eq, hslots]

end Slots

/-! ## What several files reach -/

namespace Edge

open Slots (Clears)

variable {edges edges' : List Edge} {s t : Slots α} {seed other x : Text} {count : Nat}

/-- Whether a chain of dependencies leads over live slots from a file to one of some files. -/
def ReachesAny (edges : List Edge) (s : Slots α) (seeds : List Text) (x : Text) : Prop :=
  ∃ seed ∈ seeds, ReachesLive edges s x seed

theorem clears_invalidate (edges : List Edge) (s : Slots α) (seed : Text) :
    Clears (fun x => ReachesLive edges s x seed) s (invalidate edges s seed).1
      (invalidate edges s seed).2 := by
  have hreaching := clearsReaching_of_walks (walks_invalidate edges s seed)
  exact ⟨hreaching.cleared_iff, hreaching.unchanged, hreaching.count_eq⟩

/-- A chain that is broken by what was cleared before leads to where that was reached from. -/
theorem reachesLive_or_of_clears (h : Clears (fun x => ReachesLive edges s x seed) s t count)
    (hchain : ReachesLive edges s x other) :
    ReachesLive edges s x seed ∨ ReachesLive edges t x other := by
  -- from the end of the chain back to its head; the slot of each file on it is live or was cleared
  induction hchain using Relation.TransGen.head_induction_on with
  | single hlast =>
      rcases h.holds_or hlast.2 with hlive | hreaches
      · exact Or.inr (.single ⟨hlast.1, hlive⟩)
      · exact Or.inl hreaches
  | head hfirst hrest ih =>
      rcases ih with hreaches | hlater
      · exact Or.inl (hreaches.head hfirst)
      · rcases h.holds_or hfirst.2 with hlive | hreaches
        · exact Or.inr (hlater.head ⟨hfirst.1, hlive⟩)
        · exact Or.inl hreaches

/-- A chain over slots that hold a result now is one over slots that held a result before. -/
theorem reachesLive_of_narrows (h : s.Narrows t) (hchain : ReachesLive edges t x seed) :
    ReachesLive edges s x seed :=
  Relation.TransGen.mono (fun _ _ hab => ⟨hab.1, h.holds hab.2⟩) x seed hchain

/-- Walks one after another clear what any of their files reaches at the start. -/
theorem clears_inTurn (edges : List Edge) (s : Slots α) (seeds : List Text) :
    Clears (ReachesAny edges s seeds) s (s.inTurn (invalidate edges) seeds).1
      (s.inTurn (invalidate edges) seeds).2 := by
  induction seeds generalizing s with
  | nil => exact Clears.refl s (by simp [ReachesAny])
  | cons seed seeds ih =>
      have hfirst := clears_invalidate edges s seed
      refine (hfirst.trans (ih (invalidate edges s seed).1)).congr fun x => ⟨?_, ?_⟩
      · rintro (hreaches | ⟨other, hother, hlater⟩)
        · exact ⟨seed, by simp, hreaches⟩
        · exact ⟨other, by simp [hother], reachesLive_of_narrows hfirst.narrows hlater⟩
      · rintro ⟨other, hother, hreaches⟩
        rcases List.mem_cons.1 hother with rfl | hother
        · exact Or.inl hreaches
        · exact (reachesLive_or_of_clears hfirst hreaches).imp_right fun hlater =>
            ⟨other, hother, hlater⟩

/-! ## Any order -/

/-- Which files are reached depends on which dependencies and files there are. -/
theorem reachesAny_congr {seeds seeds' : List Text} (hedges : ∀ e, e ∈ edges' ↔ e ∈ edges)
    (hseeds : ∀ seed, seed ∈ seeds' ↔ seed ∈ seeds) (s : Slots α) :
    ReachesAny edges' s seeds' = ReachesAny edges s seeds := by
  have himports : ImportsLive edges' s = ImportsLive edges s := by
    funext a b
    rw [ImportsLive, ImportsLive, Imports, Imports, hedges]
  funext x
  unfold ReachesAny ReachesLive
  simp only [himports, hseeds]

theorem invalidate_ofEdges (edges : List Edge) :
    (DependentIndex.ofEdges edges).invalidate (α := α) = invalidate edges := by
  funext s seed
  rw [DependentIndex.invalidate, DependentIndex.dependents_ofEdges]
  rfl

/-- **Invalidation is order free.** Where two lists have the same dependencies and two others the
same files, in any order and with any repetitions, invalidating from the files one after another
leads to the same slots and counts the same results, also by an index of the dependents. The slots
that are cleared are those of the files from which a chain of dependencies leads to one of the files
over slots that held a result, and each of them is counted once. -/
theorem inTurn_order_free {seeds seeds' : List Text} (hedges : ∀ e, e ∈ edges' ↔ e ∈ edges)
    (hseeds : ∀ seed, seed ∈ seeds' ↔ seed ∈ seeds) (s : Slots α) :
    s.inTurn (invalidate edges') seeds' = s.inTurn (invalidate edges) seeds
      ∧ s.inTurn (DependentIndex.ofEdges edges').invalidate seeds'
        = s.inTurn (DependentIndex.ofEdges edges).invalidate seeds
      ∧ Clears (ReachesAny edges s seeds) s (s.inTurn (invalidate edges) seeds).1
        (s.inTurn (invalidate edges) seeds).2 := by
  have hclears := clears_inTurn edges s seeds
  have hclears' := clears_inTurn edges' s seeds'
  rw [reachesAny_congr hedges hseeds] at hclears'
  have hsame : s.inTurn (invalidate edges') seeds' = s.inTurn (invalidate edges) seeds :=
    hclears.unique hclears'
  refine ⟨hsame, ?_, hclears⟩
  rw [invalidate_ofEdges, invalidate_ofEdges, hsame]

/-- A cycle through a file without a result, from which one order of the files goes on and another
does not. -/
theorem inTurn_order_free_cycle :
    let edges : List Edge := [⟨['a'], ['b']⟩, ⟨['b'], ['c']⟩, ⟨['c'], ['a']⟩, ⟨['d'], ['b']⟩]
    let edges' := [edges[3], edges[2], edges[1], edges[0], edges[1]]
    let seeds : List Text := [['c'], ['b']]
    let seeds' : List Text := [['b'], ['c'], ['b']]
    let s : Slots Nat :=
      OrderedMap.ofList [(['a'], some 1), (['b'], some 2), (['c'], none), (['d'], some 4)]
    (∀ e, e ∈ edges' ↔ e ∈ edges) ∧ (∀ seed, seed ∈ seeds' ↔ seed ∈ seeds)
      ∧ s.inTurn (invalidate edges') seeds' = s.inTurn (invalidate edges) seeds
      ∧ (s.inTurn (invalidate edges') seeds').2 = 3 := by
  intro edges edges' seeds seeds' s
  have hedges : ∀ e, e ∈ edges' ↔ e ∈ edges := by
    have hsub : ∀ e ∈ edges', e ∈ edges := by decide
    have hsuper : ∀ e ∈ edges, e ∈ edges' := by decide
    exact fun e => ⟨hsub e, hsuper e⟩
  have hseeds : ∀ seed, seed ∈ seeds' ↔ seed ∈ seeds := by
    have hsub : ∀ seed ∈ seeds', seed ∈ seeds := by decide
    have hsuper : ∀ seed ∈ seeds, seed ∈ seeds' := by decide
    exact fun seed => ⟨hsub seed, hsuper seed⟩
  have hsame := (inTurn_order_free hedges hseeds s).1
  exact ⟨hedges, hseeds, hsame, by rw [hsame]; decide +kernel⟩

end Edge

end TypeCoverage
