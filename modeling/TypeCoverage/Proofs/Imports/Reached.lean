import TypeCoverage.Proofs.Imports.Invalidation

/-!
# What invalidation reaches

Invalidating from a file clears the slots of exactly those files from which a chain of
dependencies leads to it over slots that hold a result. All other slots stay as they are, also
the empty ones and those behind an empty one, and the number that is given is the number of
results that are gone. Gathering the dependents in an index makes no difference.
-/

set_option autoImplicit false

namespace TypeCoverage

variable {α : Type}

namespace Slots

variable {s s' : Slots α}

theorem holds_of_mem {e : Text × Option α} (h : e ∈ s.entries) : s.holds e.1 = e.2.isSome := by
  have hget := OrderedMap.get?_eq_some_iff.2 h
  unfold holds
  rw [hget]
  cases e.2 <;> rfl

/-- The live slots are counted over the keys. -/
theorem live_eq_countP (s : Slots α) : s.live = s.keys.countP s.holds := by
  rw [live, OrderedMap.keys, List.countP_map, ← List.countP_eq_length_filter]
  exact List.countP_congr fun e he => by simp [holds_of_mem he]

theorem Narrows.keys_eq (h : s.Narrows s') : s'.keys = s.keys := by
  apply OrderedMap.keys_eq_of_get?
  intro x
  rcases h x with hget | ⟨hholds, hget⟩
  · rw [hget]
  · obtain ⟨a, ha⟩ := holds_iff.1 hholds
    simp [hget, ha]

/-- Where nothing but clearing has happened, a result that was held is held or its slot is
empty. -/
theorem Narrows.holds_eq (h : s.Narrows s') (x : Text) (hx : s.holds x = true) :
    s'.holds x = !s'.isCleared x := by
  obtain ⟨a, ha⟩ := holds_iff.1 hx
  rcases h x with hget | ⟨-, hget⟩
  · simp [Slots.holds, Slots.isCleared, hget, ha]
  · simp [Slots.holds, Slots.isCleared, hget]

/-- The results that are gone are counted by the slots that were emptied. -/
theorem Narrows.live_add_countP (h : s.Narrows s') :
    s'.live + s.keys.countP (fun x => s.holds x && s'.isCleared x) = s.live := by
  rw [live_eq_countP, live_eq_countP s, h.keys_eq]
  have hkept : s.keys.countP s'.holds = s.keys.countP fun x => s.holds x && !s'.isCleared x := by
    refine List.countP_congr fun x _ => ?_
    cases hx : s.holds x with
    | true => rw [h.holds_eq x hx, Bool.true_and]
    | false =>
        have hx' : s'.holds x = false :=
          Bool.eq_false_iff.2 fun hx' => Bool.eq_false_iff.1 hx (h.holds hx')
        rw [hx', Bool.false_and]
  have hsplit := List.countP_eq_countP_filter_add s.keys s.holds s'.isCleared
  rw [List.countP_filter, List.countP_filter] at hsplit
  omega

end Slots

/-! ## Chains of live dependents -/

namespace Edge

open Slots (Narrows Walks Walked)

variable {edges : List Edge} {s s' : Slots α} {seed x : Text}

/-- Whether a file depends directly on another and its slot holds a result. -/
def ImportsLive (edges : List Edge) (s : Slots α) (dependent dependency : Text) : Prop :=
  Imports edges dependent dependency ∧ s.holds dependent = true

/-- Whether a chain of one or more dependencies leads from a file to another, where the slots of
all files on it but the last hold a result. -/
def ReachesLive (edges : List Edge) (s : Slots α) : Text → Text → Prop :=
  Relation.TransGen (ImportsLive edges s)

theorem ReachesLive.holds (h : ReachesLive edges s x seed) : s.holds x = true := by
  obtain ⟨y, hxy, -⟩ := Relation.TransGen.head'_iff.1 h
  exact hxy.2

theorem walked_sound (h : Walked (dependents edges) [seed] s s') (hx : s.holds x = true)
    (hx' : ¬ s'.holds x = true) : ReachesLive edges s x seed := by
  obtain ⟨y, hy, hchain⟩ := h.sound x hx hx'
  obtain rfl := List.mem_singleton.1 hy
  exact Relation.TransGen.mono (fun _ _ hab => ⟨mem_dependents_iff.1 hab.1, hab.2⟩) x y hchain

theorem walked_complete (h : Walked (dependents edges) [seed] s s')
    (hchain : ReachesLive edges s x seed) : ¬ s'.holds x = true := by
  -- from the end of the chain back to its head; each file on it was cleared
  induction hchain using Relation.TransGen.head_induction_on with
  | single hlast => exact h.closed seed (Or.inl (by simp)) _ (mem_dependents_iff.2 hlast.1)
  | head hfirst hrest ih =>
      exact h.closed _ (Or.inr ⟨ReachesLive.holds hrest, ih⟩) _ (mem_dependents_iff.2 hfirst.1)

/-- What it means that just the files that reach a file over live slots lost their results. -/
structure ClearsReaching (edges : List Edge) (seed : Text) (s s' : Slots α) (count : Nat) :
    Prop where
  cleared_iff : ∀ x, (s.holds x = true ∧ s'.isCleared x = true) ↔ ReachesLive edges s x seed
  unchanged : ∀ x, ¬ ReachesLive edges s x seed → s'.get? x = s.get? x
  keys_eq : s'.keys = s.keys
  count_eq : count = s.keys.countP fun x => s.holds x && s'.isCleared x

theorem clearsReaching_of_walks {count : Nat}
    (h : Walks (dependents edges) [seed] s s' count) : ClearsReaching edges seed s s' count := by
  have hwalked := h.walked
  have hnarrows := hwalked.narrows
  have hcleared : ∀ x, s.holds x = true → (s'.isCleared x = true ↔ ¬ s'.holds x = true) := by
    intro x hx
    rw [hnarrows.holds_eq x hx]
    simp
  refine ⟨fun x => ⟨fun ⟨hx, hx'⟩ => ?_, fun hchain => ?_⟩, fun x hno => ?_, hnarrows.keys_eq, ?_⟩
  · exact walked_sound hwalked hx ((hcleared x hx).1 hx')
  · exact ⟨hchain.holds, (hcleared x hchain.holds).2 (walked_complete hwalked hchain)⟩
  · rcases hnarrows x with hget | ⟨hx, hget⟩
    · exact hget
    · have hx' : ¬ s'.holds x = true := (hcleared x hx).1 (Slots.isCleared_iff.2 hget)
      exact absurd (walked_sound hwalked hx hx') hno
  · have hlive := h.live_add
    have hcount := hnarrows.live_add_countP
    omega

end Edge

/-! ## The index -/

namespace DependentIndex

theorem dependents_add (index : DependentIndex) (e : Edge) (file : Text) :
    (index.add e).dependents file = index.dependents file ++ Edge.dependents [e] file := by
  unfold add dependents
  dsimp only
  rw [OrderedMap.get?_insert]
  by_cases h : file = e.dependency
  · subst h
    simp [Edge.dependents]
  · rw [if_neg h]
    simp [Edge.dependents, Ne.symm h]

/-- Looking up a file in the index gives what is found among the edges. -/
theorem dependents_ofEdges (edges : List Edge) :
    (ofEdges edges).dependents = Edge.dependents edges := by
  have hfold : ∀ (index : DependentIndex) (file : Text), (edges.foldl add index).dependents file
      = index.dependents file ++ Edge.dependents edges file := by
    induction edges with
    | nil => simp [Edge.dependents]
    | cons e edges ih =>
        intro index file
        rw [List.foldl_cons, ih, dependents_add, List.append_assoc]
        congr 1
        simp [Edge.dependents, List.filter_cons]
        split <;> simp
  funext file
  rw [ofEdges, hfold]
  rfl

end DependentIndex

namespace Edge

open Slots (Walks)

/-- **Invalidation is live reachability.** Whatever the dependencies, the slots and the file,
walking from the file comes to an end, in one way, and this is what invalidating gives. It clears
a slot exactly if that held a result and a chain of dependencies leads from its file to the given
one over slots that held a result, also where the chain leads from the given file to itself. No
other slot changes, no key comes or goes, and the number is that of the slots that held a result
and are empty now. An index of the dependents gives the same. -/
theorem invalidate_clears_reaching (edges : List Edge) (s : Slots α) (seed : Text) :
    (∀ s' count, Walks (dependents edges) [seed] s s' count
        ↔ invalidate edges s seed = (s', count))
      ∧ ClearsReaching edges seed s (invalidate edges s seed).1 (invalidate edges s seed).2
      ∧ (DependentIndex.ofEdges edges).invalidate s seed = invalidate edges s seed := by
  have hwalks := walks_invalidate edges s seed
  refine ⟨fun s' count => ⟨fun h => ?_, fun h => ?_⟩, clearsReaching_of_walks hwalks, ?_⟩
  · obtain ⟨hslots, hcount⟩ := h.unique hwalks
    exact Prod.ext hslots hcount
  · rw [h] at hwalks
    exact hwalks
  · rw [DependentIndex.invalidate, DependentIndex.dependents_ofEdges]
    rfl

end Edge

end TypeCoverage
