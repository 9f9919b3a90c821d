import Mathlib.Logic.Relation
import Mathlib.Tactic.Common
import TypeCoverage.Imports.Invalidation
import TypeCoverage.Proofs.OrderedMap

/-!
# What invalidation clears

A slot still holds its result after invalidation exactly if no chain of imports leads from its
file to a file whose slot was empty before. The order of the files, cycles and repetitions make
no difference, although each walk stops at slots that an earlier one cleared.
-/

set_option autoImplicit false

namespace TypeCoverage

variable {α : Type}

/-! ## Slots -/

namespace Slots

variable {s s' t : Slots α} {x y : Text}

theorem holds_iff : s.holds x = true ↔ ∃ a, s.get? x = some (some a) := by
  unfold holds
  split <;> simp_all

theorem isCleared_iff : s.isCleared x = true ↔ s.get? x = some none := by
  unfold isCleared
  split <;> simp_all

/-- Slots where nothing but clearing has happened. -/
def Narrows (s s' : Slots α) : Prop :=
  ∀ x, s'.get? x = s.get? x ∨ (s.holds x = true ∧ s'.get? x = some none)

theorem Narrows.refl (s : Slots α) : s.Narrows s := fun _ => Or.inl rfl

theorem Narrows.get?_of_holds (h : s.Narrows s') (hx : s'.holds x = true) :
    s'.get? x = s.get? x := by
  rcases h x with h | ⟨-, h⟩
  · exact h
  · obtain ⟨a, ha⟩ := holds_iff.1 hx
    rw [h] at ha
    cases ha

theorem Narrows.holds (h : s.Narrows s') (hx : s'.holds x = true) : s.holds x = true := by
  obtain ⟨a, ha⟩ := holds_iff.1 hx
  exact holds_iff.2 ⟨a, by rw [← h.get?_of_holds hx, ha]⟩

theorem Narrows.isCleared (h : s.Narrows s') (hx : s.isCleared x = true) :
    s'.isCleared x = true := by
  rw [isCleared_iff] at hx ⊢
  rcases h x with h | ⟨-, h⟩
  · rw [h, hx]
  · exact h

/-- A slot that is empty now was empty before or held a result. -/
theorem Narrows.isCleared_or (h : s.Narrows s') (hx : s'.isCleared x = true) :
    s.isCleared x = true ∨ (s.holds x = true ∧ ¬ s'.holds x = true) := by
  rcases h x with hget | ⟨hholds, -⟩
  · exact Or.inl (isCleared_iff.2 (by rw [← hget, isCleared_iff.1 hx]))
  · refine Or.inr ⟨hholds, fun hx' => ?_⟩
    obtain ⟨a, ha⟩ := holds_iff.1 hx'
    rw [isCleared_iff.1 hx] at ha
    cases ha

theorem get?_ne_none_of_holds (h : s.holds x = true) : s.get? x ≠ none := by
  obtain ⟨a, ha⟩ := holds_iff.1 h
  simp [ha]

/-- Clearing makes no new slots. -/
theorem Narrows.get?_ne_none (h : s.Narrows s') (hx : s'.get? x ≠ none) : s.get? x ≠ none := by
  rcases h x with hget | ⟨hholds, -⟩
  · exact hget ▸ hx
  · exact get?_ne_none_of_holds hholds

theorem Narrows.trans (h : s.Narrows s') (h' : s'.Narrows t) : s.Narrows t := by
  intro x
  rcases h' x with ht | ⟨hx, ht⟩
  · rw [ht]
    exact h x
  · exact Or.inr ⟨h.holds hx, ht⟩

theorem live_insertEntry {key : Text} {a : α} {es : List (Text × Option α)}
    (hsorted : es.Pairwise fun a b => a.1 < b.1)
    (h : OrderedMap.lookup key es = some (some a)) :
    ((OrderedMap.insertEntry key none es).filter fun e => e.2.isSome).length + 1
      = (es.filter fun e => e.2.isSome).length := by
  induction es with
  | nil => cases h
  | cons e es ih =>
      obtain ⟨k, v⟩ := e
      rw [List.pairwise_cons] at hsorted
      by_cases hk : k = key
      · subst hk
        rw [OrderedMap.lookup, if_pos rfl] at h
        obtain rfl := Option.some.inj h
        rw [OrderedMap.insertEntry, if_neg (List.lt_irrefl k), if_pos rfl]
        simp
      · rw [OrderedMap.lookup, if_neg hk] at h
        -- past the place of the key there is no entry for it
        have hlt : ¬ key < k := by
          intro hlt
          rw [OrderedMap.lookup_eq_none fun e he hkey => ?_] at h
          · cases h
          · exact List.lt_irrefl key (List.lt_trans hlt (hkey ▸ hsorted.1 e he))
        rw [OrderedMap.insertEntry, if_neg hlt, if_neg hk]
        have ih' := ih hsorted.2 h
        cases v with
        | none => simpa using ih'
        | some b => simpa using ih'

theorem live_insert_none (h : s.holds x = true) : live (s.insert x none) + 1 = s.live := by
  obtain ⟨a, ha⟩ := holds_iff.1 h
  exact live_insertEntry s.sorted ha

/-! ## Clearing -/

theorem get?_clear (s : Slots α) (files : List Text) (x : Text) :
    (s.clear files).1.get? x = if x ∈ (s.clear files).2 then some none else s.get? x := by
  induction files generalizing s with
  | nil => simp [clear]
  | cons file files ih =>
      rw [clear]
      split
      · dsimp only
        rw [ih, OrderedMap.get?_insert]
        by_cases hx : x = file
        · simp [hx]
        · simp [hx]
      · exact ih s

theorem holds_insert_none {file : Text} :
    holds (s.insert file none) x = true ↔ x ≠ file ∧ s.holds x = true := by
  rw [holds_iff, holds_iff, OrderedMap.get?_insert]
  by_cases hx : x = file <;> simp [hx]

theorem mem_clear (s : Slots α) (files : List Text) (x : Text) :
    x ∈ (s.clear files).2 ↔ x ∈ files ∧ s.holds x = true := by
  induction files generalizing s with
  | nil => simp [clear]
  | cons file files ih =>
      rw [clear]
      split
      · next hfile =>
          simp only [List.mem_cons, ih, holds_insert_none]
          by_cases hx : x = file
          · simp [hx, hfile]
          · simp [hx]
      · next hfile =>
          rw [ih, List.mem_cons]
          by_cases hx : x = file
          · simp [hx, hfile]
          · simp [hx]

/-- Each cleared slot held a result that it no longer holds. -/
theorem live_clear (s : Slots α) (files : List Text) :
    (s.clear files).1.live + (s.clear files).2.length = s.live := by
  induction files generalizing s with
  | nil => rfl
  | cons file files ih =>
      rw [clear]
      split
      · next hfile =>
          have hlive := live_insert_none hfile
          have ih' := ih (s.insert file none)
          simp only [List.length_cons]
          omega
      · exact ih s

theorem narrows_clear (s : Slots α) (files : List Text) : s.Narrows (s.clear files).1 := by
  intro x
  rw [get?_clear]
  split
  · next hx => exact Or.inr ⟨((mem_clear s files x).1 hx).2, rfl⟩
  · exact Or.inl rfl

theorem not_holds_clear {files : List Text} (hx : x ∈ files) :
    ¬ (s.clear files).1.holds x = true := by
  intro hholds
  have hmem : x ∈ (s.clear files).2 :=
    (mem_clear s files x).2 ⟨hx, (narrows_clear s files).holds hholds⟩
  obtain ⟨a, ha⟩ := holds_iff.1 hholds
  rw [get?_clear, if_pos hmem] at ha
  cases ha

/-! ## Walking -/

/-- A walk to its end: files are taken from the pending ones, those that are cleared for a file
become pending in front of the others, and the walk is over when no file is pending. The number
is that of the cleared slots. -/
inductive Walks (dependents : Text → List Text) : List Text → Slots α → Slots α → Nat → Prop
  | done (s : Slots α) : Walks dependents [] s s 0
  | step {file : Text} {pending : List Text} {s t : Slots α} {count : Nat}
      (rest : Walks dependents ((s.clear (dependents file)).2.reverse ++ pending)
        (s.clear (dependents file)).1 t count) :
      Walks dependents (file :: pending) s t ((s.clear (dependents file)).2.length + count)

/-- A walk that has a step for each live slot and each pending file comes to its end. -/
theorem walks_walk (dependents : Text → List Text) (fuel : Nat) (s : Slots α)
    (pending : List Text) (hfuel : s.live + pending.length ≤ fuel) :
    Walks dependents pending s (s.walk dependents fuel pending).1
      (s.walk dependents fuel pending).2 := by
  -- a step takes one file from the pending ones and adds one for each slot that it clears
  induction fuel generalizing s pending with
  | zero =>
      obtain rfl : pending = [] := List.length_eq_zero_iff.1 (by omega)
      exact .done s
  | succ fuel ih =>
      cases pending with
      | nil => exact .done s
      | cons file pending =>
          have hlive := live_clear s (dependents file)
          refine .step (ih _ _ ?_)
          simp only [List.length_append, List.length_reverse, List.length_cons] at hfuel ⊢
          omega

variable {dependents : Text → List Text} {pending : List Text} {count : Nat}

/-- There is one way to walk. -/
theorem Walks.unique (h : Walks dependents pending s t count) {t' : Slots α} {count' : Nat}
    (h' : Walks dependents pending s t' count') : t' = t ∧ count' = count := by
  induction h generalizing count' with
  | done s =>
      cases h'
      exact ⟨rfl, rfl⟩
  | step _ ih =>
      cases h' with
      | step rest =>
          obtain ⟨rfl, rfl⟩ := ih rest
          exact ⟨rfl, rfl⟩

/-- A walk counts the results that are gone. -/
theorem Walks.live_add (h : Walks dependents pending s t count) : t.live + count = s.live := by
  induction h with
  | done s => rfl
  | @step file _ s _ _ _ ih =>
      have hlive := live_clear s (dependents file)
      omega

/-- What a walk from pending files has done: it cleared only what leads to one of them over
slots that held a result, and nothing holds a result that leads in one step to one of them or to
a file it cleared. -/
structure Walked (dependents : Text → List Text) (pending : List Text) (s s' : Slots α) :
    Prop where
  narrows : s.Narrows s'
  sound : ∀ x, s.holds x = true → ¬ s'.holds x = true →
    ∃ y ∈ pending, Relation.TransGen (fun a b => a ∈ dependents b ∧ s.holds a = true) x y
  closed : ∀ y, (y ∈ pending ∨ (s.holds y = true ∧ ¬ s'.holds y = true)) →
    ∀ x ∈ dependents y, ¬ s'.holds x = true

theorem Walks.walked (h : Walks dependents pending s t count) : Walked dependents pending s t := by
  induction h with
  | done s => exact ⟨Narrows.refl s, fun x h h' => absurd h h', fun y hy => by simp_all⟩
  | @step file pending s t _ _ ih =>
      have hclear := narrows_clear s (dependents file)
      have hnot := fun x (hx : x ∈ dependents file) => not_holds_clear (s := s) hx
      have hmem : ∀ x, s.holds x = true → ¬ (s.clear (dependents file)).1.holds x = true →
          x ∈ (s.clear (dependents file)).2 := by
        intro x hx hx'
        by_contra hnot
        obtain ⟨a, ha⟩ := holds_iff.1 hx
        exact hx' (holds_iff.2 ⟨a, by rw [get?_clear, if_neg hnot, ha]⟩)
      refine ⟨hclear.trans ih.narrows, fun x hx hx' => ?_, fun y hy x hxy hx => ?_⟩
      -- a slot was cleared by the rest of the walk or by this step
      · by_cases hx₁ : (s.clear (dependents file)).1.holds x = true
        · obtain ⟨y, hy, hlive⟩ := ih.sound x hx₁ hx'
          have hchain : Relation.TransGen (fun a b => a ∈ dependents b ∧ s.holds a = true) x y :=
            Relation.TransGen.mono (fun _ _ hab => ⟨hab.1, hclear.holds hab.2⟩) x y hlive
          rcases List.mem_append.1 hy with hy | hy
          · obtain ⟨hdep, hholds⟩ := (mem_clear s _ y).1 (List.mem_reverse.1 hy)
            exact ⟨file, by simp, hchain.tail ⟨hdep, hholds⟩⟩
          · exact ⟨y, by simp [hy], hchain⟩
        · have hdep := ((mem_clear s _ x).1 (hmem x hx hx₁)).1
          exact ⟨file, by simp, .single ⟨hdep, hx⟩⟩
      -- a file that this step cleared is pending in the rest of the walk
      · rcases hy with hy | ⟨hy, hy'⟩
        · rcases List.mem_cons.1 hy with rfl | hy
          · exact hnot x hxy (ih.narrows.holds hx)
          · exact ih.closed y (Or.inl (by simp [hy])) x hxy hx
        · by_cases hy₁ : (s.clear (dependents file)).1.holds y = true
          · exact ih.closed y (Or.inr ⟨hy₁, hy'⟩) x hxy hx
          · exact ih.closed y (Or.inl (by simp [hmem y hy hy₁])) x hxy hx

end Slots

/-! ## Invalidating -/

namespace Edge

open Slots (Narrows Walks Walked)

variable {edges : List Edge} {s s' : Slots α} {x y : Text}

/-- Whether a file depends directly on another. -/
def Imports (edges : List Edge) (dependent dependency : Text) : Prop :=
  ⟨dependent, dependency⟩ ∈ edges

theorem mem_dependents_iff : x ∈ dependents edges y ↔ Imports edges x y := by
  unfold dependents Imports
  constructor
  · intro h
    obtain ⟨e, he, rfl⟩ := List.mem_map.1 h
    obtain ⟨hmem, hy⟩ := List.mem_filter.1 he
    obtain rfl := of_decide_eq_true hy
    exact hmem
  · intro h
    exact List.mem_map.2 ⟨_, List.mem_filter.2 ⟨h, by simp⟩, rfl⟩

theorem transGen_imports {a b : Text}
    (h : Relation.TransGen (fun a b => a ∈ dependents edges b ∧ s.holds a = true) a b) :
    Relation.TransGen (Imports edges) a b :=
  Relation.TransGen.mono (fun _ _ hab => mem_dependents_iff.1 hab.1) a b h

/-- Invalidating is a walk to its end. -/
theorem walks_invalidate (edges : List Edge) (s : Slots α) (seed : Text) :
    Walks (dependents edges) [seed] s (invalidate edges s seed).1 (invalidate edges s seed).2 :=
  Slots.walks_walk _ _ s [seed] (Nat.le_refl _)

theorem walked_invalidate (edges : List Edge) (s : Slots α) (seed : Text) :
    Walked (dependents edges) [seed] s (invalidate edges s seed).1 :=
  (walks_invalidate edges s seed).walked

/-- What invalidating from the rejected files of a list has done: it cleared only what leads to
a file whose slot was empty, and nothing holds a result that leads in one step to a file that
was cleared, or to one of the list whose slot is empty. -/
structure Invalidated (edges : List Edge) (files : List Text) (s s' : Slots α) : Prop where
  narrows : s.Narrows s'
  sound : ∀ x, s.holds x = true → ¬ s'.holds x = true →
    ∃ g, s.isCleared g = true ∧ Relation.TransGen (Imports edges) x g
  closed : ∀ y, ((y ∈ files ∧ s'.isCleared y = true)
    ∨ (s.holds y = true ∧ ¬ s'.holds y = true)) → ∀ x, Imports edges x y → ¬ s'.holds x = true

theorem invalidated_invalidateRejected (edges : List Edge) (files : List Text) (s : Slots α) :
    Invalidated edges files s (invalidateRejected edges s files).1 := by
  induction files generalizing s with
  | nil =>
      exact ⟨Narrows.refl s, fun x h h' => absurd h h', fun y hy => by
        simp_all [invalidateRejected]⟩
  | cons file files ih =>
      rw [invalidateRejected]
      split
      · next hfile =>
          have hwalk := walked_invalidate edges s file
          have hrest := ih (invalidate edges s file).1
          refine ⟨hwalk.narrows.trans hrest.narrows, fun x hx hx' => ?_, fun y hy x hxy hx => ?_⟩
          -- where the rest stops at a slot that this walk cleared, the two chains are joined
          · by_cases hx₁ : (invalidate edges s file).1.holds x = true
            · obtain ⟨g, hg, hchain⟩ := hrest.sound x hx₁ hx'
              rcases hwalk.narrows.isCleared_or hg with hg | ⟨hg, hg'⟩
              · exact ⟨g, hg, hchain⟩
              · obtain ⟨f, hf, hmore⟩ := hwalk.sound g hg hg'
                obtain rfl := List.mem_singleton.1 hf
                exact ⟨f, hfile, hchain.trans (transGen_imports hmore)⟩
            · obtain ⟨f, hf, hchain⟩ := hwalk.sound x hx hx₁
              obtain rfl := List.mem_singleton.1 hf
              exact ⟨f, hfile, transGen_imports hchain⟩
          · have hdep := mem_dependents_iff.2 hxy
            rcases hy with ⟨hy, hy'⟩ | ⟨hy, hy'⟩
            · rcases List.mem_cons.1 hy with rfl | hy
              · exact hwalk.closed y (Or.inl (by simp)) x hdep (hrest.narrows.holds hx)
              · exact hrest.closed y (Or.inl ⟨hy, hy'⟩) x hxy hx
            · by_cases hy₁ : (invalidate edges s file).1.holds y = true
              · exact hrest.closed y (Or.inr ⟨hy₁, hy'⟩) x hxy hx
              · exact hwalk.closed y (Or.inr ⟨hy, hy₁⟩) x hdep (hrest.narrows.holds hx)
      · next hfile =>
          have hrest := ih s
          refine ⟨hrest.narrows, hrest.sound, fun y hy x hxy hx => ?_⟩
          rcases hy with ⟨hy, hy'⟩ | hy
          · rcases List.mem_cons.1 hy with rfl | hy
            · -- a file that is passed over and found empty later was cleared in between
              rcases hrest.narrows.isCleared_or hy' with hy | hy
              · exact hfile hy
              · exact hrest.closed y (Or.inr hy) x hxy hx
            · exact hrest.closed y (Or.inl ⟨hy, hy'⟩) x hxy hx
          · exact hrest.closed y (Or.inr hy) x hxy hx

/-- A chain of dependencies empties every slot on it. -/
theorem Invalidated.isCleared_of_chain {files : List Text} {g : Text}
    (h : Invalidated edges files s s') (hslots : ∀ x, s.get? x ≠ none → x ∈ files)
    (hedges : ∀ x y, Imports edges x y → s.get? x ≠ none) (hg : s.isCleared g = true)
    (hchain : Relation.ReflTransGen (Imports edges) x g) : s'.isCleared x = true := by
  -- from the end of the chain back to its head
  induction hchain using Relation.ReflTransGen.head_induction_on with
  | refl => exact h.narrows.isCleared hg
  | @head a b hab _ ih =>
      have hb : b ∈ files := by
        refine hslots b ?_
        rcases h.narrows.isCleared_or ih with hb | ⟨hb, -⟩
        · simp [Slots.isCleared_iff.1 hb]
        · obtain ⟨c, hc⟩ := Slots.holds_iff.1 hb
          simp [hc]
      have hnot := h.closed b (Or.inl ⟨hb, ih⟩) a hab
      rcases h.narrows a with ha | ⟨-, ha⟩
      · rw [Slots.isCleared_iff, ha]
        cases hget : s.get? a with
        | none => exact absurd hget (hedges a b hab)
        | some slot =>
            cases slot with
            | none => rfl
            | some c => exact absurd (Slots.holds_iff.2 ⟨c, by rw [ha, hget]⟩) hnot
      · exact Slots.isCleared_iff.2 ha

/-- Where every slot is of a listed file and every file with dependencies has a slot, a result
is kept exactly if no chain of dependencies leads from its file to one without a result. -/
theorem holds_invalidateRejected {files : List Text} (hslots : ∀ x, s.get? x ≠ none → x ∈ files)
    (hedges : ∀ x y, Imports edges x y → s.get? x ≠ none) (x : Text) :
    (invalidateRejected edges s files).1.holds x = true ↔
      s.holds x = true ∧
        ¬ ∃ g, s.isCleared g = true ∧ Relation.ReflTransGen (Imports edges) x g := by
  have h := invalidated_invalidateRejected edges files s
  constructor
  · intro hx
    refine ⟨h.narrows.holds hx, fun ⟨g, hg, hchain⟩ => ?_⟩
    have hcleared := h.isCleared_of_chain hslots hedges hg hchain
    obtain ⟨a, ha⟩ := Slots.holds_iff.1 hx
    rw [Slots.isCleared_iff.1 hcleared] at ha
    cases ha
  · rintro ⟨hx, hno⟩
    by_contra hx'
    obtain ⟨g, hg, hchain⟩ := h.sound x hx hx'
    exact hno ⟨g, hg, hchain.to_reflTransGen⟩

end Edge

end TypeCoverage
