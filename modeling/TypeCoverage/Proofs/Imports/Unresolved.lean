import TypeCoverage.Proofs.Imports.Alike
import TypeCoverage.Proofs.Imports.Invalidation

/-!
# Imports that match no candidate

An import that matches no candidate resolves to its module path. Most often no file of the run has
that path, and then the dependency makes no difference to invalidation. A specifier with the
extension of its file has the path of the file itself as its module path: the import matches no
candidate, and still its dependency leads to a file of the run.
-/

set_option autoImplicit false

namespace TypeCoverage

variable {α : Type} {known : List Text}

/-! ## Dependents that make no difference -/

namespace Slots

variable {s s' : Slots α} {pending : List Text}

/-- Whether only files of a list have slots. -/
def Within (known : List Text) (s : Slots α) : Prop := ∀ x, s.get? x ≠ none → x ∈ known

theorem Within.narrow (hs : s.Within known) (h : s.Narrows s') : s'.Within known :=
  fun x hx => hs x (h.get?_ne_none hx)

theorem Within.mem_of_holds (hs : s.Within known) {x : Text} (h : s.holds x = true) : x ∈ known :=
  hs x (get?_ne_none_of_holds h)

/-- Whether two kinds of dependents are cleared alike for every file without a result. -/
def ClearsAlike (α : Type) (known : List Text) (dependents dependents' : Text → List Text) :
    Prop :=
  ∀ s : Slots α, s.Within known → ∀ file ∈ known, ¬ s.holds file = true →
    s.clear (dependents file) = s.clear (dependents' file)

/-- Clearing passes over a file whose slot holds no result. -/
theorem clear_append_cons {file : Text} (h : ¬ s.holds file = true) (xs ys : List Text) :
    s.clear (xs ++ file :: ys) = s.clear (xs ++ ys) := by
  induction xs generalizing s with
  | nil => exact if_neg h
  | cons x xs ih =>
      rw [List.cons_append, List.cons_append, clear, clear]
      split
      · have hstill : ¬ holds (s.insert x none) file = true :=
          fun hfile => h (holds_insert_none.1 hfile).2
        rw [ih hstill]
      · exact ih h

/-- A walk from files without a result comes only to such files. -/
theorem walk_congr {dependents dependents' : Text → List Text}
    (halike : ClearsAlike α known dependents dependents') (fuel : Nat) (hs : s.Within known)
    (hpending : ∀ file ∈ pending, file ∈ known ∧ ¬ s.holds file = true) :
    s.walk dependents fuel pending = s.walk dependents' fuel pending := by
  induction fuel generalizing s pending with
  | zero => rfl
  | succ fuel ih =>
      cases pending with
      | nil => rfl
      | cons file pending =>
          obtain ⟨hknown, hempty⟩ := hpending file List.mem_cons_self
          have hnarrows := narrows_clear s (dependents file)
          -- what a step puts among the pending files it has cleared
          have hpending' : ∀ x ∈ (s.clear (dependents file)).2.reverse ++ pending,
              x ∈ known ∧ ¬ (s.clear (dependents file)).1.holds x = true := by
            intro x hx
            rcases List.mem_append.1 hx with hx | hx
            · obtain ⟨hdep, hholds⟩ := (mem_clear s _ x).1 (List.mem_reverse.1 hx)
              exact ⟨hs.mem_of_holds hholds, not_holds_clear hdep⟩
            · obtain ⟨hmem, hnot⟩ := hpending x (List.mem_cons_of_mem file hx)
              exact ⟨hmem, fun hholds => hnot (hnarrows.holds hholds)⟩
          rw [walk, walk, ← halike s hs file hknown hempty]
          dsimp only
          rw [ih (hs.narrow hnarrows) hpending']

end Slots

namespace Edge

variable {before after edges edges' : List Edge} {slots : Slots α} {e : Edge}

/-- Invalidating from the rejected files of a list is done in walks from empty slots. -/
theorem invalidateRejected_congr
    (halike : Slots.ClearsAlike α known (dependents edges) (dependents edges'))
    (hslots : slots.Within known) (files : List Text) :
    invalidateRejected edges slots files = invalidateRejected edges' slots files := by
  induction files generalizing slots with
  | nil => rfl
  | cons file files ih =>
      rw [invalidateRejected, invalidateRejected]
      split
      · next hfile =>
          have hget := Slots.isCleared_iff.1 hfile
          have hempty : ¬ slots.holds file = true := by simp [Slots.holds, hget]
          have hwalk : invalidate edges slots file = invalidate edges' slots file :=
            Slots.walk_congr halike _ hslots (by simp [hslots file (by simp [hget]), hempty])
          rw [← hwalk]
          dsimp only
          rw [ih (hslots.narrow (walked_invalidate edges slots file).narrows)]
      · exact ih hslots

/-- Whether a dependency takes part in the invalidation of some files: for some results that are
held for them and some other dependencies, invalidation comes out otherwise with it than without. -/
def TakesPart (known : List Text) (e : Edge) : Prop :=
  ∃ (α : Type) (before after : List Edge) (slots : Slots α),
    (∀ x, slots.get? x ≠ none ↔ x ∈ known)
      ∧ invalidateRejected (before ++ e :: after) slots known
        ≠ invalidateRejected (before ++ after) slots known

theorem dependents_append (edges edges' : List Edge) (file : Text) :
    dependents (edges ++ edges') file = dependents edges file ++ dependents edges' file := by
  rw [dependents, List.filter_append, List.map_append]
  rfl

theorem dependents_cons (e : Edge) (edges : List Edge) (file : Text) :
    dependents (e :: edges) file = if e.dependency = file then e.dependent :: dependents edges file
      else dependents edges file := by
  rw [dependents, List.filter_cons]
  split <;> simp_all [dependents]

/-- A dependency that leads from no file or to no file, or from a file to itself, makes no
difference. -/
theorem clearsAlike_of_inert
    (h : e.dependent ∈ known → e.dependency ∈ known → e.dependent = e.dependency)
    (before after : List Edge) :
    Slots.ClearsAlike α known (dependents (before ++ e :: after))
      (dependents (before ++ after)) := by
  intro s hs file hknown hempty
  rw [dependents_append, dependents_append, dependents_cons]
  split
  · next hfile =>
      subst hfile
      refine Slots.clear_append_cons (fun hholds => hempty ?_) _ _
      rwa [h (hs.mem_of_holds hholds) hknown] at hholds
  · rfl

/-- Results for all files but one. -/
def allBut (file : Text) (known : List Text) : Slots Unit :=
  OrderedMap.ofList (known.map fun x => (x, if x = file then none else some ()))

theorem get?_allBut (file : Text) {x : Text} (hx : x ∈ known) :
    (allBut file known).get? x = some (if x = file then none else some ()) := by
  refine OrderedMap.get?_ofList_of_mem (List.mem_map.2 ⟨x, hx, rfl⟩) fun e he hkey => ?_
  obtain ⟨y, -, rfl⟩ := List.mem_map.1 he
  rw [show y = x from hkey]

theorem get?_allBut_ne_none (file x : Text) : (allBut file known).get? x ≠ none ↔ x ∈ known := by
  by_cases hx : x ∈ known
  · simp [get?_allBut file hx, hx]
  · refine iff_of_false (fun h => h (OrderedMap.get?_ofList_of_not_mem fun e he hkey => hx ?_)) hx
    obtain ⟨y, hy, rfl⟩ := List.mem_map.1 he
    exact hkey ▸ hy

/-- A dependency takes part in the invalidation of some files exactly if it leads from one of them
to another. -/
theorem takesPart_iff : TakesPart known e
    ↔ e.dependent ∈ known ∧ e.dependency ∈ known ∧ e.dependent ≠ e.dependency := by
  constructor
  · rintro ⟨α, before, after, slots, hslots, hdiffer⟩
    by_contra hinert
    refine hdiffer (invalidateRejected_congr (clearsAlike_of_inert ?_ before after)
      (fun x => (hslots x).1) known)
    intro hdependent hdependency
    by_contra hne
    exact hinert ⟨hdependent, hdependency, hne⟩
  · rintro ⟨hdependent, hdependency, hne⟩
    have hslots : ∀ x, (allBut e.dependency known).get? x ≠ none ↔ x ∈ known :=
      get?_allBut_ne_none e.dependency
    refine ⟨Unit, [], [], allBut e.dependency known, hslots, fun heq => ?_⟩
    -- the result of the dependent is kept without the dependency, and lost with it
    have hkept : (invalidateRejected [] (allBut e.dependency known) known).1.holds e.dependent
        = true := by
      refine (holds_invalidateRejected (fun x => (hslots x).1) (fun x y h => by cases h) _).2 ?_
      refine ⟨by simp [Slots.holds, get?_allBut _ hdependent, hne], fun ⟨g, hg, hchain⟩ => ?_⟩
      rcases hchain.cases_head with rfl | ⟨y, hxy, -⟩
      · simp [Slots.isCleared, get?_allBut _ hdependent, hne] at hg
      · cases hxy
    rw [← List.append_nil [], ← heq, List.nil_append, holds_invalidateRejected] at hkept
    · refine hkept.2 ⟨e.dependency, ?_, .single List.mem_cons_self⟩
      simp [Slots.isCleared, get?_allBut _ hdependency]
    · exact fun x => (hslots x).1
    · intro x y hxy
      obtain rfl := List.mem_singleton.1 hxy
      exact (hslots x).2 hdependent

end Edge

/-! ## Resolving -/

namespace Resolver

variable {r : Resolver} {importer specifier : Text}

/-- Whether a candidate of an import is a known file. -/
def HasMatch (r : Resolver) (importer specifier : Text) : Prop :=
  ∃ suffix ∈ suffixes, r.modulePath importer specifier ++ suffix ∈ r.known

/-- Whether a file is the first candidate of an import that is a known file. -/
def IsFirstMatch (r : Resolver) (importer specifier file : Text) : Prop :=
  ∃ before suffix after, suffixes = before ++ suffix :: after
    ∧ file = r.modulePath importer specifier ++ suffix ∧ file ∈ r.known
    ∧ ∀ earlier ∈ before, r.modulePath importer specifier ++ earlier ∉ r.known

/-- What is said of resolving an import: the result is the first candidate that is a known file, or
it is no known file, and the dependency on an import that matches no candidate takes no part in
invalidation. -/
structure ResolvesAsSaid (r : Resolver) (importer specifier : Text) : Prop where
  result : IsFirstMatch r importer specifier (r.resolve importer specifier)
    ∨ r.resolve importer specifier ∉ r.known
  inert : ¬ HasMatch r importer specifier →
    ¬ Edge.TakesPart r.known ⟨importer, r.resolve importer specifier⟩

theorem resolve_of_not_hasMatch (h : ¬ HasMatch r importer specifier) :
    r.resolve importer specifier = r.modulePath importer specifier := by
  have hfind : (suffixes.map fun suffix => r.modulePath importer specifier ++ suffix).find?
      r.known.contains = none := by
    refine List.find?_eq_none.2 fun candidate hcandidate hknown => h ?_
    obtain ⟨suffix, hsuffix, rfl⟩ := List.mem_map.1 hcandidate
    exact ⟨suffix, hsuffix, List.contains_iff_mem.1 hknown⟩
  rw [resolve, hfind, Option.getD_none]

theorem isFirstMatch_resolve (h : HasMatch r importer specifier) :
    IsFirstMatch r importer specifier (r.resolve importer specifier) := by
  obtain ⟨suffix, hsuffix, hmem⟩ := h
  obtain ⟨file, hfind⟩ : ∃ file, (suffixes.map fun suffix =>
      r.modulePath importer specifier ++ suffix).find? r.known.contains = some file := by
    refine Option.isSome_iff_exists.1 (List.find?_isSome.2 ?_)
    exact ⟨_, List.mem_map_of_mem hsuffix, List.contains_iff_mem.2 hmem⟩
  have hresolve : r.resolve importer specifier = file := by
    rw [resolve, hfind, Option.getD_some]
  obtain ⟨hknown, front, back, hcut, hfront⟩ := List.find?_eq_some_iff_append.1 hfind
  obtain ⟨before, rest, hsuffixes, rfl, hrest⟩ := List.map_eq_append_iff.1 hcut
  obtain ⟨found, after, rfl, hfound, rfl⟩ := List.map_eq_cons_iff.1 hrest
  refine ⟨before, found, after, hsuffixes, hresolve.trans hfound.symm,
    hresolve ▸ List.contains_iff_mem.1 hknown, fun earlier hearlier hmem => ?_⟩
  have hnot := hfront _ (List.mem_map_of_mem hearlier)
  rw [List.contains_iff_mem.2 hmem] at hnot
  cases hnot

/-- A known file with a suffix behind the module path is a candidate that matches. -/
theorem IsFirstMatch.hasMatch {file : Text} (h : IsFirstMatch r importer specifier file) :
    HasMatch r importer specifier := by
  obtain ⟨before, suffix, after, hsuffixes, rfl, hmem, -⟩ := h
  exact ⟨suffix, by simp [hsuffixes], hmem⟩

/-- **Where an import resolves as said.** It does exactly if a candidate is a known file or the
module path is none. Otherwise the result is the module path and a known file at once, and the
dependency on it takes part in invalidation as any other does that leads from a known file to
another. -/
theorem resolvesAsSaid_iff (r : Resolver) (importer specifier : Text) :
    (ResolvesAsSaid r importer specifier
        ↔ HasMatch r importer specifier ∨ r.modulePath importer specifier ∉ r.known)
      ∧ (¬ HasMatch r importer specifier →
        r.resolve importer specifier = r.modulePath importer specifier
          ∧ (Edge.TakesPart r.known ⟨importer, r.resolve importer specifier⟩
            ↔ importer ∈ r.known ∧ r.modulePath importer specifier ∈ r.known
              ∧ importer ≠ r.modulePath importer specifier)) := by
  constructor
  · constructor
    · intro hsaid
      rcases hsaid.result with hfirst | hunknown
      · exact Or.inl hfirst.hasMatch
      · by_cases hmatch : HasMatch r importer specifier
        · exact Or.inl hmatch
        · exact Or.inr (resolve_of_not_hasMatch hmatch ▸ hunknown)
    · intro h
      by_cases hmatch : HasMatch r importer specifier
      · exact ⟨Or.inl (isFirstMatch_resolve hmatch), fun hno => absurd hmatch hno⟩
      · have hunknown := h.resolve_left hmatch
        rw [← resolve_of_not_hasMatch hmatch] at hunknown
        exact ⟨Or.inr hunknown, fun _ hpart => hunknown (Edge.takesPart_iff.1 hpart).2.1⟩
  · intro hmatch
    rw [resolve_of_not_hasMatch hmatch]
    exact ⟨rfl, Edge.takesPart_iff⟩

/-- A specifier with the extension of its file matches no candidate and leads to the file. -/
theorem extension_resolves_to_file :
    let r : Resolver := ⟨["a.ts".toList, "b.ts".toList], some "/w".toList⟩
    isLocal "./b.ts".toList = true ∧ ¬ HasMatch r "a.ts".toList "./b.ts".toList
      ∧ r.resolve "a.ts".toList "./b.ts".toList = "b.ts".toList
      ∧ ¬ ResolvesAsSaid r "a.ts".toList "./b.ts".toList
      ∧ Edge.TakesPart r.known ⟨"a.ts".toList, "b.ts".toList⟩ := by
  intro r
  have hmatch : ¬ HasMatch r "a.ts".toList "./b.ts".toList := by
    unfold HasMatch
    decide +kernel
  have hresolve : r.resolve "a.ts".toList "./b.ts".toList = "b.ts".toList := by decide +kernel
  have hpart : Edge.TakesPart r.known ⟨"a.ts".toList, "b.ts".toList⟩ :=
    Edge.takesPart_iff.2 (by decide +kernel)
  exact ⟨by decide +kernel, hmatch, hresolve,
    fun hsaid => hsaid.inert hmatch (hresolve ▸ hpart), hpart⟩

end Resolver

end TypeCoverage
