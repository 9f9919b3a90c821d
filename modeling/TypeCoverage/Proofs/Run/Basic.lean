import TypeCoverage.Proofs.Imports.Invalidation
import TypeCoverage.Proofs.Store.Snapshot
import TypeCoverage.Run.Basic

/-!
# The steps of a run

What a run reads, which records it reuses, and what it leaves. Each step has one statement here,
and everything about runs and histories of runs rests on these.
-/

set_option autoImplicit false

namespace TypeCoverage

/-! ## Reading the files -/

/-- Whether two runs over the same files fail alike: with the same failure, or, if they come to the
files in different orders, each with that of another file that cannot be read. -/
def Failure.Alike (d : Disk) (files : List Text) (schedule schedule' : Schedule)
    (failure failure' : Failure) : Prop :=
  failure' = failure ∨ schedule' ≠ schedule ∧ ∃ p ∈ files, ∃ q ∈ files, p ≠ q
    ∧ SourceFile.unreadable? d p = some failure ∧ SourceFile.unreadable? d q = some failure'

/-- The schedule that comes to one of the files before all others. -/
def Schedule.first (path : Text) : Schedule where
  order files := if path ∈ files then path :: files.erase path else files
  perm files := by
    by_cases h : path ∈ files
    · rw [if_pos h]
      exact (List.perm_cons_erase h).symm
    · rw [if_neg h]

namespace SourceFile

variable {d : Disk} {cached : Bool} {path : Text} {paths : List Text} {s t : SourceFile}
  {sources : List SourceFile} {schedule schedule' : Schedule} {failure : Failure}

/-- A source file is what a path and the content it leads to give. -/
def IsLoaded (d : Disk) (cached : Bool) (s : SourceFile) : Prop :=
  ∃ content, d.content? s.path = some content ∧ s = ofContent s.path content cached

theorem load_eq_ok_iff :
    load d cached path = .ok s ↔ s.path = path ∧ s.IsLoaded d cached := by
  unfold load IsLoaded
  cases hread : d.read path with
  | ok content =>
      rw [Disk.read_eq_ok_iff] at hread
      simp only [Except.ok.injEq]
      constructor
      · rintro rfl
        exact ⟨rfl, content, hread, rfl⟩
      · rintro ⟨rfl, content', hcontent, hs⟩
        obtain rfl := Option.some.inj (hread.symm.trans hcontent)
        exact hs.symm
  | error fault =>
      simp only [reduceCtorEq, false_iff]
      rintro ⟨rfl, content, hcontent, -⟩
      rw [Disk.read_eq_ok_iff.2 hcontent] at hread
      cases hread

theorem IsLoaded.eq (hs : s.IsLoaded d cached) (ht : t.IsLoaded d cached)
    (h : s.path = t.path) : s = t := by
  obtain ⟨c, hc, hs⟩ := hs
  obtain ⟨c', hc', ht⟩ := ht
  rw [h] at hc
  obtain rfl := Option.some.inj (hc.symm.trans hc')
  rw [hs, ht, h]

theorem unreadable?_eq_none_iff :
    unreadable? d path = none ↔ ∃ content, d.read path = .ok content := by
  unfold unreadable?
  cases d.read path with
  | ok content => simp
  | error fault => simp

theorem mapM_load_eq_ok_iff : paths.mapM (load d cached) = .ok sources ↔
    sources.map (·.path) = paths ∧ ∀ s ∈ sources, s.IsLoaded d cached := by
  induction paths generalizing sources with
  | nil =>
      constructor
      · intro h
        obtain rfl : [] = sources := Except.ok.inj h
        simp
      · rintro ⟨h, -⟩
        rw [List.map_eq_nil_iff.1 h]
        rfl
  | cons path paths ih =>
      rw [List.mapM_cons, bind_eq_ok_iff]
      constructor
      · rintro ⟨s, hload, h⟩
        rw [bind_eq_ok_iff] at h
        obtain ⟨rest, hrest, h⟩ := h
        obtain rfl : s :: rest = sources := Except.ok.inj h
        obtain ⟨rfl, hs⟩ := load_eq_ok_iff.1 hload
        obtain ⟨hpaths, hall⟩ := ih.1 hrest
        exact ⟨by rw [List.map_cons, hpaths], by simpa using ⟨hs, hall⟩⟩
      · rintro ⟨hpaths, hall⟩
        cases sources with
        | nil => cases hpaths
        | cons s rest =>
            obtain ⟨rfl, hrest⟩ := List.cons_eq_cons.1 hpaths
            refine ⟨s, load_eq_ok_iff.2 ⟨rfl, hall s (by simp)⟩, bind_eq_ok_iff.2 ⟨rest, ?_, rfl⟩⟩
            exact ih.2 ⟨hrest, fun t ht => hall t (by simp [ht])⟩

theorem exists_mapM_load_eq_ok (cached : Bool) (h : ∀ p ∈ paths, unreadable? d p = none) :
    ∃ sources, paths.mapM (load d cached) = .ok sources := by
  induction paths with
  | nil => exact ⟨[], rfl⟩
  | cons path paths ih =>
      obtain ⟨content, hread⟩ := unreadable?_eq_none_iff.1 (h path (by simp))
      obtain ⟨sources, hsources⟩ := ih fun p hp => h p (by simp [hp])
      refine ⟨ofContent path content cached :: sources, ?_⟩
      rw [List.mapM_cons, load, hread, hsources]
      rfl

theorem findSome?_order_eq_none_iff : (schedule.order paths).findSome? (unreadable? d) = none
    ↔ ∀ p ∈ paths, unreadable? d p = none := by
  simp only [List.findSome?_eq_none_iff, (schedule.perm paths).mem_iff]

/-- Whether files can be read does not depend on the schedule. -/
theorem loadAll_eq_ok_iff : loadAll d cached paths schedule = .ok sources ↔
    sources.map (·.path) = paths ∧ ∀ s ∈ sources, s.IsLoaded d cached := by
  rw [← mapM_load_eq_ok_iff]
  unfold loadAll
  cases hfirst : (schedule.order paths).findSome? (unreadable? d) with
  | none => rfl
  | some failure =>
      simp only [reduceCtorEq, false_iff]
      intro hload
      obtain ⟨hpaths, hall⟩ := mapM_load_eq_ok_iff.1 hload
      have hnone : (schedule.order paths).findSome? (unreadable? d) = none := by
        refine findSome?_order_eq_none_iff.2 fun p hp => ?_
        rw [← hpaths] at hp
        obtain ⟨s, hs, rfl⟩ := List.mem_map.1 hp
        obtain ⟨content, hcontent, -⟩ := hall s hs
        exact unreadable?_eq_none_iff.2 ⟨content, Disk.read_eq_ok_iff.2 hcontent⟩
      rw [hnone] at hfirst
      cases hfirst

theorem loadAll_schedule (h : loadAll d cached paths schedule = .ok sources)
    (schedule' : Schedule) : loadAll d cached paths schedule' = .ok sources :=
  loadAll_eq_ok_iff.2 (loadAll_eq_ok_iff.1 h)

/-- The failure to read files is that of one of them. -/
theorem exists_unreadable (h : loadAll d cached paths schedule = .error failure) :
    ∃ p ∈ paths, unreadable? d p = some failure := by
  unfold loadAll at h
  cases hfirst : (schedule.order paths).findSome? (unreadable? d) with
  | none =>
      obtain ⟨sources, hsources⟩ :=
        exists_mapM_load_eq_ok cached (findSome?_order_eq_none_iff.1 hfirst)
      rw [hfirst, hsources] at h
      cases h
  | some failure' =>
      rw [hfirst] at h
      obtain rfl := Except.error.inj h
      obtain ⟨p, hp, hfailure⟩ := List.exists_of_findSome?_eq_some hfirst
      exact ⟨p, (schedule.perm paths).mem_iff.1 hp, hfailure⟩

/-- Where files cannot be read, they cannot by any schedule, and fail alike. -/
theorem exists_alike (schedule' : Schedule)
    (h : loadAll d cached paths schedule = .error failure) :
    ∃ failure', loadAll d cached paths schedule' = .error failure'
      ∧ failure.Alike d paths schedule schedule' failure' := by
  cases h' : loadAll d cached paths schedule' with
  | ok sources =>
      rw [loadAll_schedule h'] at h
      cases h
  | error failure' =>
      refine ⟨failure', rfl, ?_⟩
      by_cases hsame : failure' = failure
      · exact Or.inl hsame
      · obtain ⟨p, hp, hfailure⟩ := exists_unreadable h
        obtain ⟨q, hq, hfailure'⟩ := exists_unreadable h'
        refine Or.inr ⟨?_, p, hp, q, hq, ?_, hfailure, hfailure'⟩
        · rintro rfl
          exact hsame (Except.error.inj (h'.symm.trans h))
        · rintro rfl
          exact hsame (Option.some.inj (hfailure'.symm.trans hfailure))

/-- A source file as it is read without the cache. -/
def withoutDigest (s : SourceFile) : SourceFile := { s with digest := [] }

theorem loadAll_withoutDigest (h : loadAll d cached paths schedule = .ok sources) :
    loadAll d false paths schedule' = .ok (sources.map withoutDigest) := by
  obtain ⟨hpaths, hall⟩ := loadAll_eq_ok_iff.1 h
  refine loadAll_eq_ok_iff.2 ⟨?_, fun t ht => ?_⟩
  · rw [List.map_map, ← hpaths]
    rfl
  · obtain ⟨s, hs, rfl⟩ := List.mem_map.1 ht
    obtain ⟨content, hcontent, heq⟩ := hall s hs
    refine ⟨content, hcontent, ?_⟩
    rw [heq]
    rfl

end SourceFile

/-! ## Choosing the records -/

namespace Reuse

variable {d : Disk} {settings : Settings} {store : Store} {sources : List SourceFile}
  {s : SourceFile} {record : FileRecord}

theorem current?_eq_some_iff : current? store s = some record ↔
    store.get? s.path = some record ∧ record.digest = s.digest := by
  unfold current?
  rw [Option.filter_eq_some_iff]
  simp

/-- Whether one path stands for one source file among the sources. -/
def Functional (sources : List SourceFile) : Prop :=
  ∀ s ∈ sources, ∀ t ∈ sources, s.path = t.path → s = t

theorem get?_provisional (hsources : Functional sources) (hs : s ∈ sources) :
    (provisional store sources).get? s.path = some (current? store s) := by
  refine OrderedMap.get?_ofList_of_mem (List.mem_map.2 ⟨s, hs, rfl⟩) fun e he hpath => ?_
  obtain ⟨t, ht, rfl⟩ := List.mem_map.1 he
  rw [hsources t ht s hs hpath]

theorem mem_of_get?_provisional {x : Text} (hx : (provisional store sources).get? x ≠ none) :
    x ∈ sources.map (·.path) := by
  by_contra hnot
  refine hx (OrderedMap.get?_ofList_of_not_mem fun e he hpath => ?_)
  obtain ⟨s, hs, rfl⟩ := List.mem_map.1 he
  exact hnot (List.mem_map.2 ⟨s, hs, hpath⟩)

theorem dependent_mem {x y : Text} (h : Edge.Imports (edges settings d sources) x y) :
    x ∈ sources.map (·.path) := by
  unfold Edge.Imports edges Resolver.edges Resolver.edgesOf at h
  obtain ⟨f, hf, h⟩ := List.mem_flatMap.1 h
  obtain ⟨s, hs, rfl⟩ := List.mem_map.1 hf
  obtain ⟨specifier, -, h⟩ := List.mem_filterMap.1 h
  split at h
  · obtain ⟨rfl, -⟩ := Edge.mk.inj (Option.some.inj h)
    exact List.mem_map_of_mem hs
  · cases h

/-- A slot holds a record exactly if no chain of imports leads from its file to a file without
a current record. -/
theorem holds_slots (hcache : settings.cacheEnabled = true) (hsources : Functional sources)
    (hs : s ∈ sources) : (slots settings d store sources).1.holds s.path = true ↔
      ¬ ∃ g ∈ sources, current? store g = none ∧
        Relation.ReflTransGen (Edge.Imports (edges settings d sources)) s.path g.path := by
  unfold slots
  dsimp only
  rw [if_pos hcache]
  have hslots : ∀ x ∈ sources.map (·.path), (provisional store sources).get? x ≠ none := by
    intro x hx
    obtain ⟨t, ht, rfl⟩ := List.mem_map.1 hx
    simp [get?_provisional hsources ht]
  -- the empty slots are those of the files without a current record
  rw [Edge.holds_invalidateRejected (fun x hx => mem_of_get?_provisional hx)
    (fun x y hxy => hslots x (dependent_mem hxy))]
  constructor
  · rintro ⟨-, hno⟩ ⟨g, hg, hnone, hchain⟩
    exact hno ⟨g.path, by rw [Slots.isCleared_iff, get?_provisional hsources hg, hnone], hchain⟩
  · intro hno
    refine ⟨?_, fun ⟨x, hx, hchain⟩ => ?_⟩
    · rw [Slots.holds_iff, get?_provisional hsources hs]
      cases hcurrent : current? store s with
      | none => exact absurd ⟨s, hs, hcurrent, .refl⟩ hno
      | some record => exact ⟨record, rfl⟩
    · rw [Slots.isCleared_iff] at hx
      obtain ⟨g, hg, rfl⟩ := List.mem_map.1 (mem_of_get?_provisional (by rw [hx]; simp))
      rw [get?_provisional hsources hg] at hx
      exact hno ⟨g, hg, Option.some.inj hx, hchain⟩

/-- A record that a slot holds is the stored one, with the digest of the content at hand. -/
theorem current?_of_get?_slots (hsources : Functional sources) (hs : s ∈ sources)
    (h : (slots settings d store sources).1.get? s.path = some (some record)) :
    current? store s = some record := by
  unfold slots at h
  dsimp only at h
  have hkept : (provisional store sources).get? s.path = some (some record) := by
    split at h
    · have hnarrows := (Edge.invalidated_invalidateRejected (edges settings d sources)
        (sources.map (·.path)) (provisional store sources)).narrows
      rw [← hnarrows.get?_of_holds (Slots.holds_iff.2 ⟨record, h⟩)]
      exact h
    · exact h
  rw [get?_provisional hsources hs] at hkept
  exact Option.some.inj hkept

end Reuse

end TypeCoverage
