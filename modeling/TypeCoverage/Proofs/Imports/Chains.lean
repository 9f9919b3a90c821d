import TypeCoverage.Proofs.Imports.Alike
import TypeCoverage.Proofs.Imports.Invalidation

/-!
# Invalidation in relative and in absolute mode

Where every import of the files resolves alike in both modes, the chains of imports between the
files are the same, and so the same results are kept. An import resolves alike where it does not
stray.
-/

set_option autoImplicit false

namespace TypeCoverage.Resolver

open TypeCoverage.Path
open Relation (ReflTransGen)

variable {α : Type} {directory x y : Text} {files : List (Text × SourceUnit)}

/-- The dependencies of files in relative mode. -/
def relativeEdges (directory : Text) (files : List (Text × SourceUnit)) : List Edge :=
  (relative directory (files.map Prod.fst)).edges files

/-- The dependencies of the same files in absolute mode. -/
def absoluteEdges (directory : Text) (files : List (Text × SourceUnit)) : List Edge :=
  (absolute directory (files.map Prod.fst)).edges
    (files.map fun file => (within directory file.1, file.2))

/-- Whether every import of a local module in the files resolves alike in both modes. -/
def AllAlike (directory : Text) (files : List (Text × SourceUnit)) : Prop :=
  ∀ file ∈ files, ∀ specifier ∈ file.2.statements.filterMap Statement.specifier?,
    isLocal specifier = true → ResolvesAlike directory file.1 specifier

theorem imports_edges_iff {r : Resolver} :
    Edge.Imports (r.edges files) x y ↔ ∃ file ∈ files, file.1 = x
      ∧ ∃ specifier ∈ file.2.statements.filterMap Statement.specifier?,
        isLocal specifier = true ∧ r.resolve x specifier = y := by
  unfold Edge.Imports edges edgesOf
  constructor
  · intro h
    obtain ⟨file, hfile, hedge⟩ := List.mem_flatMap.1 h
    obtain ⟨specifier, hspecifier, hedge⟩ := List.mem_filterMap.1 hedge
    split at hedge
    · next hlocal =>
        obtain ⟨hx, hy⟩ := Edge.mk.inj (Option.some.inj hedge)
        exact ⟨file, hfile, hx, specifier, hspecifier, hlocal, by rw [← hx, hy]⟩
    · cases hedge
  · rintro ⟨file, hfile, rfl, specifier, hspecifier, hlocal, rfl⟩
    refine List.mem_flatMap.2 ⟨file, hfile, List.mem_filterMap.2 ⟨specifier, hspecifier, ?_⟩⟩
    rw [if_pos hlocal]

/-- Between files, the imports are the same in both modes. -/
theorem imports_within_iff (hkeys : ∀ file ∈ files,
      ∃ candidate, Selection.key? directory false candidate = some file.1)
    (halike : AllAlike directory files) (hy : y ∈ files.map Prod.fst) :
    Edge.Imports (absoluteEdges directory files) (within directory x) (within directory y)
      ↔ Edge.Imports (relativeEdges directory files) x y := by
  have hall : ∀ file ∈ files.map Prod.fst,
      ∃ candidate, Selection.key? directory false candidate = some file := by
    intro key hkey
    obtain ⟨file, hfile, rfl⟩ := List.mem_map.1 hkey
    exact hkeys file hfile
  rw [absoluteEdges, relativeEdges, imports_edges_iff, imports_edges_iff]
  constructor
  · rintro ⟨_, hmem, heq, specifier, hspecifier, hlocal, hresolve⟩
    obtain ⟨file, hfile, rfl⟩ := List.mem_map.1 hmem
    obtain rfl := within_injective heq
    have hiff :=
      halike file hfile specifier hspecifier hlocal _ hall (List.mem_map_of_mem hfile) y hy
    exact ⟨file, hfile, rfl, specifier, hspecifier, hlocal, hiff.2 hresolve⟩
  · rintro ⟨file, hfile, rfl, specifier, hspecifier, hlocal, hresolve⟩
    have hiff :=
      halike file hfile specifier hspecifier hlocal _ hall (List.mem_map_of_mem hfile) y hy
    exact ⟨_, List.mem_map_of_mem hfile, rfl, specifier, hspecifier, hlocal, hiff.1 hresolve⟩

theorem mem_of_imports_relative (h : Edge.Imports (relativeEdges directory files) x y) :
    x ∈ files.map Prod.fst := by
  obtain ⟨file, hfile, rfl, -⟩ := imports_edges_iff.1 h
  exact List.mem_map_of_mem hfile

theorem mem_of_imports_absolute (h : Edge.Imports (absoluteEdges directory files) x y) :
    ∃ file ∈ files.map Prod.fst, within directory file = x := by
  obtain ⟨_, hmem, rfl, -⟩ := imports_edges_iff.1 h
  obtain ⟨file, hfile, rfl⟩ := List.mem_map.1 hmem
  exact ⟨file.1, List.mem_map_of_mem hfile, rfl⟩

/-- The chains of imports from file to file are the same in both modes. -/
theorem chain_within_iff (hkeys : ∀ file ∈ files,
      ∃ candidate, Selection.key? directory false candidate = some file.1)
    (halike : AllAlike directory files) (hy : y ∈ files.map Prod.fst) :
    ReflTransGen (Edge.Imports (absoluteEdges directory files)) (within directory x)
        (within directory y)
      ↔ ReflTransGen (Edge.Imports (relativeEdges directory files)) x y := by
  constructor
  · intro hchain
    generalize hstart : within directory x = start at hchain
    -- from the end of the chain back to its head, which is a file
    induction hchain using ReflTransGen.head_induction_on generalizing x with
    | refl => rw [within_injective hstart]
    | @head a b hab hrest ih =>
        obtain ⟨z, hz, rfl⟩ : ∃ z ∈ files.map Prod.fst, within directory z = b := by
          rcases hrest.cases_head with hend | ⟨c, hbc, -⟩
          · exact ⟨y, hy, hend.symm⟩
          · exact mem_of_imports_absolute hbc
        subst hstart
        exact (ih rfl).head ((imports_within_iff hkeys halike hz).1 hab)
  · intro hchain
    induction hchain using ReflTransGen.head_induction_on with
    | refl => exact .refl
    | @head a b hab hrest ih =>
        have hb : b ∈ files.map Prod.fst := by
          rcases hrest.cases_head with rfl | ⟨c, hbc, -⟩
          · exact hy
          · exact mem_of_imports_relative hbc
        exact ih.head ((imports_within_iff hkeys halike hb).2 hab)

/-- Slots of the same files in both modes, with the same results. -/
structure SlotsWithin (directory : Text) (files : List Text) (slots slots' : Slots α) : Prop where
  mem_iff : ∀ x, slots.get? x ≠ none ↔ x ∈ files
  mem_iff_within : ∀ x, slots'.get? x ≠ none ↔ x ∈ files.map (within directory)
  get?_within : ∀ x ∈ files, slots'.get? (within directory x) = slots.get? x

/-- Where every import resolves alike in both modes, and the slots of both hold the same results for
the same files, invalidation keeps the same results. -/
theorem holds_invalidateRejected_within {slots slots' : Slots α} (hkeys : ∀ file ∈ files,
      ∃ candidate, Selection.key? directory false candidate = some file.1)
    (halike : AllAlike directory files)
    (hslots : SlotsWithin directory (files.map Prod.fst) slots slots')
    (hx : x ∈ files.map Prod.fst) :
    (Edge.invalidateRejected (absoluteEdges directory files) slots'
        ((files.map Prod.fst).map (within directory))).1.holds (within directory x)
      = (Edge.invalidateRejected (relativeEdges directory files) slots
        (files.map Prod.fst)).1.holds x := by
  have hholds : slots'.holds (within directory x) = slots.holds x := by
    rw [Slots.holds, Slots.holds, hslots.get?_within x hx]
  have hcleared : ∀ y ∈ files.map Prod.fst,
      slots'.isCleared (within directory y) = slots.isCleared y := by
    intro y hy
    rw [Slots.isCleared, Slots.isCleared, hslots.get?_within y hy]
  rw [Bool.eq_iff_iff, Edge.holds_invalidateRejected (fun y => (hslots.mem_iff_within y).1) ?_,
    Edge.holds_invalidateRejected (fun y => (hslots.mem_iff y).1) ?_, hholds]
  · refine and_congr_right fun _ => not_congr ?_
    constructor
    · rintro ⟨g, hg, hchain⟩
      obtain ⟨y, hy, rfl⟩ : ∃ y ∈ files.map Prod.fst, within directory y = g := by
        have hslot : slots'.get? g ≠ none := by simp [Slots.isCleared_iff.1 hg]
        exact List.mem_map.1 ((hslots.mem_iff_within g).1 hslot)
      exact ⟨y, by rwa [← hcleared y hy], (chain_within_iff hkeys halike hy).1 hchain⟩
    · rintro ⟨y, hy, hchain⟩
      have hmem : y ∈ files.map Prod.fst := by
        refine (hslots.mem_iff y).1 ?_
        simp [Slots.isCleared_iff.1 hy]
      exact ⟨within directory y, by rwa [hcleared y hmem],
        (chain_within_iff hkeys halike hmem).2 hchain⟩
  · exact fun a b hab => (hslots.mem_iff a).2 (mem_of_imports_relative hab)
  · intro a b hab
    obtain ⟨file, hfile, rfl⟩ := mem_of_imports_absolute hab
    exact (hslots.mem_iff_within _).2 (List.mem_map_of_mem hfile)

/-- **Agreement of the modes.** An import resolves to the same file in relative and in absolute
mode, whatever files are selected, exactly if its module path does not stray. Where no import of a
local module in the files strays, the same results are kept in both modes. -/
theorem modes_agree (habsolute : isAbsolute directory = true)
    (hnormal : Path.normalize directory = directory) :
    (∀ importer specifier,
        (∃ candidate, Selection.key? directory false candidate = some importer) →
        (ResolvesAlike directory importer specifier ↔ ¬ Strays directory importer specifier))
      ∧ ∀ (files : List (Text × SourceUnit)) (slots slots' : Slots α),
        (∀ file ∈ files, ∃ candidate, Selection.key? directory false candidate = some file.1) →
        (∀ file ∈ files, ∀ specifier ∈ file.2.statements.filterMap Statement.specifier?,
          isLocal specifier = true → ¬ Strays directory file.1 specifier) →
        SlotsWithin directory (files.map Prod.fst) slots slots' →
        ∀ x ∈ files.map Prod.fst,
          (Edge.invalidateRejected (absoluteEdges directory files) slots'
              ((files.map Prod.fst).map (within directory))).1.holds (within directory x)
            = (Edge.invalidateRejected (relativeEdges directory files) slots
              (files.map Prod.fst)).1.holds x := by
  refine ⟨fun importer specifier => resolvesAlike_iff habsolute hnormal, ?_⟩
  intro files slots slots' hkeys hstays hslots x hx
  have halike : AllAlike directory files := fun file hfile specifier hspecifier hlocal =>
    (resolvesAlike_iff habsolute hnormal (hkeys file hfile)).2
      (hstays file hfile specifier hspecifier hlocal)
  exact holds_invalidateRejected_within hkeys halike hslots hx

/-- A file that imports the changed file beside it loses its result in both modes. -/
theorem modes_agree_sibling :
    let a : Text := ['a', '.', 't', 's']
    let b : Text := ['b', '.', 't', 's']
    let files := [(a, SourceUnit.parse "import './b'".toList), (b, SourceUnit.parse [])]
    let slots : Slots Nat := OrderedMap.ofList [(a, some 1), (b, none)]
    let slots' : Slots Nat :=
      OrderedMap.ofList [(within ['/', 'w'] a, some 1), (within ['/', 'w'] b, none)]
    isAbsolute ['/', 'w'] = true ∧ Path.normalize ['/', 'w'] = ['/', 'w']
      ∧ (∀ file ∈ files, Selection.key? ['/', 'w'] false file.1 = some file.1)
      ∧ (∀ file ∈ files, ∀ specifier ∈ file.2.statements.filterMap Statement.specifier?,
          isLocal specifier = true → ¬ Strays ['/', 'w'] file.1 specifier)
      ∧ SlotsWithin ['/', 'w'] [a, b] slots slots'
      ∧ ResolvesAlike ['/', 'w'] a ['.', '/', 'b']
      ∧ (Edge.invalidateRejected (relativeEdges ['/', 'w'] files) slots [a, b]).1.holds a = false
      ∧ (Edge.invalidateRejected (absoluteEdges ['/', 'w'] files) slots'
          ([a, b].map (within ['/', 'w']))).1.holds (within ['/', 'w'] a) = false := by
  intro a b files slots slots'
  have hnormal : Path.normalize ['/', 'w'] = ['/', 'w'] := by decide
  have hkeys : ∀ file ∈ files, Selection.key? ['/', 'w'] false file.1 = some file.1 := by
    decide +kernel
  have hspecifiers : ∀ file ∈ files,
      ∀ specifier ∈ file.2.statements.filterMap Statement.specifier?,
        file.1 = a ∧ specifier = ['.', '/', 'b'] := by
    decide +kernel
  have hbeside : ¬ Strays ['/', 'w'] a ['.', '/', 'b'] := by
    rintro ⟨hdiffer, -⟩
    exact hdiffer (by decide)
  have hstays : ∀ file ∈ files,
      ∀ specifier ∈ file.2.statements.filterMap Statement.specifier?,
        isLocal specifier = true → ¬ Strays ['/', 'w'] file.1 specifier := by
    intro file hfile specifier hspecifier _
    obtain ⟨hfile, rfl⟩ := hspecifiers file hfile specifier hspecifier
    rwa [hfile]
  have hslots : SlotsWithin ['/', 'w'] [a, b] slots slots' := by
    have hfiles : slots.keys = [a, b] := by decide
    have hfiles' : slots'.keys = [a, b].map (within ['/', 'w']) := by decide
    refine ⟨fun x => ?_, fun x => ?_, by decide⟩
    · rw [← OrderedMap.mem_keys_iff, hfiles]
    · rw [← OrderedMap.mem_keys_iff, hfiles']
  obtain ⟨hresolves, hkept⟩ := modes_agree (α := Nat) rfl hnormal
  have hlost : (Edge.invalidateRejected (relativeEdges ['/', 'w'] files) slots
      [a, b]).1.holds a = false := by decide +kernel
  refine ⟨rfl, hnormal, hkeys, hstays, hslots, ?_, hlost, ?_⟩
  · exact (hresolves a _ ⟨a, hkeys _ List.mem_cons_self⟩).2 hbeside
  · exact (hkept files slots slots' (fun file hfile => ⟨file.1, hkeys file hfile⟩) hstays hslots a
      List.mem_cons_self).trans hlost

end TypeCoverage.Resolver
