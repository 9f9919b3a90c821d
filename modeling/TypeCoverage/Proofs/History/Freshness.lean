import TypeCoverage.Analysis.Lexical
import TypeCoverage.Proofs.History.Basic

/-!
# Changed imports

When a round reuses the record of a file, what can have changed below that file since it was
analyzed? Every import that the round lists has the content it had when it was itself analyzed
last. That is the content it had when the importing file was analyzed last only if no round in
between analyzed the import without the file.
-/

set_option autoImplicit false

namespace TypeCoverage.History

variable {directory : Text} {m : Round} {h : List Round}

/-- What a round that succeeds with the cache finds recorded of a file that it reuses, and of
every listed file that leads to it by imports. -/
theorem exists_recorded_of_reused (hlinked : Linked directory (m :: h))
    (hcache : m.settings.cacheEnabled = true) (hok : m.Succeeds) {v : Visit}
    (hv : v ∈ m.run.visits) (hhit : v.origin ≠ .computed) {g : Text} (hg : g ∈ m.files)
    (hchain : Relation.ReflTransGen
      (Edge.Imports (Reuse.edges m.settings m.disk m.run.sources)) v.source.path g) :
    ∃ n s t record, h.find? (fun r => r.records g) = some n ∧ Listed m t ∧ t.path = g
      ∧ s.path = g ∧ s.digest = t.digest ∧ Recorded h n s record := by
  obtain ⟨result, hresult⟩ := hok
  obtain ⟨store, sources, hvisiting⟩ := Run.visiting_of_ok hresult
  have htraced := traced_of_visiting hlinked hcache hvisiting
  have hsources : m.run.sources = sources := hvisiting.sources_eq
  rw [hsources] at hchain
  have hcurrent : ¬ store.IsOutdated m.disk g := fun houtdated =>
    hhit ((hvisiting.origin_eq_computed_iff hcache hv).2 ⟨g, hg, houtdated, hchain⟩)
  rw [← hvisiting.map_path_eq] at hg
  obtain ⟨t, ht, rfl⟩ := List.mem_map.1 hg
  rw [Run.isOutdated_iff (hvisiting.isLoaded hcache ht)] at hcurrent
  obtain ⟨record, hrecord⟩ := Option.ne_none_iff_exists'.1 hcurrent
  obtain ⟨hstored, hdigest⟩ := Reuse.current?_eq_some_iff.1 hrecord
  obtain ⟨n, s, hn, hpath, hrecorded⟩ := htraced t.path record hstored
  exact ⟨n, s, t, record, hn, listed_of_mem_sources hvisiting hcache ht, rfl, hpath,
    by rw [← hrecorded.digest, hdigest], hrecorded⟩

/-- **When a changed import is noticed.** In a history of rounds that all use the cache and
succeed, let the latest round reuse the record of a file, and let a listed file be reached from
it by imports of that round. Then both were analyzed before, the import has the content that it
had when it was analyzed last, and so it has the content that it had when the reused file was
analyzed last exactly if these two contents are the same. -/
theorem reused_import_fresh_iff (hlinked : Linked directory (m :: h))
    (hrounds : ∀ r ∈ m :: h, r.settings.cacheEnabled = true ∧ r.Succeeds)
    (hfree : CollisionFree (m :: h)) {v : Visit} (hv : v ∈ m.run.visits)
    (hhit : v.origin ≠ .computed) {g : Text} (hg : g ∈ m.files)
    (hchain : Relation.ReflTransGen
      (Edge.Imports (Reuse.edges m.settings m.disk m.run.sources)) v.source.path g) :
    ∃ n n', h.find? (fun r => r.analyzes v.source.path) = some n
      ∧ h.find? (fun r => r.analyzes g) = some n'
      ∧ m.content? g ≠ none ∧ m.content? g = n'.content? g
      ∧ (m.content? g = n.content? g ↔ n'.content? g = n.content? g) := by
  have hanalyzes : ∀ path, h.find? (fun r => r.records path)
      = h.find? fun r => r.analyzes path := by
    intro path
    refine List.find?_congr fun r hr => ?_
    obtain ⟨hcache, hok⟩ := hrounds r (by simp [hr])
    exact Round.records_eq_analyzes hcache hok path
  obtain ⟨hcache, hok⟩ := hrounds m (by simp)
  have hfile : v.source.path ∈ m.files := by
    obtain ⟨result, hresult⟩ := hok
    obtain ⟨store, sources, hvisiting⟩ := Run.visiting_of_ok hresult
    rw [← hvisiting.map_path_eq]
    exact List.mem_map_of_mem (hvisiting.exists_source_of_mem_visits hv).1
  obtain ⟨n, -, -, -, hn, -⟩ :=
    exists_recorded_of_reused hlinked hcache hok hv hhit hfile .refl
  obtain ⟨n', s, t, record, hn', hlisted, rfl, hpath, hdigest, hrecorded⟩ :=
    exists_recorded_of_reused hlinked hcache hok hv hhit hg hchain
  have hsame := (hfree.eq (by simp) (List.mem_cons_of_mem _ (List.mem_of_find?_eq_some hn'))
    hlisted hrecorded.listed hpath.symm hdigest.symm).2
  obtain ⟨c, -, hc, -⟩ := hlisted.mem_contents (h := m :: h) (by simp)
  rw [hanalyzes] at hn hn'
  exact ⟨n, n', hn, hn', by rw [hc]; simp, hsame, by rw [hsame]⟩

/-! ## A missed change -/

/-- A round over both files, of which the first imports the second. -/
def bothRound : Round where
  analyzer := Analysis.lexical
  settings := { cacheEnabled := true }
  disk := projectDisk "import b from './b';\nlet one: any = b\n" "export const b: number = 1"
  files := [aFile, bFile]

/-- A round over the second file alone, after it was edited. -/
def partialRound : Round :=
  { bothRound with
    disk := bothRound.run.disk.put (inProject bFile)
      (.file (Utf8.encode "export const b: string = 'one'".toList))
    files := [bFile] }

/-- A round over both files again, with nothing edited since. -/
def againRound : Round := { bothRound with disk := partialRound.run.disk }

/-- What is computed about the three rounds. -/
theorem missedRounds_computed :
    (againRound.content? (Store.snapshotPath Settings.defaultCacheDir)
        = partialRound.run.disk.content? (Store.snapshotPath Settings.defaultCacheDir)
      ∧ partialRound.content? (Store.snapshotPath Settings.defaultCacheDir)
        = bothRound.run.disk.content? (Store.snapshotPath Settings.defaultCacheDir)
      ∧ bothRound.content? (Store.snapshotPath Settings.defaultCacheDir) = none)
    ∧ (againRound.run.outcome.isOk = true ∧ partialRound.run.outcome.isOk = true
      ∧ bothRound.run.outcome.isOk = true)
    ∧ CollisionFree [againRound, partialRound, bothRound]
    ∧ (∃ v ∈ againRound.run.visits, v.source.path = aFile ∧ v.origin ≠ .computed)
    ∧ ⟨aFile, bFile⟩ ∈ Reuse.edges againRound.settings againRound.disk againRound.run.sources
    ∧ (partialRound.analyzes aFile = false ∧ bothRound.analyzes aFile = true)
    ∧ againRound.content? bFile ≠ bothRound.content? bFile := by
  decide +kernel

theorem missedRounds_linked :
    Linked Settings.defaultCacheDir [againRound, partialRound, bothRound] := by
  obtain ⟨⟨hagain, hpartial, hboth⟩, -⟩ := missedRounds_computed
  exact ⟨fun _ => rfl, Or.inr hagain, fun _ => rfl, Or.inr hpartial, fun _ => rfl, Or.inl hboth,
    trivial⟩

theorem missedRounds_succeed : ∀ r ∈ [againRound, partialRound, bothRound],
    r.settings.cacheEnabled = true ∧ r.Succeeds := by
  obtain ⟨-, ⟨hagain, hpartial, hboth⟩, -⟩ := missedRounds_computed
  simp only [List.mem_cons, List.not_mem_nil, or_false, forall_eq_or_imp, forall_eq]
  exact ⟨⟨rfl, Round.isOk_iff.1 hagain⟩, ⟨rfl, Round.isOk_iff.1 hpartial⟩,
    ⟨rfl, Round.isOk_iff.1 hboth⟩⟩

theorem reused_import_fresh_iff_again : ∃ v ∈ againRound.run.visits,
    v.source.path = aFile ∧ ∃ n n',
      [partialRound, bothRound].find? (fun r => r.analyzes v.source.path) = some n
      ∧ [partialRound, bothRound].find? (fun r => r.analyzes bFile) = some n'
      ∧ againRound.content? bFile ≠ none ∧ againRound.content? bFile = n'.content? bFile
      ∧ (againRound.content? bFile = n.content? bFile
        ↔ n'.content? bFile = n.content? bFile) := by
  obtain ⟨-, -, hfree, ⟨v, hv, hpath, hhit⟩, hedge, -⟩ := missedRounds_computed
  exact ⟨v, hv, hpath, reused_import_fresh_iff missedRounds_linked missedRounds_succeed hfree
    hv hhit (by decide) (hpath ▸ .single hedge)⟩

/-- A changed import can be missed: a round that analyzes only the import takes note of its new
content, and the file that imports it is not analyzed again. -/
theorem reused_import_changed :
    Linked Settings.defaultCacheDir [againRound, partialRound, bothRound]
      ∧ (∀ r ∈ [againRound, partialRound, bothRound],
        r.settings.cacheEnabled = true ∧ r.Succeeds)
      ∧ CollisionFree [againRound, partialRound, bothRound]
      ∧ (∃ v ∈ againRound.run.visits, v.source.path = aFile ∧ v.origin ≠ .computed)
      ∧ bFile ∈ againRound.files
      ∧ Relation.ReflTransGen (Edge.Imports (Reuse.edges againRound.settings againRound.disk
        againRound.run.sources)) aFile bFile
      ∧ [partialRound, bothRound].find? (fun r => r.analyzes aFile) = some bothRound
      ∧ againRound.content? bFile ≠ bothRound.content? bFile := by
  obtain ⟨-, -, hfree, hreused, hedge, ⟨hpartial, hboth⟩, hchanged⟩ := missedRounds_computed
  refine ⟨missedRounds_linked, missedRounds_succeed, hfree, hreused, by decide, .single hedge, ?_,
    hchanged⟩
  rw [List.find?_cons, List.find?_cons, hpartial, hboth]

end TypeCoverage.History
