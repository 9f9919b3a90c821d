import TypeCoverage.Proofs.Run.Decision

/-!
# Failed runs

A run can fail in loading its store, in reading a file, and in two places of saving, where
directories may have been made already. Wherever it fails, no file has been changed, removed or
made, so the next run loads what this one loaded.
-/

set_option autoImplicit false

namespace TypeCoverage.Run

variable {a : Analyzer} {settings : Settings} {d : Disk} {files : List Text} {schedule : Schedule}

/-- A run that fails leaves the disk alone, or what an attempt to save a store leaves. -/
theorem eq_or_save_of_failed {failure : Failure}
    (h : (start a settings d files schedule).outcome = .error failure) :
    (start a settings d files schedule).disk = d
      ∨ ∃ store : Store, store.save d settings.cacheDir
        = ((start a settings d files schedule).disk, .error failure) := by
  rcases start_cases a settings d files schedule with ⟨-, hdisk, -⟩ | ⟨store, sources, hv⟩
  · exact Or.inl hdisk
  · exact Or.inr ⟨_, hv.exists_save_error h⟩

/-- **A failed run changes no file.** Whatever the disk, the files, the settings and the analyzer,
a run that fails leaves at every place the file that was there, with its content, and no file where
there was none; what is loaded from the cache directory afterwards, a store or a failure, is what
was loaded before. Unless the run has failed to keep its records, the whole disk is as it was. -/
theorem failed_keeps_files {failure : Failure}
    (h : (start a settings d files schedule).outcome = .error failure) :
    (∀ l content, (start a settings d files schedule).disk.node? l = some (.file content)
        ↔ d.node? l = some (.file content))
      ∧ Store.load (start a settings d files schedule).disk settings.cacheDir
        = Store.load d settings.cacheDir
      ∧ ((∀ fault, failure ≠ .store fault) → (start a settings d files schedule).disk = d) := by
  rcases eq_or_save_of_failed h with hdisk | ⟨store, hsave⟩
  · rw [hdisk]
    exact ⟨fun _ _ => Iff.rfl, rfl, fun _ => rfl⟩
  · obtain ⟨hadds, fault, hfault⟩ := Store.addsDirectories_of_save_error hsave
    refine ⟨fun l content => ⟨hadds.file l content, hadds.node? l _⟩, ?_, fun hno => ?_⟩
    · rw [Store.load_eq, Store.load_eq, Store.content?_of_save_error hsave]
    · exact absurd hfault (hno fault)

/-- Settings with a cache directory that cannot be made, since a file of the project is in the
way; a directory before it can be made and is missing. -/
def blockedSettings : Settings :=
  { cacheEnabled := true, cacheDir? := some "new/../a.ts/cache".toList }

/-- A run that analyzes its files and makes a directory before it fails. -/
def blockedRun : Run :=
  start Analysis.lexical blockedSettings (projectDisk "let a: any = 1;\n" "") [aFile, bFile]

theorem failed_keeps_files_blocked : ∃ failure, blockedRun.outcome = .error failure
    ∧ blockedRun.visits.length = 2
    ∧ blockedRun.disk.node? (inProject ['n', 'e', 'w']) = some .directory
    ∧ (∀ l content, blockedRun.disk.node? l = some (.file content)
      ↔ (projectDisk "let a: any = 1;\n" "").node? l = some (.file content))
    ∧ Store.load blockedRun.disk blockedSettings.cacheDir
      = Store.load (projectDisk "let a: any = 1;\n" "") blockedSettings.cacheDir := by
  have hcomputed : blockedRun.outcome.toOption.isNone = true ∧ blockedRun.visits.length = 2
      ∧ blockedRun.disk.node? (inProject ['n', 'e', 'w']) = some .directory := by
    decide +kernel
  obtain ⟨hfails, hvisits, hmade⟩ := hcomputed
  obtain ⟨failure, hfailure⟩ := toOption_eq_none_iff.1 (Option.isNone_iff_eq_none.1 hfails)
  obtain ⟨hfiles, hload, -⟩ := failed_keeps_files hfailure
  exact ⟨failure, hfailure, hvisits, hmade, hfiles, hload⟩

end TypeCoverage.Run
