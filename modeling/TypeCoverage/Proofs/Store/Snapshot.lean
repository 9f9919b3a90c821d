import TypeCoverage.Proofs.Disk
import TypeCoverage.Proofs.Store.RoundTrip
import TypeCoverage.Store.Snapshot

/-!
# Loading and saving a store

What is loaded depends on the content of the snapshot alone. Saving leaves the whole snapshot of
the store; where it fails, every file is as it was, and only directories may have been added.
-/

set_option autoImplicit false

namespace TypeCoverage.Store

variable {s : Store} {d d' : Disk} {directory : Text}

/-- The store of a snapshot's content, if there is a snapshot. -/
def ofContent? : Option Bytes → Except Failure (Store × Bool)
  | some content => (ofSnapshot content).mapError .snapshot
  | none => .ok (empty, false)

theorem load_eq (d : Disk) (directory : Text) :
    load d directory = ofContent? (d.content? (snapshotPath directory)) := by
  unfold load
  dsimp only
  rw [Disk.isFile_eq]
  cases hc : d.content? (snapshotPath directory) with
  | none => rfl
  | some content =>
      rw [Disk.read_eq_ok_iff.2 hc]
      rfl

/-- The loaded store is empty, or the one that the snapshot was made from. -/
theorem eq_normal_of_ofContent? {t : Store} {isOld : Bool}
    (h : ofContent? (some s.snapshot) = .ok (t, isOld)) : t = s.normal := by
  have hread := toOption_ofSnapshot s
  rw [toOption_eq_some_iff.2 (mapError_eq_ok_iff.1 h)] at hread
  split at hread
  · exact (Prod.mk.inj (Option.some.inj hread)).1
  · cases hread

/-- Saving what fits makes a snapshot that is loaded again. -/
theorem ofContent?_snapshot (h : s.Fits) :
    ofContent? (some s.snapshot) = .ok (s.normal, false) := by
  have hread := toOption_ofSnapshot s
  rw [if_pos h] at hread
  exact mapError_eq_ok_iff.2 (toOption_eq_some_iff.1 hread)

/-! ## Saving -/

/-- The snapshot stands right below its directory, however that is written. -/
theorem exists_snapshotPath_eq (h : directory ≠ []) : ∃ base,
    snapshotPath directory = base ++ '/' :: snapshotName
      ∧ (directory = base ∨ directory = base ++ ['/']) := by
  unfold snapshotPath
  rw [if_neg h]
  split
  · next hlast =>
      refine ⟨directory.dropLast, ?_, Or.inr ?_⟩
      · conv => lhs; rw [← List.dropLast_concat_getLast h]
        rw [List.getLast?_eq_some_getLast h] at hlast
        rw [Option.some.inj hlast, List.append_assoc]
        rfl
      · rw [List.getLast?_eq_some_getLast h] at hlast
        conv => lhs; rw [← List.dropLast_concat_getLast h, Option.some.inj hlast]
  · exact ⟨directory, rfl, Or.inl rfl⟩

/-- Where a snapshot is, its directory and what is above that are directories. -/
theorem isDirectory_of_content? {content : Bytes} (h : directory ≠ [])
    (hcontent : d.content? (snapshotPath directory) = some content) :
    ∀ q ∈ directory :: Disk.ancestors directory, d.isDirectory q = true := by
  obtain ⟨base, hpath, hdirectory⟩ := exists_snapshotPath_eq h
  rw [hpath] at hcontent
  cases hl : d.locate (base ++ '/' :: snapshotName) with
  | error fault => simp [Disk.content?, Disk.at?, hl] at hcontent
  | ok l => exact Disk.isDirectory_above hl hdirectory h

/-- Before the snapshot is written, directories may have been added and nothing else. -/
theorem addsDirectories_of_made {made : Except SystemFault Unit}
    (h : (if d.hasPath directory then (d, .ok ()) else d.makeDirectories directory) = (d', made)) :
    d.AddsDirectories d' := by
  split at h
  · obtain rfl := (Prod.mk.inj h).1
    exact Disk.AddsDirectories.refl d
  · have hmade := Disk.addsDirectories_makeDirectories d directory
    rw [h] at hmade
    exact hmade

/-- Saving makes the directory, if it is not there, and writes the snapshot. -/
theorem exists_write_of_save (h : s.save d directory = (d', .ok ())) :
    ∃ d₁, d.Extends d₁ ∧ d₁.write (snapshotPath directory) s.snapshot = .ok d' := by
  unfold save at h
  split at h
  next d₁ made hmade =>
    split at h
    · cases h
    · have hextends : d.Extends d₁ := by
        exact (addsDirectories_of_made hmade).toExtends
      dsimp only at h
      split at h
      · next d₂ hwrite =>
          obtain rfl := (Prod.mk.inj h).1
          exact ⟨d₁, hextends, hwrite⟩
      · cases h

/-- A store that was saved is in the snapshot. -/
theorem content?_of_save (h : s.save d directory = (d', .ok ())) :
    d'.content? (snapshotPath directory) = some s.snapshot := by
  obtain ⟨d₁, -, hwrite⟩ := exists_write_of_save h
  exact Disk.content?_of_write hwrite

/-- Saving leaves every file alone but the snapshot. -/
theorem content?_of_save_of_ne {path : Text} {content : Bytes}
    (h : s.save d directory = (d', .ok ())) (hcontent : d.content? path = some content)
    (hne : d'.locate path ≠ d'.locate (snapshotPath directory)) :
    d'.content? path = some content := by
  obtain ⟨d₁, hextends, hwrite⟩ := exists_write_of_save h
  exact Disk.content?_of_write_of_ne hwrite (hextends.content? hcontent) hne

/-- Saving a store with the snapshot that was saved last changes nothing. -/
theorem save_again {t : Store} (h : s.save d directory = (d', .ok ()))
    (hsame : t.snapshot = s.snapshot) : t.save d' directory = (d', .ok ()) := by
  obtain ⟨d₁, -, hwrite⟩ := exists_write_of_save h
  have hagain := Disk.write_again hwrite
  have hmade : (if d'.hasPath directory then (d', .ok ()) else d'.makeDirectories directory)
      = (d', .ok ()) := by
    by_cases hempty : directory = []
    · subst hempty
      rfl
    · have hdirectory := isDirectory_of_content? hempty (content?_of_save h) directory (by simp)
      exact if_pos (Disk.hasPath_of_isDirectory hdirectory)
  unfold save
  rw [hmade, hsame]
  dsimp only
  rw [hagain]

/-- Where a store cannot be saved, directories may have been added and nothing else. -/
theorem addsDirectories_of_save_error {failure : Failure}
    (h : s.save d directory = (d', .error failure)) :
    d.AddsDirectories d' ∧ ∃ fault, failure = .store fault := by
  unfold save at h
  split at h
  next d₁ made hmade =>
    have hadds := addsDirectories_of_made hmade
    split at h
    · next fault =>
        obtain ⟨rfl, hfailure⟩ := Prod.mk.inj h
        exact ⟨hadds, _, (Except.error.inj hfailure).symm⟩
    · dsimp only at h
      split at h
      · cases h
      · next fault hwrite =>
          obtain ⟨rfl, hfailure⟩ := Prod.mk.inj h
          exact ⟨hadds, _, (Except.error.inj hfailure).symm⟩

/-- Where a store cannot be saved the path of the snapshot leads to what it led to before. -/
theorem content?_of_save_error {failure : Failure}
    (h : s.save d directory = (d', .error failure)) :
    d'.content? (snapshotPath directory) = d.content? (snapshotPath directory) := by
  have hextends := (addsDirectories_of_save_error h).1.toExtends
  -- a snapshot that was there still is, so it suffices that none is there if this was none
  suffices hnone : d'.content? (snapshotPath directory) = none
      ∨ d'.content? (snapshotPath directory) = d.content? (snapshotPath directory) by
    rcases hnone with hnone | hsame
    · cases hc : d.content? (snapshotPath directory) with
      | none => exact hnone
      | some content => exact hextends.content? hc
    · exact hsame
  unfold save at h
  split at h
  next d₁ made hmade =>
    split at h
    · next fault =>
        obtain rfl := (Prod.mk.inj h).1
        split at hmade
        · cases hmade
        · rcases Disk.makeDirectories_error hmade with rfl | ⟨q, hq, hnot⟩
          · exact Or.inr rfl
          · have hne : directory ≠ [] := by
              rintro rfl
              cases hmade
            -- a snapshot would have all of its directories above it
            cases hc : d₁.content? (snapshotPath directory) with
            | none => exact Or.inl rfl
            | some content => exact absurd (isDirectory_of_content? hne hc q hq) hnot
    · dsimp only at h
      split at h
      · cases h
      · next fault hwrite =>
          obtain rfl := (Prod.mk.inj h).1
          exact Or.inl (Disk.content?_of_write_error hwrite)

end TypeCoverage.Store
