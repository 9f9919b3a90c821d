import TypeCoverage.Proofs.Selection.Packages

/-!
# Relative and absolute selection

A candidate has a key in relative mode exactly if its key in absolute mode is a path strictly below
the working directory, and then the one is what the other has behind the directory. Both modes look
at the spelling of a candidate alike, and the list of allowed files names the same paths in both, so
without ignore patterns relative mode selects what absolute mode selects below the working
directory, in the same order. Ignore patterns are matched against the keys and can tell the modes
apart.
-/

set_option autoImplicit false

namespace TypeCoverage.Selection

open TypeCoverage.Path

variable {settings : Settings} {directory candidate path other key : Text}

/-! ## Paths strictly below a directory -/

/-- A directory with a slash behind it. The root ends with one. -/
def slashed (directory : Text) : Text := if directory = ['/'] then directory else directory ++ ['/']

/-- A path strictly below a directory, without the directory and the slash behind it. -/
def strictlyBelow? (directory path : Text) : Option Text :=
  (Text.stripPrefix? (slashed directory) path).filter fun rest => !rest.isEmpty

theorem strictlyBelow?_eq_some_iff :
    strictlyBelow? directory path = some key ↔ path = slashed directory ++ key ∧ key ≠ [] := by
  simp [strictlyBelow?, Option.filter_eq_some_iff, Text.stripPrefix?_eq_some_iff]

/-- Paths below a directory are told apart by what they have behind it. -/
theorem strictlyBelow?_injective (hpath : strictlyBelow? directory path = some key)
    (hother : strictlyBelow? directory other = some key) : path = other := by
  rw [(strictlyBelow?_eq_some_iff.1 hpath).1, (strictlyBelow?_eq_some_iff.1 hother).1]

theorem strictlyBelow?_self (directory : Text) : strictlyBelow? directory directory = none := by
  rw [Option.eq_none_iff_forall_ne_some]
  intro key hkey
  obtain ⟨hsplit, hne⟩ := strictlyBelow?_eq_some_iff.1 hkey
  have hlength := congrArg List.length hsplit
  have hpos := List.length_pos_iff.2 hne
  have hslashed : directory.length ≤ (slashed directory).length := by
    unfold slashed
    split <;> simp
  rw [List.length_append] at hlength
  omega

/-- A normal path as seen from a directory, unless it is the directory itself. -/
theorem relativeTo?_filter (directory : Text) {more : List Text} (hmore : ∀ p ∈ more, IsName p) :
    (relativeTo? directory (ofComponents true more)).filter (fun key => !key.isEmpty)
      = strictlyBelow? directory (ofComponents true more) := by
  unfold relativeTo?
  split
  · next hself =>
      rw [hself, strictlyBelow?_self]
      rfl
  rw [strictlyBelow?, slashed]
  split
  · next hroot =>
      rw [dropWhile_ofComponents hmore, hroot]
      rfl
  · rfl

/-! ## Keys and criteria of the two modes -/

/-- The key of relative mode is what the key of absolute mode has behind the working directory. -/
theorem key?_relative (habsolute : isAbsolute directory = true)
    (hnormal : Path.normalize directory = directory) (candidate : Text) :
    key? directory false candidate
      = (key? directory true candidate).bind (strictlyBelow? directory) := by
  obtain ⟨names, hnames, rfl⟩ := exists_names_of_normal habsolute hnormal
  obtain ⟨hmore, hpath⟩ := absolutePath_eq hnames candidate
  have hkey := relativeTo?_filter (ofComponents true names) hmore
  rw [← hpath] at hkey
  exact hkey

/-- The criteria of a mode, without ignore patterns. -/
def criteria (settings : Settings) (directory : Text) (absolute : Bool) : Criteria :=
  Criteria.of { settings with absolutePaths := absolute } directory []

theorem key?_criteria (habsolute : isAbsolute directory = true) (candidate : Text) :
    (criteria settings directory false).key? candidate
      = ((criteria settings directory true).key? candidate).bind
        (strictlyBelow? (Path.normalize directory)) :=
  key?_relative (isAbsolute_normalize habsolute) (normalize_normalize habsolute) candidate

/-- Without ignore patterns a key is admitted if it is that of an allowed file, or if all are
allowed. -/
theorem admits_criteria_iff {absolute : Bool} :
    (criteria settings directory absolute).admits key = true ↔
      ∀ files, settings.files? = some files →
        ∃ file ∈ files, (criteria settings directory absolute).key? file = some key := by
  have hallowed : (criteria settings directory absolute).allowed? = settings.files?.map
      fun files => files.filterMap (criteria settings directory absolute).key? := rfl
  have hignored : (criteria settings directory absolute).ignored = [] := rfl
  rw [Criteria.admits, hallowed, hignored]
  cases settings.files? with
  | none => simp
  | some files => simp

/-- A path below the working directory is admitted in both modes or in neither. -/
theorem admits_criteria (habsolute : isAbsolute directory = true)
    (hbelow : strictlyBelow? (Path.normalize directory) path = some key) :
    (criteria settings directory false).admits key = true
      ↔ (criteria settings directory true).admits path = true := by
  have hkey : ∀ file, (criteria settings directory false).key? file = some key
      ↔ (criteria settings directory true).key? file = some path := by
    intro file
    rw [key?_criteria habsolute, Option.bind_eq_some_iff]
    constructor
    · rintro ⟨found, hfound, hfoundBelow⟩
      rwa [strictlyBelow?_injective hbelow hfoundBelow]
    · intro hpath
      exact ⟨path, hpath, hbelow⟩
  simp only [admits_criteria_iff, hkey]

/-- A candidate is selected in relative mode exactly if it is selected in absolute mode and lies
below the working directory. -/
theorem selectedKey?_criteria (habsolute : isAbsolute directory = true) (candidate : Text) :
    (criteria settings directory false).selectedKey? candidate
      = ((criteria settings directory true).selectedKey? candidate).bind
        (strictlyBelow? (Path.normalize directory)) := by
  ext key
  rw [Option.bind_eq_some_iff, Criteria.selectedKey?_eq_some_iff, key?_criteria habsolute,
    Option.bind_eq_some_iff]
  constructor
  · rintro ⟨hspelling, ⟨path, hpath, hbelow⟩, hadmits⟩
    have hadmits' := (admits_criteria habsolute hbelow).1 hadmits
    exact ⟨path, Criteria.selectedKey?_eq_some_iff.2 ⟨hspelling, hpath, hadmits'⟩, hbelow⟩
  · rintro ⟨path, hselected, hbelow⟩
    obtain ⟨hspelling, hpath, hadmits⟩ := Criteria.selectedKey?_eq_some_iff.1 hselected
    exact ⟨hspelling, ⟨path, hpath, hbelow⟩, (admits_criteria habsolute hbelow).2 hadmits⟩

/-! ## Selection -/

theorem select_criteria (hpatterns : settings.ignorePatterns = []) (absolute : Bool)
    (candidates : List Text) :
    select { settings with absolutePaths := absolute } directory candidates
      = .ok (candidates.filterMap (criteria settings directory absolute).selectedKey?).eraseDups := by
  apply select_of_patterns
  show ignorePatterns settings.ignorePatterns = .ok []
  rw [hpatterns]
  rfl

/-- **The modes agree.** Without ignore patterns relative mode selects what absolute mode selects
strictly below the working directory, without the directory and in the same order. -/
theorem select_relative_of_absolute (habsolute : isAbsolute directory = true)
    (hpatterns : settings.ignorePatterns = []) (candidates : List Text) :
    ∃ paths, select { settings with absolutePaths := true } directory candidates = .ok paths
      ∧ select { settings with absolutePaths := false } directory candidates
        = .ok (paths.filterMap (strictlyBelow? (Path.normalize directory))) := by
  refine ⟨_, select_criteria hpatterns true candidates, ?_⟩
  have hkeys : candidates.filterMap (criteria settings directory false).selectedKey?
      = (candidates.filterMap (criteria settings directory true).selectedKey?).filterMap
        (strictlyBelow? (Path.normalize directory)) := by
    rw [List.filterMap_filterMap]
    exact List.filterMap_congr fun candidate _ => selectedKey?_criteria habsolute candidate
  rw [select_criteria hpatterns, hkeys,
    eraseDups_filterMap fun x y key hx hy => strictlyBelow?_injective hx hy]

/-- A directory with a neighbour whose name begins like its own, and files that are spelled in
several ways. -/
theorem select_relative_of_absolute_neighbour :
    let settings : Settings :=
      { files? := some ["src/b.ts".toList, "/work/p/c.ts".toList, "../px/a.ts".toList] }
    let candidates := ["/work/px/a.ts".toList, "../p/src/b.ts".toList, "/work/p".toList,
      "/work/p/c.ts".toList, "src//b.ts".toList, "d.ts".toList]
    isAbsolute "/work/./p".toList = true ∧ settings.ignorePatterns = []
      ∧ select { settings with absolutePaths := true } "/work/./p".toList candidates
        = .ok ["/work/px/a.ts".toList, "/work/p/src/b.ts".toList, "/work/p/c.ts".toList]
      ∧ select { settings with absolutePaths := false } "/work/./p".toList candidates
        = .ok ["src/b.ts".toList, "c.ts".toList] := by
  intro settings candidates
  have hselected : select { settings with absolutePaths := true } "/work/./p".toList candidates
      = .ok ["/work/px/a.ts".toList, "/work/p/src/b.ts".toList, "/work/p/c.ts".toList] := by
    decide +kernel
  have hdirectory : isAbsolute "/work/./p".toList = true := by decide
  obtain ⟨paths, hpaths, hkeys⟩ :=
    select_relative_of_absolute hdirectory (rfl : settings.ignorePatterns = []) candidates
  obtain rfl := Except.ok.inj (hpaths.symm.trans hselected)
  exact ⟨hdirectory, rfl, hselected, hkeys.trans (by decide +kernel)⟩

end TypeCoverage.Selection
