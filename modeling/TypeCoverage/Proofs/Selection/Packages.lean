import TypeCoverage.Proofs.Result
import TypeCoverage.Proofs.Selection
import TypeCoverage.Proofs.Selection.Distinct

/-!
# Installed packages

A file lies in installed packages when its normal path has a component for them. Selection looks
at the spelling of a candidate instead, and for the word anywhere in it. What it selects is what
it should exactly if every selected candidate that lies in packages is spelled with the word, and
every other candidate that is spelled with it is made up for by another spelling of its path, in
time to keep its place.
-/

set_option autoImplicit false

namespace TypeCoverage.Selection

/-! ## Selecting by the path -/

/-- Where a path is looked at from. -/
inductive View where
  /-- The working directory, in relative mode. -/
  | directory
  /-- The root. -/
  | root
  deriving DecidableEq, Repr

/-- What a run selects by: a normal working directory, the mode, the keys that are allowed, and
the patterns of those that are ignored. -/
structure Criteria where
  directory : Text
  absolute : Bool
  allowed? : Option (List Text)
  ignored : List Glob.Pattern

/-- Whether a path has the directory of installed packages among its components. -/
def inPackages (path : Text) : Bool := (Text.pieces '/' path).contains packagesWord

namespace Criteria

/-- The criteria that settings give, against a working directory. -/
def of (settings : Settings) (directory : Text) (ignored : List Glob.Pattern) : Criteria :=
  let directory := Path.normalize directory
  { directory, ignored
    absolute := settings.absolutePaths
    allowed? := settings.files?.map fun files =>
      files.filterMap (Selection.key? directory settings.absolutePaths) }

def key? (c : Criteria) (candidate : Text) : Option Text :=
  Selection.key? c.directory c.absolute candidate

/-- Whether a key is on the list of allowed ones, if there is a list, and matches no ignore
pattern. -/
def admits (c : Criteria) (key : Text) : Bool :=
  (match c.allowed? with
    | some allowed => allowed.contains key
    | none => true)
  && !c.ignored.any fun pattern => Glob.hits pattern key

def normalPath (c : Criteria) (view : View) (candidate key : Text) : Text :=
  match view with
  | .directory => key
  | .root => absolutePath c.directory candidate

def selectedKey? (c : Criteria) : Text → Option Text :=
  Selection.selectedKey? c.directory c.absolute c.allowed? c.ignored

/-- The key of a candidate that is to be selected: it is admitted and does not lie in installed
packages. -/
def documentedKey? (c : Criteria) (view : View) (candidate : Text) : Option Text :=
  (c.key? candidate).filter fun key =>
    c.admits key && !inPackages (c.normalPath view candidate key)

end Criteria

/-- The keys of the candidates that are to be selected, each at its first occurrence. -/
def documented (view : View) (settings : Settings) (directory : Text) (candidates : List Text) :
    Except Failure (List Text) := do
  let ignored ← ignorePatterns settings.ignorePatterns
  let criteria := Criteria.of settings directory ignored
  return (candidates.filterMap (criteria.documentedKey? view)).eraseDups

/-- Whether the spellings of the candidates do no harm. -/
structure Criteria.SpelledWell (c : Criteria) (view : View) (candidates : List Text) : Prop where
  /-- A selected candidate does not lie in packages. -/
  told : ∀ candidate ∈ candidates, ∀ key, c.selectedKey? candidate = some key →
    c.documentedKey? view candidate = some key
  /-- The key of a candidate that is passed over for its spelling is that of another candidate,
  which is selected, and ahead of which nothing is selected but what the candidates ahead of the
  first one give. -/
  respelled : ∀ before candidate after key, candidates = before ++ candidate :: after →
    Text.occursIn packagesWord candidate = true → c.documentedKey? view candidate = some key →
    ∃ front other back, candidates = front ++ other :: back ∧ c.selectedKey? other = some key
      ∧ front.filterMap c.selectedKey? ⊆ before.filterMap (c.documentedKey? view)

/-! ## Spellings of one path -/

namespace Criteria

variable {c : Criteria} {view : View} {candidate other key : Text}

theorem selectedKey?_of_occursIn (h : Text.occursIn packagesWord candidate = true) :
    c.selectedKey? candidate = none := by
  unfold selectedKey? Selection.selectedKey?
  rw [if_pos h]

theorem selectedKey?_of_not_occursIn (h : ¬ Text.occursIn packagesWord candidate = true) :
    c.selectedKey? candidate = (c.key? candidate).filter c.admits := by
  unfold selectedKey? Selection.selectedKey?
  rw [if_neg h]
  rfl

theorem selectedKey?_eq_some_iff : c.selectedKey? candidate = some key ↔
    Text.occursIn packagesWord candidate = false ∧ c.key? candidate = some key
      ∧ c.admits key = true := by
  by_cases h : Text.occursIn packagesWord candidate = true
  · simp [selectedKey?_of_occursIn h, h]
  · simp [selectedKey?_of_not_occursIn h, h, Option.filter_eq_some_iff]

theorem documentedKey?_eq_some_iff : c.documentedKey? view candidate = some key ↔
    c.key? candidate = some key ∧ c.admits key = true
      ∧ inPackages (c.normalPath view candidate key) = false := by
  simp [documentedKey?, Option.filter_eq_some_iff]

/-- Spellings of one path are to be selected alike. -/
theorem documentedKey?_congr
    (h : absolutePath c.directory candidate = absolutePath c.directory other) :
    c.documentedKey? view candidate = c.documentedKey? view other := by
  unfold documentedKey? key? Selection.key? normalPath
  rw [h]

/-- Candidates with one key are to be selected alike. -/
theorem documentedKey?_of_key (habsolute : Path.isAbsolute c.directory = true)
    (hnormal : Path.normalize c.directory = c.directory) (hcandidate : c.key? candidate = some key)
    (hother : c.key? other = some key) :
    c.documentedKey? view candidate = c.documentedKey? view other := by
  apply documentedKey?_congr
  rw [← absolutePath_key habsolute hnormal hcandidate, absolutePath_key habsolute hnormal hother]

/-- A candidate that is to be selected is selected unless its spelling is against it. -/
theorem selectedKey?_of_documentedKey? (h : c.documentedKey? view candidate = some key)
    (hspelling : Text.occursIn packagesWord candidate = false) :
    c.selectedKey? candidate = some key := by
  obtain ⟨hkey, hadmits, -⟩ := documentedKey?_eq_some_iff.1 h
  exact selectedKey?_eq_some_iff.2 ⟨hspelling, hkey, hadmits⟩

end Criteria

/-! ## Selection by spelling and by path -/

section

variable {c : Criteria} {view : View} {candidates : List Text}

/-- Of candidates that do no harm, only such keys are selected as should be. -/
theorem Criteria.SpelledWell.subset (h : c.SpelledWell view candidates) {ahead : List Text}
    (hahead : ahead ⊆ candidates) :
    ahead.filterMap c.selectedKey? ⊆ ahead.filterMap (c.documentedKey? view) := by
  intro key hkey
  obtain ⟨candidate, hmem, hcandidate⟩ := List.mem_filterMap.1 hkey
  exact List.mem_filterMap.2 ⟨candidate, hmem, h.told candidate (hahead hmem) key hcandidate⟩

/-- The first occurrences of the keys are the same exactly if the spellings do no harm. -/
theorem eraseDups_selected_eq_iff (habsolute : Path.isAbsolute c.directory = true)
    (hnormal : Path.normalize c.directory = c.directory) :
    (candidates.filterMap c.selectedKey?).eraseDups
        = (candidates.filterMap (c.documentedKey? view)).eraseDups
      ↔ c.SpelledWell view candidates := by
  rw [eraseDups_eq_iff]
  constructor
  · rintro ⟨hsub, hled⟩
    refine ⟨fun candidate hmem key hkey => ?_, fun before candidate after key hsplit _ hkey => ?_⟩
    · obtain ⟨other, -, hother⟩ :=
        List.mem_filterMap.1 (hsub (List.mem_filterMap.2 ⟨candidate, hmem, hkey⟩))
      rw [← hother]
      exact Criteria.documentedKey?_of_key habsolute hnormal
        (Criteria.selectedKey?_eq_some_iff.1 hkey).2.1
        (Criteria.documentedKey?_eq_some_iff.1 hother).1
    · refine ledBy_filterMap_iff.1 (hled _ key (after.filterMap (c.documentedKey? view)) ?_)
      rw [hsplit, List.filterMap_append, List.filterMap_cons_some hkey]
  · intro h
    refine ⟨h.subset (List.Subset.refl _), fun front key back hkeys => ?_⟩
    obtain ⟨before, candidate, after, hsplit, hkey, rfl⟩ := exists_split_filterMap hkeys
    cases hspelling : Text.occursIn packagesWord candidate with
    | true =>
        exact ledBy_filterMap_iff.2
          (h.respelled before candidate after key hsplit hspelling hkey)
    | false =>
        -- the candidate is selected itself, and what is selected ahead of it should be
        have hselected := Criteria.selectedKey?_of_documentedKey? hkey hspelling
        have hbefore : before ⊆ candidates := by simp [hsplit]
        exact ledBy_filterMap_iff.2
          ⟨before, candidate, after, hsplit, hselected, h.subset hbefore⟩

end

variable {settings : Settings} {directory : Text} {ignored : List Glob.Pattern}

theorem select_of_patterns (h : ignorePatterns settings.ignorePatterns = .ok ignored)
    (candidates : List Text) :
    select settings directory candidates = .ok (candidates.filterMap
      (Criteria.of settings directory ignored).selectedKey?).eraseDups := by
  rw [← distinct_nil, select, h]
  rfl

/-- **Selection by spelling.** The selected files are those that should be, in their order,
exactly if the spellings of the candidates do no harm. -/
theorem select_eq_documented_iff (habsolute : Path.isAbsolute directory = true)
    (hpatterns : ignorePatterns settings.ignorePatterns = .ok ignored) (view : View)
    (candidates : List Text) :
    select settings directory candidates = documented view settings directory candidates
      ↔ (Criteria.of settings directory ignored).SpelledWell view candidates := by
  have hdocumented : documented view settings directory candidates
      = .ok (candidates.filterMap
          ((Criteria.of settings directory ignored).documentedKey? view)).eraseDups := by
    rw [documented, hpatterns]
    rfl
  rw [select_of_patterns hpatterns, hdocumented, Except.ok.injEq]
  exact eraseDups_selected_eq_iff (isAbsolute_normalize habsolute) (normalize_normalize habsolute)

/-- A path that is spelled through packages keeps its place, since it is spelled without them before
another file is selected. -/
theorem select_eq_documented_iff_respelled :
    let settings : Settings := { ignorePatterns := ["*.d.ts".toList] }
    let candidates := ["node_modules/../a.ts".toList, "a.d.ts".toList, "./a.ts".toList,
      "node_modules/p/b.ts".toList, "c.ts".toList]
    ∃ ignored, Path.isAbsolute "/w".toList = true
      ∧ ignorePatterns settings.ignorePatterns = .ok ignored
      ∧ documented .directory settings "/w".toList candidates = .ok ["a.ts".toList, "c.ts".toList]
      ∧ (Criteria.of settings "/w".toList ignored).SpelledWell .directory candidates := by
  intro settings candidates
  have hparsed : (ignorePatterns settings.ignorePatterns).toOption.isSome = true := by
    decide +kernel
  obtain ⟨ignored, hignored⟩ := Option.isSome_iff_exists.1 hparsed
  have hpatterns := toOption_eq_some_iff.1 hignored
  have hselected : select settings "/w".toList candidates
      = documented .directory settings "/w".toList candidates := by decide +kernel
  refine ⟨ignored, by decide, hpatterns, by decide +kernel, ?_⟩
  exact (select_eq_documented_iff (by decide) hpatterns .directory candidates).1 hselected

/-- A file is dropped because its name contains the word, and one because of a detour in its
spelling; a file in packages is kept because its spelling does not tell. -/
theorem packages_word_drops_file :
    let candidates := ["lib/node_modules_list.ts".toList, "node_modules/../a.ts".toList]
    let settings : Settings := { absolutePaths := true }
    (∀ view, select {} "/w".toList candidates = .ok []
      ∧ documented view {} "/w".toList candidates
        = .ok ["lib/node_modules_list.ts".toList, "a.ts".toList])
      ∧ absolutePath "/w".toList "node_modules/../a.ts".toList
        = absolutePath "/w".toList "a.ts".toList
      ∧ select {} "/w".toList ["a.ts".toList] = .ok ["a.ts".toList]
      ∧ ∀ view, documented view settings "/w/node_modules".toList ["a.ts".toList] = .ok []
        ∧ select settings "/w/node_modules".toList ["a.ts".toList]
          = .ok ["/w/node_modules/a.ts".toList] := by
  intro candidates settings
  refine ⟨fun view => ⟨by decide +kernel, ?_⟩, by decide, by decide +kernel,
    fun view => ⟨?_, by decide +kernel⟩⟩
  · cases view <;> decide +kernel
  · cases view <;> decide +kernel

end TypeCoverage.Selection
