import TypeCoverage.Proofs.Selection.Packages

/-!
# Canonical keys

The keys of a run stand for paths: each is written in one way, leads back to the absolute path of
every candidate that it is the key of, and is met once, in the order in which the candidates first
give it. So spellings of a path share a key, and nothing else does. The spelling of the working
directory makes no difference.
-/

set_option autoImplicit false

namespace TypeCoverage.Selection

open TypeCoverage.Path

variable {settings : Settings} {directory candidate other key : Text} {absolute : Bool}

/-! ## Spellings of the working directory -/

/-- What is joined onto an absolute path is joined onto its normal form. -/
theorem normalize_under (habsolute : isAbsolute directory = true) (part : Text) :
    Path.normalize (under (Path.normalize directory) part)
      = Path.normalize (under directory part) := by
  apply normalize_under_normalize
  intro hnil
  have hnormal := isAbsolute_normalize habsolute
  rw [hnil] at hnormal
  cases hnormal

theorem absolutePath_normalize (habsolute : isAbsolute directory = true) (candidate : Text) :
    absolutePath (Path.normalize directory) candidate = absolutePath directory candidate := by
  unfold absolutePath
  rw [normalize_under habsolute]

/-! ## How keys are written -/

/-- Whether a key is written from names: with slashes between them, at least one of them in relative
mode, and with a slash ahead in absolute mode. -/
structure Written (absolute : Bool) (key : Text) : Prop where
  names : ∃ names, (∀ p ∈ names, IsName p) ∧ key = ofComponents absolute names
    ∧ (absolute = false → names ≠ [])
  ne_nil : key ≠ []
  isAbsolute_eq : isAbsolute key = absolute

theorem written_of_key (habsolute : isAbsolute directory = true)
    (hnormal : Path.normalize directory = directory)
    (h : key? directory absolute candidate = some key) : Written absolute key := by
  obtain ⟨names, hnames, rfl⟩ := exists_names_of_normal habsolute hnormal
  cases absolute with
  | true =>
      obtain ⟨hmore, hpath⟩ := absolutePath_eq hnames candidate
      obtain rfl : absolutePath (ofComponents true names) candidate = key := Option.some.inj h
      rw [hpath]
      exact ⟨⟨_, hmore, rfl, by simp⟩, by simp [ofComponents], rfl⟩
  | false =>
      have hdescends := descends_of_key hnames h
      have hne : key ≠ [] := by
        rintro rfl
        exact not_descends_nil hdescends
      have hjoin : key = ofComponents false (Text.pieces '/' key) := (Text.join_pieces '/' key).symm
      exact ⟨⟨_, hdescends, hjoin, fun _ => Text.pieces_ne_nil '/' key⟩, hne,
        hdescends.isAbsolute_eq⟩

/-- A key that is joined onto the working directory in relative mode is its absolute path. -/
theorem Written.normalize_eq (h : Written absolute key) (directory : Text) :
    Path.normalize (if absolute then key else under directory key)
      = absolutePath directory key := by
  rw [absolutePath, h.isAbsolute_eq]
  cases absolute <;> rfl

/-! ## Candidates that yield keys -/

/-- Whether a candidate yields a key: alone it is selected under that key. -/
def Yields (settings : Settings) (directory candidate key : Text) : Prop :=
  select settings directory [candidate] = .ok [key]

instance : Decidable (Yields settings directory candidate key) :=
  inferInstanceAs (Decidable (select settings directory [candidate] = .ok [key]))

/-- The index of the first candidate that yields a key. -/
def firstYield (settings : Settings) (directory : Text) (candidates : List Text) (key : Text) : Nat :=
  candidates.findIdx fun candidate => Yields settings directory candidate key

theorem yields_iff {ignored : List Glob.Pattern}
    (hpatterns : ignorePatterns settings.ignorePatterns = .ok ignored) :
    Yields settings directory candidate key
      ↔ (Criteria.of settings directory ignored).selectedKey? candidate = some key := by
  rw [Yields, select_of_patterns hpatterns, Except.ok.injEq]
  cases hfound : (Criteria.of settings directory ignored).selectedKey? candidate with
  | none => simp [hfound]
  | some found => simp [hfound, List.eraseDups_cons]

theorem key?_of_yields (h : Yields settings directory candidate key) :
    key? (Path.normalize directory) settings.absolutePaths candidate = some key := by
  obtain ⟨ignored, hpatterns, -⟩ := bind_eq_ok_iff.1 h
  exact (Criteria.selectedKey?_eq_some_iff.1 ((yields_iff hpatterns).1 h)).2.1

/-- A key leads to the absolute path of every candidate that yields it. -/
theorem absolutePath_of_yields (habsolute : isAbsolute directory = true)
    (h : Yields settings directory candidate key) :
    absolutePath directory key = absolutePath directory candidate := by
  rw [← absolutePath_normalize habsolute, ← absolutePath_normalize habsolute]
  exact absolutePath_key (isAbsolute_normalize habsolute) (normalize_normalize habsolute)
    (key?_of_yields h)

/-- Candidates that are selected have one key exactly if they are spellings of one path. -/
theorem key_eq_iff_of_yields {otherKey : Text} (habsolute : isAbsolute directory = true)
    (h : Yields settings directory candidate key)
    (hother : Yields settings directory other otherKey) :
    key = otherKey ↔ absolutePath directory candidate = absolutePath directory other := by
  constructor
  · rintro rfl
    rw [← absolutePath_of_yields habsolute h, absolutePath_of_yields habsolute hother]
  · intro hsame
    rw [← absolutePath_normalize habsolute, ← absolutePath_normalize habsolute] at hsame
    have hkey := key?_of_yields h
    rw [key?, hsame] at hkey
    exact Option.some.inj (hkey.symm.trans (key?_of_yields hother))

/-! ## Selected keys -/

/-- What it is for keys to be canonical for candidates. -/
structure Canonical (settings : Settings) (directory : Text) (candidates keys : List Text) : Prop where
  /-- They are the keys that candidates yield. -/
  yielded : ∀ key, key ∈ keys ↔ ∃ candidate ∈ candidates, Yields settings directory candidate key
  distinct : keys.Nodup
  /-- They stand in the order of the first candidates that yield them. -/
  ordered : keys.Pairwise fun key key' =>
    firstYield settings directory candidates key < firstYield settings directory candidates key'
  written : ∀ key ∈ keys, Written settings.absolutePaths key
  /-- A key gives back the absolute path of a candidate that yields it. -/
  leadsBack : ∀ candidate ∈ candidates, ∀ key, Yields settings directory candidate key →
    Path.normalize (if settings.absolutePaths then key else under directory key)
      = absolutePath directory candidate
  /-- Two candidates have one key exactly if they are spellings of one path. -/
  shared : ∀ candidate ∈ candidates, ∀ other ∈ candidates, ∀ key key',
    Yields settings directory candidate key → Yields settings directory other key' →
      (key = key' ↔ absolutePath directory candidate = absolutePath directory other)

/-- **Selected keys are canonical.** -/
theorem canonical_of_select {candidates keys : List Text} (habsolute : isAbsolute directory = true)
    (h : select settings directory candidates = .ok keys) :
    Canonical settings directory candidates keys := by
  obtain ⟨ignored, hpatterns, -⟩ := bind_eq_ok_iff.1 h
  rw [select_of_patterns hpatterns, Except.ok.injEq] at h
  have hyielded : ∀ key, key ∈ keys ↔
      ∃ candidate ∈ candidates, Yields settings directory candidate key := by
    intro key
    simp only [← h, List.mem_eraseDups, List.mem_filterMap, yields_iff hpatterns]
  have hfirst : ∀ key, firstYield settings directory candidates key
      = candidates.findIdx fun candidate =>
        (Criteria.of settings directory ignored).selectedKey? candidate == some key := by
    intro key
    refine congrArg candidates.findIdx (funext fun candidate => ?_)
    rw [Bool.eq_iff_iff, decide_eq_true_iff, beq_iff_eq, yields_iff hpatterns]
  have hordered : keys.Pairwise fun key key' =>
      firstYield settings directory candidates key
        < firstYield settings directory candidates key' := by
    simp only [hfirst, ← h]
    exact pairwise_findIdx_eraseDups _ candidates
  have hwritten : ∀ candidate key, Yields settings directory candidate key →
      Written settings.absolutePaths key := fun candidate key hkey =>
    written_of_key (isAbsolute_normalize habsolute) (normalize_normalize habsolute)
      (key?_of_yields hkey)
  refine ⟨hyielded, hordered.imp fun hlt heq => ?_, hordered, fun key hkey => ?_,
    fun candidate _ key hkey => ?_, fun candidate _ other _ key key' hkey hkey' =>
    key_eq_iff_of_yields habsolute hkey hkey'⟩
  · rw [heq] at hlt
    exact Nat.lt_irrefl _ hlt
  · obtain ⟨candidate, -, hcandidate⟩ := (hyielded key).1 hkey
    exact hwritten candidate key hcandidate
  · rw [(hwritten candidate key hkey).normalize_eq, absolutePath_of_yields habsolute hkey]

/-- Files that are spelled in several ways, one of them through packages, and one outside of the
working directory. -/
theorem canonical_of_select_respelled :
    let candidates := ["src/../b.ts".toList, "node_modules/../a.ts".toList, "/w/p/./a.ts".toList,
      "../../w/p//b.ts".toList, "../c.ts".toList, "a.ts".toList]
    isAbsolute "/w/./p".toList = true
      ∧ select {} "/w/./p".toList candidates = .ok ["b.ts".toList, "a.ts".toList]
      ∧ Canonical {} "/w/./p".toList candidates ["b.ts".toList, "a.ts".toList] := by
  intro candidates
  have hdirectory : isAbsolute "/w/./p".toList = true := by decide
  have hselected : select {} "/w/./p".toList candidates = .ok ["b.ts".toList, "a.ts".toList] := by
    decide +kernel
  exact ⟨hdirectory, hselected, canonical_of_select hdirectory hselected⟩

end TypeCoverage.Selection
