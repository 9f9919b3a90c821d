import TypeCoverage.Proofs.Path.Joining
import TypeCoverage.Selection

/-!
# Keys of selected files

In relative mode the keys are the paths that lead straight down from the working directory, each
of which is its own key. In either mode a candidate and its key have the same absolute path, and
what a key of relative mode is made of is written in the candidate.
-/

set_option autoImplicit false

namespace TypeCoverage.Selection

open TypeCoverage.Path
open Text (pieces)

variable {directory path key : Text} {names : List Text}

/-! ## Normal forms -/

/-- Following the pieces of a directory leads to its names. -/
theorem foldl_push_directory (h : ∀ p ∈ names, IsName p) :
    (pieces '/' (ofComponents true names)).foldl (push true) [] = names.reverse := by
  rw [foldl_push_ofComponents fun p hp => (h p hp).2, foldl_push_names h, List.append_nil]

/-- A path that is written from names is normal. -/
theorem normalize_ofComponents (h : ∀ p ∈ names, IsName p) :
    Path.normalize (ofComponents true names) = ofComponents true names := by
  have hsteps : Stepwise true names := ⟨0, names, rfl, h, fun _ => rfl⟩
  exact hsteps.normalize_eq

/-- The normal form of an absolute path is absolute. -/
theorem isAbsolute_normalize (h : isAbsolute path = true) :
    isAbsolute (Path.normalize path) = true := by
  rw [Path.isAbsolute_normalize, h]

/-- The normal form of an absolute path is its own. -/
theorem normalize_normalize (h : isAbsolute path = true) :
    Path.normalize (Path.normalize path) = Path.normalize path := by
  have hpath : Path.normalize path = ofComponents true (components path) := by
    rw [Path.normalize, h]
  rw [hpath, normalize_ofComponents fun p hp => isName_of_mem_components h hp]

/-! ## Absolute paths of candidates -/

/-- The components to which a candidate leads: from the root, or from a directory with the given
names. -/
def componentsFrom (names : List Text) (candidate : Text) : List Text :=
  ((pieces '/' candidate).foldl (push true)
    (if isAbsolute candidate then [] else names.reverse)).reverse

/-- The absolute path of a candidate is written from names. -/
theorem absolutePath_eq (h : ∀ p ∈ names, IsName p) (candidate : Text) :
    (∀ p ∈ componentsFrom names candidate, IsName p)
      ∧ absolutePath (ofComponents true names) candidate
        = ofComponents true (componentsFrom names candidate) := by
  unfold absolutePath componentsFrom
  split
  · next hcandidate =>
      have hcomponents : components candidate
          = ((pieces '/' candidate).foldl (push true) []).reverse := by
        rw [components, hcandidate]
      rw [← hcomponents, Path.normalize, hcandidate]
      exact ⟨fun p hp => isName_of_mem_components hcandidate hp, rfl⟩
  · have habsolute : isAbsolute (under (ofComponents true names) candidate) = true := rfl
    have hcomponents : components (under (ofComponents true names) candidate)
        = ((pieces '/' candidate).foldl (push true) names.reverse).reverse := by
      rw [components, habsolute, pieces_under, List.foldl_append, foldl_push_directory h]
    rw [← hcomponents, Path.normalize, habsolute]
    exact ⟨fun p hp => isName_of_mem_components habsolute hp, rfl⟩

theorem absolutePath_of_descends (h : ∀ p ∈ names, IsName p) (hpath : Descends path) :
    absolutePath (ofComponents true names) path = ofComponents true (names ++ pieces '/' path) := by
  rw [(absolutePath_eq h path).2, componentsFrom, hpath.isAbsolute_eq, if_neg (by simp),
    foldl_push_names hpath]
  simp

/-! ## Paths as seen from the working directory -/

/-- An absolute path without its leading slash. -/
theorem dropWhile_ofComponents (h : ∀ p ∈ names, IsName p) :
    (ofComponents true names).dropWhile (fun c => c == '/') = Text.join ['/'] names := by
  have hslash : (ofComponents true names).dropWhile (fun c => c == '/')
      = (Text.join ['/'] names).dropWhile fun c => c == '/' := rfl
  rw [hslash]
  cases names with
  | nil => rfl
  | cons p ps =>
      obtain ⟨⟨hne, -⟩, hsep⟩ := h p (by simp)
      obtain ⟨c, cs, rfl⟩ := List.exists_cons_of_ne_nil hne
      have hc : c ≠ '/' := fun hc => hsep (by simp [hc])
      cases ps <;> simp [Text.join, hc]

/-- The names of a path that is written out below a directory. -/
theorem eq_append_of_under {more : List Text} (hnames : ∀ p ∈ names, IsName p)
    (hmore : ∀ p ∈ more, IsName p) (hne : names ≠ [])
    (h : ofComponents true more = under (ofComponents true names) key) :
    more = names ++ pieces '/' key := by
  have hpieces := congrArg (pieces '/') h
  rw [pieces_under, pieces_ofComponents hnames, pieces_ofComponents hmore, if_neg hne,
    List.cons_append] at hpieces
  have hpieces := (List.cons.inj hpieces).2
  split at hpieces
  · -- two pieces are no single one
    have hlength := congrArg List.length hpieces
    have hpos : 0 < names.length := List.length_pos_iff.2 hne
    have hpos' : 0 < (pieces '/' key).length := List.length_pos_iff.2 (Text.pieces_ne_nil '/' key)
    rw [List.length_append, List.length_singleton] at hlength
    omega
  · exact hpieces

/-- The names of a path that is seen from the working directory. -/
theorem eq_append_of_relativeTo? {more : List Text} (hnames : ∀ p ∈ names, IsName p)
    (hmore : ∀ p ∈ more, IsName p) (hne : key ≠ [])
    (h : relativeTo? (ofComponents true names) (ofComponents true more) = some key) :
    more = names ++ pieces '/' key := by
  unfold relativeTo? at h
  split at h
  · exact absurd (Option.some.inj h).symm hne
  split at h
  · next hroot =>
      obtain rfl : names = [] := ofComponents_injective hnames (by simp) hroot
      rw [dropWhile_ofComponents hmore] at h
      obtain rfl := Option.some.inj h
      have hmore' : more ≠ [] := by
        rintro rfl
        exact hne rfl
      rw [pieces_join_names fun p hp => (hmore p hp).2, if_neg hmore', List.nil_append]
  · next hroot =>
      have hnames' : names ≠ [] := by
        rintro rfl
        exact hroot rfl
      have hunder := Text.stripPrefix?_eq_some_iff.1 h
      rw [List.append_assoc] at hunder
      exact eq_append_of_under hnames hmore hnames' hunder

/-! ## Candidates and their keys -/

/-- The components to which a candidate with a key of relative mode leads. -/
theorem componentsFrom_of_key {candidate : Text} (hnames : ∀ p ∈ names, IsName p)
    (h : key? (ofComponents true names) false candidate = some key) :
    componentsFrom names candidate = names ++ pieces '/' key := by
  obtain ⟨hmore, hpath⟩ := absolutePath_eq hnames candidate
  obtain ⟨hrelative, hne⟩ : relativeTo? (ofComponents true names)
      (ofComponents true (componentsFrom names candidate)) = some key ∧ key ≠ [] := by
    rw [key?, hpath] at h
    simpa using Option.filter_eq_some_iff.1 h
  exact eq_append_of_relativeTo? hnames hmore hne hrelative

/-- A key of relative mode leads straight down. -/
theorem descends_of_key {candidate : Text} (hnames : ∀ p ∈ names, IsName p)
    (h : key? (ofComponents true names) false candidate = some key) : Descends key := by
  intro p hp
  refine (absolutePath_eq hnames candidate).1 p ?_
  rw [componentsFrom_of_key hnames h]
  exact List.mem_append_right _ hp

/-- A path below the working directory, seen from there. -/
theorem relativeTo?_below (hnames : ∀ p ∈ names, IsName p) (hkey : Descends key) :
    relativeTo? (ofComponents true names) (ofComponents true (names ++ pieces '/' key))
      = some key := by
  have hmore : ∀ p ∈ names ++ pieces '/' key, IsName p :=
    List.forall_mem_append.2 ⟨hnames, hkey⟩
  have hbelow : ofComponents true (names ++ pieces '/' key) ≠ ofComponents true names := by
    intro h
    have hnil := List.append_right_eq_self.1 (ofComponents_injective hmore hnames h)
    exact Text.pieces_ne_nil '/' key hnil
  rw [relativeTo?, if_neg hbelow]
  split
  · next hroot =>
      obtain rfl : names = [] := ofComponents_injective hnames (by simp) hroot
      rw [dropWhile_ofComponents hmore, List.nil_append, Text.join_pieces]
  · next hroot =>
      have hnames' : names ≠ [] := by
        rintro rfl
        exact hroot rfl
      refine Text.stripPrefix?_eq_some_iff.2 (eq_of_pieces ?_)
      rw [pieces_ofComponents hmore, if_neg (by simp [hnames']), List.append_assoc]
      show _ = pieces '/' (under (ofComponents true names) key)
      rw [pieces_under, pieces_ofComponents hnames, if_neg hnames', List.cons_append]

/-- A path that leads straight down is its own key. -/
theorem key?_of_descends (hnames : ∀ p ∈ names, IsName p) (hkey : Descends key) :
    key? (ofComponents true names) false key = some key := by
  have hne : key ≠ [] := by
    rintro rfl
    exact not_descends_nil hkey
  rw [key?, absolutePath_of_descends hnames hkey]
  simp [relativeTo?_below hnames hkey, hne]

/-- The absolute path of a candidate is that of its key. -/
theorem absolutePath_key {absolute : Bool} {candidate : Text}
    (habsolute : isAbsolute directory = true) (hnormal : Path.normalize directory = directory)
    (h : key? directory absolute candidate = some key) :
    absolutePath directory key = absolutePath directory candidate := by
  obtain ⟨names, hnames, rfl⟩ := exists_names_of_normal habsolute hnormal
  obtain ⟨hmore, hpath⟩ := absolutePath_eq hnames candidate
  cases absolute with
  | true =>
      obtain rfl : absolutePath (ofComponents true names) candidate = key := Option.some.inj h
      have hkey : isAbsolute (ofComponents true (componentsFrom names candidate)) = true := rfl
      rw [hpath, absolutePath, if_pos hkey, normalize_ofComponents hmore]
  | false =>
      rw [hpath, componentsFrom_of_key hnames h,
        absolutePath_of_descends hnames (descends_of_key hnames h)]

/-- **The keys of relative mode.** They are the paths that lead straight down from the working
directory. -/
theorem exists_key_iff (habsolute : isAbsolute directory = true)
    (hnormal : Path.normalize directory = directory) :
    (∃ candidate, key? directory false candidate = some key) ↔ Descends key := by
  obtain ⟨names, hnames, rfl⟩ := exists_names_of_normal habsolute hnormal
  constructor
  · rintro ⟨candidate, hkey⟩
    exact descends_of_key hnames hkey
  · intro hkey
    exact ⟨key, key?_of_descends hnames hkey⟩

end TypeCoverage.Selection
