import TypeCoverage.Imports.Resolver
import TypeCoverage.Proofs.Selection

/-!
# Imports in relative and in absolute mode

The files of a run have relative or absolute paths. Where the module path of an import leads
straight down from the working directory, both modes resolve it to the same file. It is seen
differently where it names the working directory itself, or climbs above it and comes back.
-/

set_option autoImplicit false

namespace TypeCoverage.Resolver

open TypeCoverage.Path
open Text (pieces)

variable {directory importer specifier path : Text} {names files : List Text}

/-! ## The two modes -/

/-- A path of the working directory, written out from the root. -/
def within (directory path : Text) : Text := under (trimSlashes directory) path

/-- The resolver of relative mode. -/
def relative (directory : Text) (files : List Text) : Resolver := ⟨files, some directory⟩

/-- The resolver of absolute mode for the same files. -/
def absolute (directory : Text) (files : List Text) : Resolver :=
  ⟨files.map (within directory), none⟩

/-- The module path of an import in relative mode. It does not depend on the files. -/
def insidePath (directory importer specifier : Text) : Text :=
  (relative directory []).modulePath importer specifier

/-- The module path of the same import in absolute mode. -/
def wholePath (directory importer specifier : Text) : Text :=
  (absolute directory []).modulePath (within directory importer) specifier

theorem within_injective {p q : Text} (h : within directory p = within directory q) : p = q := by
  have h := List.append_cancel_left h
  exact (List.cons.inj h).2

theorem within_append (directory path suffix : Text) :
    within directory (path ++ suffix) = within directory path ++ suffix := by
  simp [within, under]

theorem trimSlashes_ofComponents (h : ∀ p ∈ names, IsName p) :
    trimSlashes (ofComponents true names) = if names = [] then [] else ofComponents true names := by
  split
  · next hnil =>
      subst hnil
      rfl
  · next hne =>
      obtain ⟨front, c, hfront⟩ : ∃ front c, ofComponents true names = front ++ [c] :=
        ⟨_, _, (List.dropLast_concat_getLast (List.cons_ne_nil _ _)).symm⟩
      -- a slash at the end would leave an empty name
      have hc : c ≠ '/' := by
        rintro rfl
        have hpieces := congrArg (pieces '/') hfront
        obtain ⟨q, qs, hq⟩ := Text.exists_pieces_eq_cons '/' front
        rw [pieces_ofComponents h, if_neg hne, Text.pieces_append_sep, hq, List.cons_append]
          at hpieces
        have hmem : [] ∈ names := by
          rw [(List.cons.inj hpieces).2]
          simp [pieces]
        exact (h [] hmem).1.1 rfl
      rw [hfront, trimSlashes, List.reverse_concat, List.dropWhile_cons_of_neg (by simpa using hc)]
      simp

theorem pieces_within (h : ∀ p ∈ names, IsName p) (path : Text) :
    pieces '/' (within (ofComponents true names) path) = [] :: (names ++ pieces '/' path) := by
  rw [within, pieces_under, trimSlashes_ofComponents h]
  split
  · next hnil =>
      subst hnil
      rfl
  · next hne => rw [pieces_ofComponents h, if_neg hne, List.cons_append]

theorem isAbsolute_within (h : ∀ p ∈ names, IsName p) (path : Text) :
    isAbsolute (within (ofComponents true names) path) = true := by
  rw [within, trimSlashes_ofComponents h]
  split <;> rfl

/-! ## Module paths -/

theorem pieces_spelled (h : isAbsolute specifier = false) :
    pieces '/' (spelled importer specifier)
      = (pieces '/' importer).dropLast ++ pieces '/' specifier := by
  rw [spelled, h, if_neg (by simp)]
  rcases eq_last_or importer with hsep | ⟨dir, last, hsep, rfl⟩
  · rw [parent?_of_not_mem hsep, Text.pieces_of_not_mem hsep]
    rfl
  · rw [parent?_under hsep]
    dsimp only
    rw [pieces_under, pieces_under, Text.pieces_of_not_mem hsep, List.dropLast_concat]

theorem isAbsolute_spelled (h : isAbsolute specifier = false) :
    isAbsolute (spelled importer specifier) = isAbsolute importer := by
  rw [spelled, h, if_neg (by simp)]
  rcases eq_last_or importer with hsep | ⟨dir, last, hsep, rfl⟩
  · rw [parent?_of_not_mem hsep, h, eq_comm, Bool.eq_false_iff]
    intro habsolute
    obtain ⟨rest, rfl⟩ := isAbsolute_iff.1 habsolute
    exact hsep (by simp)
  · rw [parent?_under hsep]
    cases dir with
    | nil => rfl
    | cons c cs =>
        have hne : c :: cs ≠ [] := List.cons_ne_nil c cs
        exact (isAbsolute_append hne).trans (isAbsolute_append hne).symm

/-- The module paths of a specifier that is not absolute: what is not taken by steps up comes from
the working directory. -/
theorem exists_paths_of_relative (hnames : ∀ p ∈ names, IsName p)
    (himporter : Descends importer) (hspecifier : isAbsolute specifier = false) :
    ∃ n found, (∀ p ∈ found, IsName p)
      ∧ insidePath (ofComponents true names) importer specifier
        = Text.join ['/'] (List.replicate n up ++ found)
      ∧ wholePath (ofComponents true names) importer specifier
        = ofComponents true (names.take (names.length - n) ++ found) := by
  have hbase : ∀ p ∈ names.reverse, IsName p := by simpa using hnames
  have hparts : ∀ p ∈ (pieces '/' importer).dropLast ++ pieces '/' specifier, '/' ∉ p :=
    List.forall_mem_append.2
      ⟨fun p hp => Text.not_mem_of_mem_pieces (List.dropLast_subset _ hp),
        fun p hp => Text.not_mem_of_mem_pieces hp⟩
  have hviewed : Viewed names.reverse [] names.reverse := ⟨0, [], by simp, rfl, rfl⟩
  -- both normal forms are built from the same pieces, in step
  obtain ⟨n, found, hfound, hrelative, hwhole⟩ := hviewed.foldl hbase hparts
  refine ⟨n, found.reverse, by simpa using hfound, ?_, ?_⟩
  · have hrelative' : isAbsolute (spelled importer specifier) = false := by
      rw [isAbsolute_spelled hspecifier, himporter.isAbsolute_eq]
    have hnormal : Path.normalize (spelled importer specifier)
        = Text.join ['/'] (List.replicate n up ++ found.reverse) := by
      rw [Path.normalize, components, hrelative', pieces_spelled hspecifier, hrelative,
        ofComponents, if_neg (by simp), List.reverse_append, List.reverse_replicate]
    have hjoin : isAbsolute (Text.join ['/'] (List.replicate n up ++ found.reverse)) = false :=
      isAbsolute_join_of_ne_nil (plain_of_mem_steps (by simpa using hfound))
    unfold insidePath modulePath relativize
    rw [hnormal]
    show (if isAbsolute _ = true then _ else _) = _
    rw [hjoin, if_neg (by simp)]
  · have hwhole' : isAbsolute (spelled (within (ofComponents true names) importer) specifier)
        = true := by
      rw [isAbsolute_spelled hspecifier, isAbsolute_within hnames]
    have hstart : (pieces '/' (within (ofComponents true names) importer)).dropLast
        = [] :: (names ++ (pieces '/' importer).dropLast) := by
      rw [pieces_within hnames, List.dropLast_cons_of_ne_nil (by simp [Text.pieces_ne_nil]),
        List.dropLast_append_of_ne_nil (Text.pieces_ne_nil '/' importer)]
    show Path.normalize _ = _
    rw [Path.normalize, components, hwhole', pieces_spelled hspecifier, hstart, List.cons_append,
      List.append_assoc, List.foldl_cons, List.foldl_append, push_skip (Or.inl rfl),
      foldl_push_names hnames, List.append_nil, hwhole, List.reverse_append]
    simp [List.reverse_drop]

end TypeCoverage.Resolver
