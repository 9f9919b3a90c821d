import TypeCoverage.Proofs.Path.Normal

/-!
# Joining onto normal paths

A normal path is made of steps up and then names, and an absolute one of names alone. Whoever
follows its components meets them again, so it is its own normal form, and what is joined onto a
path leads to where it leads from the normal form. Only a relative path that comes back to where it
began cannot be replaced so: its normal form is empty, and what is joined onto nothing begins at the
root.
-/

set_option autoImplicit false

namespace TypeCoverage.Path

open Text (pieces)

variable {absolute : Bool} {stack parts : List Text} {path : Text}

/-! ## Components in normal form -/

/-- Whether components are some steps up and then names, without steps up in an absolute path. -/
def Stepwise (absolute : Bool) (parts : List Text) : Prop :=
  ∃ n names, parts = List.replicate n up ++ names ∧ (∀ p ∈ names, IsName p)
    ∧ (absolute = true → n = 0)

/-- Whether a path is written from such components. -/
def IsNormal (path : Text) : Prop :=
  ∃ parts, Stepwise (isAbsolute path) parts ∧ path = ofComponents (isAbsolute path) parts

theorem Stepwise.plain (h : Stepwise absolute parts) : ∀ p ∈ parts, p ≠ [] ∧ '/' ∉ p := by
  obtain ⟨n, names, rfl, hnames, -⟩ := h
  exact plain_of_mem_steps hnames

/-- The stack of the pass over any path holds names above steps up. -/
theorem stepwise_components (path : Text) : Stepwise (isAbsolute path) (components path) := by
  have hparts : ∀ p ∈ pieces '/' path, '/' ∉ p := fun p hp => Text.not_mem_of_mem_pieces hp
  have hviewed : Viewed [] [] [] := ⟨0, [], by simp, rfl, rfl⟩
  obtain ⟨n, names, hnames, hrelative, hwhole⟩ := hviewed.foldl (by simp) hparts
  have hreverse : ∀ p ∈ names.reverse, IsName p := by simpa using hnames
  unfold components
  cases isAbsolute path with
  | true =>
      rw [List.drop_nil, List.append_nil] at hwhole
      exact ⟨0, names.reverse, by rw [hwhole]; rfl, hreverse, fun _ => rfl⟩
  | false =>
      refine ⟨n, names.reverse, ?_, hreverse, by simp⟩
      rw [hrelative, List.reverse_append, List.reverse_replicate]

/-! ## Following a path that is written from components -/

/-- Steps up that find nothing to take back stay. -/
theorem foldl_push_up (n : Nat) :
    (List.replicate n up).foldl (push false) [] = List.replicate n up := by
  induction n with
  | zero => rfl
  | succ n ih =>
      rw [List.replicate_succ', List.foldl_append, ih, ← List.replicate_succ']
      cases n <;> rfl

/-- Components in normal form are met as they are. -/
theorem Stepwise.foldl_push (h : Stepwise absolute parts) :
    parts.foldl (push absolute) [] = parts.reverse := by
  obtain ⟨n, names, rfl, hnames, habsolute⟩ := h
  have hsteps : (List.replicate n up).foldl (push absolute) [] = List.replicate n up := by
    cases absolute with
    | true => rw [habsolute rfl]; rfl
    | false => exact foldl_push_up n
  rw [List.foldl_append, hsteps, foldl_push_names hnames, List.reverse_append,
    List.reverse_replicate]

/-- The pieces of a written path lead to where its components lead. -/
theorem foldl_push_ofComponents (h : ∀ p ∈ parts, '/' ∉ p) :
    (pieces '/' (ofComponents absolute parts)).foldl (push absolute) stack
      = parts.foldl (push absolute) stack := by
  have hjoin : (pieces '/' (Text.join ['/'] parts)).foldl (push absolute) stack
      = parts.foldl (push absolute) stack := by
    rw [pieces_join_names h]
    split
    · next hnil =>
        subst hnil
        show push absolute stack [] = stack
        exact push_skip (Or.inl rfl)
    · rfl
  cases absolute with
  | false => exact hjoin
  | true =>
      -- the slash ahead gives an empty piece
      rw [ofComponents, if_pos rfl, Text.pieces_sep, List.foldl_cons, push_skip (Or.inl rfl), hjoin]

theorem isAbsolute_ofComponents (h : ∀ p ∈ parts, p ≠ [] ∧ '/' ∉ p) :
    isAbsolute (ofComponents absolute parts) = absolute := by
  cases absolute with
  | true => rfl
  | false => exact isAbsolute_join_of_ne_nil h

/-- A path is normalized by where it begins and by where its pieces lead. -/
theorem normalize_congr {p q : Text} (habsolute : isAbsolute p = isAbsolute q)
    (hfold : (pieces '/' p).foldl (push (isAbsolute q)) []
      = (pieces '/' q).foldl (push (isAbsolute q)) []) : normalize p = normalize q := by
  rw [normalize, normalize, components, components, habsolute, hfold]

/-- A path that is written from components in normal form is its own normal form. -/
theorem Stepwise.normalize_eq (h : Stepwise absolute parts) :
    normalize (ofComponents absolute parts) = ofComponents absolute parts := by
  rw [normalize, components, isAbsolute_ofComponents h.plain,
    foldl_push_ofComponents fun p hp => (h.plain p hp).2, h.foldl_push, List.reverse_reverse]

/-! ## The normal form -/

theorem isAbsolute_normalize (path : Text) : isAbsolute (normalize path) = isAbsolute path :=
  isAbsolute_ofComponents (stepwise_components path).plain

/-- The normal form leads to where the path leads. -/
theorem foldl_push_normalize (path : Text) :
    (pieces '/' (normalize path)).foldl (push (isAbsolute path)) []
      = (pieces '/' path).foldl (push (isAbsolute path)) [] := by
  have hsteps := stepwise_components path
  rw [normalize, foldl_push_ofComponents fun p hp => (hsteps.plain p hp).2, hsteps.foldl_push,
    components, List.reverse_reverse]

theorem isNormal_normalize (path : Text) : IsNormal (normalize path) := by
  refine ⟨components path, ?_, ?_⟩
  · rw [isAbsolute_normalize]
    exact stepwise_components path
  · rw [isAbsolute_normalize]
    rfl

theorem normalize_eq_self_iff : normalize path = path ↔ IsNormal path := by
  constructor
  · intro h
    rw [← h]
    exact isNormal_normalize path
  · rintro ⟨parts, hsteps, hpath⟩
    rw [hpath]
    exact hsteps.normalize_eq

/-! ## Joining -/

theorem isAbsolute_under (hpath : path ≠ []) (part : Text) :
    isAbsolute (under path part) = isAbsolute path :=
  isAbsolute_append hpath

/-- What is joined onto a path is joined onto its normal form, unless that is empty. -/
theorem normalize_under_normalize (h : normalize path ≠ []) (part : Text) :
    normalize (under (normalize path) part) = normalize (under path part) := by
  have hpath : path ≠ [] := by
    rintro rfl
    exact h rfl
  have habsolute := isAbsolute_under hpath part
  apply normalize_congr
  · rw [isAbsolute_under h, habsolute, isAbsolute_normalize]
  · rw [habsolute, pieces_under, pieces_under, List.foldl_append, List.foldl_append,
      foldl_push_normalize]

/-- What is joined onto nothing begins at the root. -/
theorem normalize_under_nil_ne (hpath : path ≠ []) (h : normalize path = []) (part : Text) :
    normalize (under path part) ≠ normalize (under [] part) := by
  intro heq
  have hrelative : isAbsolute path = false := by
    rw [← isAbsolute_normalize, h]
    rfl
  have habsolute := congrArg isAbsolute heq
  rw [isAbsolute_normalize, isAbsolute_normalize, isAbsolute_under hpath, hrelative] at habsolute
  cases habsolute

/-- **The normal form of a path.** It is absolute exactly if the path is, and it is written from
components that are some steps up and then names, without steps up in an absolute path. The paths
that are written so are those that are their own normal forms, among them every normal form. What
is joined onto a path leads to the same normal form as what is joined onto the normal form of the
path, except where the path is not empty and its normal form is. -/
theorem normalize_normal_form (path : Text) :
    isAbsolute (normalize path) = isAbsolute path ∧ IsNormal (normalize path)
      ∧ normalize (normalize path) = normalize path ∧ (normalize path = path ↔ IsNormal path)
      ∧ ∀ part, normalize (under path part) = normalize (under (normalize path) part)
        ↔ normalize path ≠ [] ∨ path = [] := by
  refine ⟨isAbsolute_normalize path, isNormal_normalize path,
    (stepwise_components path).normalize_eq, normalize_eq_self_iff,
    fun part => ⟨fun heq => ?_, fun h => ?_⟩⟩
  · by_contra hnot
    obtain ⟨hnil, hpath⟩ := not_or.1 hnot
    have hnil := not_not.1 hnil
    rw [hnil] at heq
    exact normalize_under_nil_ne hpath hnil part heq
  · rcases h with h | rfl
    · exact (normalize_under_normalize h part).symm
    · rfl

end TypeCoverage.Path
