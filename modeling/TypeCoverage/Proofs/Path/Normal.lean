import Mathlib.Data.List.TakeWhile
import Mathlib.Tactic.Common
import TypeCoverage.Path.Normal
import TypeCoverage.Proofs.Text.Pieces

/-!
# Components of normal paths

A normal path is made of names: an absolute one of nothing else, a relative one of steps up and
then names. Where a relative path is followed from a directory, its normal form and that of the
whole path are built in step, and differ in what the steps up take away from the directory.
-/

set_option autoImplicit false

namespace TypeCoverage.Path

open Text (pieces)

variable {absolute : Bool} {stack parts : List Text} {path : Text}

/-! ## Names -/

/-- Whether a component is a name of an entry. -/
def IsName (p : Text) : Prop := (p ≠ [] ∧ p ≠ here ∧ p ≠ up) ∧ '/' ∉ p

theorem push_skip {p : Text} (h : p = [] ∨ p = here) : push absolute stack p = stack := by
  unfold push
  rw [if_pos h]

theorem push_name {p : Text} (h : IsName p) : push absolute stack p = p :: stack := by
  obtain ⟨⟨hnil, hhere, hup⟩, -⟩ := h
  unfold push
  rw [if_neg (not_or.2 ⟨hnil, hhere⟩), if_neg hup]

/-- A step up takes a name back. -/
theorem push_up_cons {top : Text} (h : IsName top) : push absolute (top :: stack) up = stack := by
  unfold push
  rw [if_neg (by decide), if_pos rfl]
  exact if_pos h.1.2.2

/-- Names are pushed as they are. -/
theorem foldl_push_names (h : ∀ p ∈ parts, IsName p) :
    parts.foldl (push absolute) stack = parts.reverse ++ stack := by
  induction parts generalizing stack with
  | nil => rfl
  | cons p ps ih =>
      rw [List.foldl_cons, push_name (h p (by simp)), ih fun q hq => h q (by simp [hq])]
      simp

/-- Steps up and names are components, none of them empty. -/
theorem plain_of_mem_steps {n : Nat} {found : List Text} (h : ∀ p ∈ found, IsName p) :
    ∀ p ∈ List.replicate n up ++ found, p ≠ [] ∧ '/' ∉ p := by
  refine List.forall_mem_append.2 ⟨fun p hp => ?_, fun p hp => ⟨(h p hp).1.1, (h p hp).2⟩⟩
  rw [List.eq_of_mem_replicate hp]
  decide

/-! ## A path and the whole path -/

/-- The components of a relative path and of the whole path when it is followed from `base`, all
with the last one first: some steps up and then names, which take as many components from `base`. -/
def Viewed (base relative whole : List Text) : Prop :=
  ∃ n names, (∀ p ∈ names, IsName p) ∧ relative = names ++ List.replicate n up
    ∧ whole = names ++ base.drop n

theorem Viewed.push {base relative whole : List Text} {p : Text} (hbase : ∀ q ∈ base, IsName q)
    (hp : '/' ∉ p) (h : Viewed base relative whole) :
    Viewed base (push false relative p) (push true whole p) := by
  obtain ⟨n, names, hnames, rfl, rfl⟩ := h
  by_cases hskip : p = [] ∨ p = here
  · rw [push_skip hskip, push_skip hskip]
    exact ⟨n, names, hnames, rfl, rfl⟩
  by_cases hup : p = up
  · subst hup
    cases names with
    | cons top rest =>
        have htop : IsName top := hnames top (by simp)
        rw [List.cons_append, List.cons_append, push_up_cons htop, push_up_cons htop]
        exact ⟨n, rest, fun q hq => hnames q (by simp [hq]), rfl, rfl⟩
    | nil =>
        refine ⟨n + 1, [], by simp, ?_, ?_⟩
        · cases n <;> rfl
        -- what is left of the base loses one more component
        · rw [List.nil_append, List.nil_append, ← List.tail_drop]
          cases hdrop : base.drop n with
          | nil => rfl
          | cons top rest =>
              have hmem : top ∈ base := List.mem_of_mem_drop (by rw [hdrop]; simp)
              exact push_up_cons (hbase top hmem)
  · have hname : IsName p := ⟨⟨fun h => hskip (Or.inl h), fun h => hskip (Or.inr h), hup⟩, hp⟩
    rw [push_name hname, push_name hname]
    refine ⟨n, p :: names, fun q hq => ?_, rfl, rfl⟩
    rcases List.mem_cons.1 hq with rfl | hq
    · exact hname
    · exact hnames q hq

theorem Viewed.foldl {base relative whole : List Text} (hbase : ∀ q ∈ base, IsName q)
    (hparts : ∀ p ∈ parts, '/' ∉ p) (h : Viewed base relative whole) :
    Viewed base (parts.foldl (Path.push false) relative) (parts.foldl (Path.push true) whole) := by
  induction parts generalizing relative whole with
  | nil => exact h
  | cons p ps ih =>
      rw [List.foldl_cons, List.foldl_cons]
      exact ih (fun q hq => hparts q (by simp [hq])) (h.push hbase (hparts p (by simp)))

/-- No component of a normal absolute path is anything but a name. -/
theorem isName_of_mem_components (h : isAbsolute path = true) {p : Text}
    (hp : p ∈ components path) : IsName p := by
  have hparts : ∀ q ∈ pieces '/' path, '/' ∉ q := fun q hq => Text.not_mem_of_mem_pieces hq
  have hviewed : Viewed [] [] [] := ⟨0, [], by simp, rfl, rfl⟩
  obtain ⟨n, names, hnames, -, hwhole⟩ := hviewed.foldl (by simp) hparts
  rw [components, h, hwhole, List.mem_reverse, List.drop_nil, List.append_nil] at hp
  exact hnames p hp

/-! ## Pieces -/

/-- A path is known from its pieces. -/
theorem eq_of_pieces {p q : Text} (h : pieces '/' p = pieces '/' q) : p = q := by
  rw [← Text.join_pieces '/' p, h, Text.join_pieces]

theorem pieces_join_names {ps : List Text} (h : ∀ p ∈ ps, '/' ∉ p) :
    pieces '/' (Text.join ['/'] ps) = if ps = [] then [[]] else ps := by
  split
  · next hnil =>
      subst hnil
      rfl
  · next hne => exact Text.pieces_join hne h

/-- The pieces of a normal absolute path: an empty one, and its components. -/
theorem pieces_ofComponents {ps : List Text} (h : ∀ p ∈ ps, IsName p) :
    pieces '/' (ofComponents true ps) = [] :: if ps = [] then [[]] else ps := by
  rw [ofComponents, if_pos rfl, Text.pieces_sep, pieces_join_names fun p hp => (h p hp).2]

theorem ofComponents_injective {ps qs : List Text} (hps : ∀ p ∈ ps, IsName p)
    (hqs : ∀ q ∈ qs, IsName q) (h : ofComponents true ps = ofComponents true qs) : ps = qs := by
  have hpieces := congrArg (pieces '/') h
  rw [pieces_ofComponents hps, pieces_ofComponents hqs] at hpieces
  have hpieces := (List.cons.inj hpieces).2
  -- the empty component of the root is no name
  have hroot : ∀ rs : List Text, (∀ r ∈ rs, IsName r) → [[]] ≠ rs := by
    rintro rs hrs rfl
    exact (hrs [] (by simp)).1.1 rfl
  split at hpieces
  · split at hpieces
    · simp [*]
    · exact absurd hpieces (hroot qs hqs)
  · split at hpieces
    · exact absurd hpieces.symm (hroot ps hps)
    · exact hpieces

theorem isAbsolute_iff : isAbsolute path = true ↔ ∃ rest, path = '/' :: rest := by
  constructor
  · intro h
    unfold isAbsolute at h
    split at h
    · next rest => exact ⟨rest, rfl⟩
    · cases h
  · rintro ⟨rest, rfl⟩
    rfl

theorem isAbsolute_eq (s : Text) : isAbsolute s = (s.head? == some '/') := by
  unfold isAbsolute
  split
  · rfl
  · next h =>
      cases s with
      | nil => rfl
      | cons c cs =>
          have hc : c ≠ '/' := fun hc => h cs (by rw [hc])
          simp [hc]

theorem isAbsolute_append {s t : Text} (hs : s ≠ []) :
    isAbsolute (s ++ t) = isAbsolute s := by
  obtain ⟨c, cs, rfl⟩ := List.exists_cons_of_ne_nil hs
  rw [isAbsolute_eq, isAbsolute_eq]
  rfl

theorem isAbsolute_join {first : Text} (ps : List Text) (hfirst : '/' ∉ first) :
    isAbsolute (Text.join ['/'] (first :: ps)) = (first.isEmpty && !ps.isEmpty) := by
  cases first with
  | nil => cases ps <;> rfl
  | cons c cs =>
      have hc : c ≠ '/' := fun hc => hfirst (by simp [hc])
      rw [isAbsolute_eq]
      cases ps <;> simp [Text.join, hc]

theorem isAbsolute_join_of_ne_nil {ps : List Text} (h : ∀ p ∈ ps, p ≠ [] ∧ '/' ∉ p) :
    isAbsolute (Text.join ['/'] ps) = false := by
  cases ps with
  | nil => rfl
  | cons p ps =>
      obtain ⟨hne, hsep⟩ := h p (by simp)
      rw [isAbsolute_join ps hsep, List.isEmpty_eq_false_iff.2 hne, Bool.false_and]

/-- An absolute path that is its own normal form is written from its names. -/
theorem exists_names_of_normal (habsolute : isAbsolute path = true)
    (hnormal : normalize path = path) :
    ∃ names, (∀ p ∈ names, IsName p) ∧ path = ofComponents true names := by
  refine ⟨components path, fun p hp => isName_of_mem_components habsolute hp, ?_⟩
  rw [normalize, habsolute] at hnormal
  exact hnormal.symm

/-! ## The directory of a path -/

/-- A path is a single piece, or a directory and the last piece. -/
theorem eq_last_or (path : Text) :
    '/' ∉ path ∨ ∃ dir last, '/' ∉ last ∧ path = under dir last := by
  induction path with
  | nil => exact Or.inl (by simp)
  | cons c cs ih =>
      rcases ih with h | ⟨dir, last, hlast, rfl⟩
      · by_cases hc : c = '/'
        · subst hc
          exact Or.inr ⟨[], cs, h, rfl⟩
        · exact Or.inl (by simp [h, Ne.symm hc])
      · exact Or.inr ⟨c :: dir, last, hlast, rfl⟩

theorem parent?_of_not_mem (h : '/' ∉ path) : parent? path = none := by
  have hall : ∀ c ∈ path.reverse, (c != '/') = true := by
    intro c hc
    have hne : c ≠ '/' := fun he => h (by simpa [he] using hc)
    simpa using hne
  rw [parent?, List.dropWhile_eq_nil_iff.2 hall]

theorem parent?_under {dir last : Text} (h : '/' ∉ last) : parent? (under dir last) = some dir := by
  have hall : ∀ c ∈ last.reverse, (c != '/') = true := by
    intro c hc
    have hne : c ≠ '/' := fun he => h (by simpa [he] using hc)
    simpa using hne
  have hreverse : (under dir last).reverse = last.reverse ++ '/' :: dir.reverse := by
    simp [under]
  rw [parent?, hreverse, List.dropWhile_append_of_pos hall]
  simp

theorem pieces_under (dir part : Text) :
    pieces '/' (under dir part) = pieces '/' dir ++ pieces '/' part :=
  Text.pieces_append_sep dir part

/-! ## Paths that lead straight down -/

/-- Whether a path leads straight down: all of its pieces are names. -/
def Descends (path : Text) : Prop := ∀ p ∈ pieces '/' path, IsName p

theorem Descends.isAbsolute_eq (h : Descends path) : isAbsolute path = false := by
  rw [Bool.eq_false_iff]
  intro habsolute
  obtain ⟨rest, rfl⟩ := isAbsolute_iff.1 habsolute
  rw [Descends, Text.pieces_sep] at h
  exact (h [] (by simp)).1.1 rfl

theorem not_descends_nil : ¬ Descends [] := fun h => (h [] (by simp [pieces])).1.1 rfl

end TypeCoverage.Path
