import TypeCoverage.Json.Schema
import TypeCoverage.Proofs.Json.ReadBack

/-!
# Printed values read by a shape

`Rereads` says what a shape makes of a printed value. A count that does not fit in 64 bits is
the only thing that is printed and then refused, so all of these statements have an outcome for
every value.
-/

set_option autoImplicit false

namespace TypeCoverage.Json

variable {α β : Type} {level depth : Nat}

/-- The value that is printed at `level` is read by the shape as `x?`, and is refused if that
is `none`. -/
def Rereads (level depth : Nat) (s : Shape α) (v : Json) (x? : Option α) : Prop :=
  ∃ r, ReadsAs level depth v r ∧ (r.bind fun w => (s.ofJson w).toOption) = x?

theorem rereads_count (level depth n : Nat) :
    Rereads level depth .count (.nat n) (if n ≤ maxCount then some n else none) := by
  refine ⟨_, readsAs_nat level depth n, ?_⟩
  by_cases h : n ≤ maxCount
  · rw [rereadCount?_of_le h, if_pos h]
    rfl
  · rw [if_neg h]
    cases hm : rereadCount? n with
    | none => rfl
    | some m =>
        obtain ⟨x, rfl⟩ := eq_decimal_of_rereadCount? (Nat.lt_of_not_le h) hm
        rfl

/-- Two passes over a list that may each fail are one pass. -/
theorem mapM_bind_mapM {γ : Type} (f : α → Option β) (g : β → Option γ) (xs : List α) :
    ((xs.mapM f).bind fun ys => ys.mapM g) = xs.mapM fun x => (f x).bind g := by
  induction xs with
  | nil => rfl
  | cons x xs ih =>
      rw [List.mapM_cons, List.mapM_cons, ← ih]
      cases f x with
      | none => rfl
      | some y =>
          cases hys : xs.mapM f with
          | none => cases hy : g y <;> simp [hy]
          | some ys => simp [List.mapM_cons]

theorem mapM_congr {f g : α → Option β} {xs : List α} (h : ∀ x ∈ xs, f x = g x) :
    xs.mapM f = xs.mapM g := by
  induction xs with
  | nil => rfl
  | cons x xs ih =>
      rw [List.mapM_cons, List.mapM_cons, h x (by simp), ih fun y hy => h y (by simp [hy])]

/-- A pass over a list that fails nowhere. -/
theorem mapM_eq_some_map {f : α → Option β} {g : α → β} {xs : List α}
    (h : ∀ x ∈ xs, f x = some (g x)) : xs.mapM f = some (xs.map g) := by
  induction xs with
  | nil => rfl
  | cons x xs ih =>
      rw [List.mapM_cons, h x (by simp), ih fun y hy => h y (by simp [hy])]
      rfl

section

variable {ι : Type} {s : Shape α} {g : ι → Json} {x? : ι → Option α}

/-- A printed list is read as an array, if it is read at all. -/
theorem readsAs_list (xs : List ι) (h : ∀ x ∈ xs, Rereads (level + 1) depth s (g x) (x? x)) :
    ∃ vs? : Option (List Json), ReadsAs level (depth + 1) (.array (xs.map g)) (vs?.map .array)
      ∧ (vs?.bind fun vs => ((Shape.list s).ofJson (.array vs)).toOption) = xs.mapM x? := by
  choose! r hr hx using h
  refine ⟨_, readsAs_array xs hr, ?_⟩
  rw [← mapM_congr hx, ← mapM_bind_mapM]
  cases xs.mapM r with
  | none => rfl
  | some vs => exact toOption_mapM s.ofJson vs

theorem rereads_list (xs : List ι) (h : ∀ x ∈ xs, Rereads (level + 1) depth s (g x) (x? x)) :
    Rereads level (depth + 1) (.list s) (.array (xs.map g)) (xs.mapM x?) := by
  obtain ⟨vs?, hvs, hx⟩ := readsAs_list xs h
  exact ⟨_, hvs, by rw [← hx, Option.bind_map]; rfl⟩

theorem rereads_optional_list (xs : List ι)
    (h : ∀ x ∈ xs, Rereads (level + 1) depth s (g x) (x? x)) :
    Rereads level (depth + 1) (Shape.list s).optional (.array (xs.map g))
      ((xs.mapM x?).map some) := by
  obtain ⟨vs?, hvs, hx⟩ := readsAs_list xs h
  refine ⟨_, hvs, ?_⟩
  rw [← hx]
  cases vs? with
  | none => rfl
  | some vs => exact toOption_map ((Shape.list s).ofJson (.array vs)) some

end

/-! ## Records -/

/-- An object of three-part members: a key, a value, and what the value is read as. -/
theorem readsAs_members (level depth : Nat) (ms : List (Text × Json × Option Json))
    (h : ∀ m ∈ ms, ReadsAs (level + 1) depth m.2.1 m.2.2) :
    ReadsAs level (depth + 1) (.object (ms.map fun m => (m.1, m.2.1)))
      ((ms.mapM fun m : Text × Json × Option Json => m.2.2.map fun v => (m.1, v)).map ofMembers) :=
  readsAs_object ms h

/-- A member with a field's name sets the field. -/
theorem RecordShape.draftOfMembers_cons {σ : Type} (s : RecordShape σ α) {name : Text}
    {required : Bool} {shape : Shape β} {isSet : σ → Bool} {set : σ → β → σ}
    (h : s.field? name = some (.of name required shape isSet set)) (draft : σ) (v : Json)
    (ms : List (Text × Json)) :
    (s.draftOfMembers draft ((name, v) :: ms)).toOption
      = (shape.ofJson v).toOption.bind fun x => (s.draftOfMembers (set draft x) ms).toOption := by
  rw [RecordShape.draftOfMembers, h]
  dsimp only
  rw [toOption_bind, Field.of]
  dsimp only
  rw [toOption_map]
  cases (shape.ofJson v).toOption <;> rfl

end TypeCoverage.Json
