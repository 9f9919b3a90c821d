import TypeCoverage.Text.Basic

/-!
# Ordered maps

A finite map from texts to values, kept as the list of its entries in strictly increasing order
of keys (by code points, which is also the order of their UTF-8 bytes). Two such maps are equal
exactly when they have the same value, or none, at every key.
-/

set_option autoImplicit false

namespace TypeCoverage

/-- A finite map from texts to values, its entries in strictly increasing order of keys. -/
structure OrderedMap (α : Type) where
  entries : List (Text × α)
  sorted : entries.Pairwise (fun a b => a.1 < b.1)

namespace OrderedMap

variable {α β : Type}

/-! ## Entry lists -/

/-- The value of the first entry with this key. -/
def lookup (key : Text) : List (Text × α) → Option α
  | [] => none
  | (k, v) :: es => if k = key then some v else lookup key es

/-- The entries with `value` at `key`, in place of any value that stood there. -/
def insertEntry (key : Text) (value : α) : List (Text × α) → List (Text × α)
  | [] => [(key, value)]
  | (k, v) :: es =>
    if key < k then (key, value) :: (k, v) :: es
    else if k = key then (key, value) :: es
    else (k, v) :: insertEntry key value es

theorem mem_insertEntry {key : Text} {value : α} {es : List (Text × α)} {e : Text × α}
    (h : e ∈ insertEntry key value es) : e = (key, value) ∨ e ∈ es := by
  induction es with
  | nil => exact Or.inl (by simpa [insertEntry] using h)
  | cons e' es ih =>
    obtain ⟨k, v⟩ := e'
    simp only [insertEntry] at h
    split at h
    · rcases List.mem_cons.1 h with h | h
      · exact Or.inl h
      · exact Or.inr h
    · split at h
      · rcases List.mem_cons.1 h with h | h
        · exact Or.inl h
        · exact Or.inr (List.mem_cons_of_mem _ h)
      · rcases List.mem_cons.1 h with h | h
        · exact Or.inr (by simp [h])
        · rcases ih h with h | h
          · exact Or.inl h
          · exact Or.inr (List.mem_cons_of_mem _ h)

theorem sorted_insertEntry {key : Text} {value : α} {es : List (Text × α)}
    (h : es.Pairwise (fun a b => a.1 < b.1)) :
    (insertEntry key value es).Pairwise (fun a b => a.1 < b.1) := by
  induction es with
  | nil => simp [insertEntry]
  | cons e es ih =>
    obtain ⟨k, v⟩ := e
    rw [List.pairwise_cons] at h
    simp only [insertEntry]
    split
    · next hlt =>
      refine List.pairwise_cons.2 ⟨fun e he => ?_, List.pairwise_cons.2 h⟩
      rcases List.mem_cons.1 he with rfl | he
      · exact hlt
      · exact List.lt_trans hlt (h.1 e he)
    · next hlt =>
      split
      · next heq =>
        exact List.pairwise_cons.2 ⟨fun e he => heq ▸ h.1 e he, h.2⟩
      · next hne =>
        refine List.pairwise_cons.2 ⟨fun e he => ?_, ih h.2⟩
        rcases mem_insertEntry he with rfl | he
        · rcases Std.Trichotomous.rel_or_eq_or_rel_swap (r := (· < · : Text → Text → Prop))
            (a := k) (b := key) with hk | hk | hk
          · exact hk
          · exact absurd hk hne
          · exact absurd hk hlt
        · exact h.1 e he

/-! ## Maps -/

def empty : OrderedMap α := ⟨[], List.Pairwise.nil⟩

instance : Inhabited (OrderedMap α) := ⟨empty⟩

def get? (m : OrderedMap α) (key : Text) : Option α := lookup key m.entries

/-- The map with `value` at `key`, in place of any value that stood there. -/
def insert (m : OrderedMap α) (key : Text) (value : α) : OrderedMap α :=
  ⟨insertEntry key value m.entries, sorted_insertEntry m.sorted⟩

/-- The keys in increasing order. -/
def keys (m : OrderedMap α) : List Text := m.entries.map (·.1)

def size (m : OrderedMap α) : Nat := m.entries.length

/-- The map with the given entries; of two entries with one key the later counts. -/
def ofList (es : List (Text × α)) : OrderedMap α :=
  es.foldl (fun m e => m.insert e.1 e.2) empty

def map (f : α → β) (m : OrderedMap α) : OrderedMap β :=
  ⟨m.entries.map fun e => (e.1, f e.2), List.pairwise_map.2 m.sorted⟩

theorem lookup_insertEntry (key k : Text) (value : α) (es : List (Text × α)) :
    lookup k (insertEntry key value es) = if k = key then some value else lookup k es := by
  induction es with
  | nil => simp [insertEntry, lookup, eq_comm]
  | cons e es ih =>
    obtain ⟨k', v⟩ := e
    simp only [insertEntry]
    split
    · simp [lookup, eq_comm]
    · split
      · next h =>
        subst h
        by_cases hk : k = k'
        · simp [lookup, hk]
        · simp [lookup, hk, Ne.symm hk]
      · next h =>
        by_cases hk : k = key
        · subst hk
          simp [lookup, ih, h]
        · simp [lookup, ih, hk]

@[simp] theorem get?_empty (k : Text) : (empty : OrderedMap α).get? k = none := rfl

theorem get?_insert (m : OrderedMap α) (key k : Text) (value : α) :
    (m.insert key value).get? k = if k = key then some value else m.get? k :=
  lookup_insertEntry key k value m.entries

end OrderedMap

end TypeCoverage
