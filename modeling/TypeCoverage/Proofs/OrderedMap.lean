import Mathlib.Data.List.Induction
import Mathlib.Data.List.Nodup
import TypeCoverage.OrderedMap

/-!
# Lists as ordered maps

`ofList` puts any list of entries in order. A list in order is kept as it is, and at each key
the map has the value of the last entry with that key.
-/

set_option autoImplicit false

namespace TypeCoverage.OrderedMap

variable {α β : Type}

/-! ## Entries in order -/

theorem insertEntry_concat {key : Text} (value : α) {es : List (Text × α)}
    (h : ∀ e ∈ es, e.1 < key) : insertEntry key value es = es ++ [(key, value)] := by
  induction es with
  | nil => rfl
  | cons e es ih =>
      obtain ⟨k, v⟩ := e
      have hk : k < key := h (k, v) (by simp)
      have hne : k ≠ key := by
        rintro rfl
        exact List.lt_irrefl k hk
      rw [insertEntry, if_neg (List.lt_asymm hk), if_neg hne, ih fun e he => h e (by simp [he])]
      rfl

theorem entries_foldl_insert (es : List (Text × α)) (m : OrderedMap α)
    (h : (m.entries ++ es).Pairwise fun a b => a.1 < b.1) :
    (es.foldl (fun m e => m.insert e.1 e.2) m).entries = m.entries ++ es := by
  induction es generalizing m with
  | nil => simp
  | cons e es ih =>
      have hlast : (m.insert e.1 e.2).entries = m.entries ++ [e] :=
        insertEntry_concat e.2 fun e' he' => (List.pairwise_append.1 h).2.2 e' he' e (by simp)
      rw [List.foldl_cons, ih (m.insert e.1 e.2) (by rwa [hlast, List.append_assoc]), hlast,
        List.append_assoc]
      rfl

/-- A map is the map of its entries. -/
theorem ofList_entries (m : OrderedMap α) : ofList m.entries = m := by
  have h : (ofList m.entries).entries = m.entries := entries_foldl_insert m.entries empty m.sorted
  cases hm : ofList m.entries with
  | mk es sorted =>
      rw [hm] at h
      subst h
      rfl

theorem lookup_map (f : α → β) (key : Text) (es : List (Text × α)) :
    lookup key (es.map fun e => (e.1, f e.2)) = (lookup key es).map f := by
  induction es with
  | nil => rfl
  | cons e es ih =>
      by_cases h : e.1 = key
      · simp [lookup, h]
      · simp [lookup, h, ih]

theorem get?_map (f : α → β) (m : OrderedMap α) (key : Text) :
    (m.map f).get? key = (m.get? key).map f :=
  lookup_map f key m.entries

/-! ## The last entry of a key -/

theorem get?_foldl_insert (es : List (Text × α)) (m : OrderedMap α) (key : Text) :
    (es.foldl (fun m e => m.insert e.1 e.2) m).get? key
      = (lookup key es.reverse).or (m.get? key) := by
  -- from the end, since the last entry of a key decides
  induction es using List.reverseRecOn with
  | nil => rfl
  | append_singleton es e ih =>
      rw [List.foldl_append, List.foldl_cons, List.foldl_nil, get?_insert, ih,
        List.reverse_append]
      by_cases h : key = e.1
      · simp [lookup, h]
      · simp [lookup, h, Ne.symm h]

theorem get?_ofList (es : List (Text × α)) (key : Text) :
    (ofList es).get? key = lookup key es.reverse := by
  rw [ofList, get?_foldl_insert, get?_empty, Option.or_none]

theorem lookup_eq_none {key : Text} {es : List (Text × α)} (h : ∀ e ∈ es, e.1 ≠ key) :
    lookup key es = none := by
  induction es with
  | nil => rfl
  | cons e es ih =>
      rw [lookup, if_neg (h e (by simp)), ih fun e' he' => h e' (by simp [he'])]

theorem lookup_eq_some {key : Text} {value : α} {es : List (Text × α)} (h : (key, value) ∈ es)
    (hall : ∀ e ∈ es, e.1 = key → e.2 = value) : lookup key es = some value := by
  induction es with
  | nil => simp at h
  | cons e es ih =>
      by_cases he : e.1 = key
      · rw [lookup, if_pos he, hall e (by simp) he]
      · have hmem : (key, value) ∈ es := by
          rcases List.mem_cons.1 h with rfl | hmem
          · exact absurd rfl he
          · exact hmem
        rw [lookup, if_neg he, ih hmem fun e' he' => hall e' (by simp [he'])]

/-- Where all entries with a key agree, the map has their value. -/
theorem get?_ofList_of_mem {key : Text} {value : α} {es : List (Text × α)}
    (h : (key, value) ∈ es) (hall : ∀ e ∈ es, e.1 = key → e.2 = value) :
    (ofList es).get? key = some value := by
  rw [get?_ofList]
  exact lookup_eq_some (List.mem_reverse.2 h) fun e he => hall e (List.mem_reverse.1 he)

theorem get?_ofList_of_not_mem {key : Text} {es : List (Text × α)} (h : ∀ e ∈ es, e.1 ≠ key) :
    (ofList es).get? key = none := by
  rw [get?_ofList]
  exact lookup_eq_none fun e he => h e (List.mem_reverse.1 he)

/-! ## Keys and values -/

theorem mem_keys_iff {m : OrderedMap α} {key : Text} : key ∈ m.keys ↔ m.get? key ≠ none := by
  show key ∈ m.entries.map Prod.fst ↔ lookup key m.entries ≠ none
  induction m.entries with
  | nil => simp [lookup]
  | cons e es ih =>
      rw [List.map_cons, List.mem_cons, ih, lookup]
      by_cases h : e.1 = key
      · simp [h]
      · simp [h, Ne.symm h]

theorem entries_eq_of_lookup {es es' : List (Text × α)}
    (hsorted : es.Pairwise fun a b => a.1 < b.1) (hsorted' : es'.Pairwise fun a b => a.1 < b.1)
    (h : ∀ key, lookup key es = lookup key es') : es = es' := by
  -- the first keys are the least ones of the two lists
  induction es generalizing es' with
  | nil =>
      cases es' with
      | nil => rfl
      | cons e' es' =>
          have hfirst := h e'.1
          simp [lookup] at hfirst
  | cons e es ih =>
      cases es' with
      | nil =>
          have hfirst := h e.1
          simp [lookup] at hfirst
      | cons e' es' =>
          rw [List.pairwise_cons] at hsorted hsorted'
          have habsent : ∀ {e : Text × α} {es : List (Text × α)} {key : Text},
              (∀ f ∈ es, e.1 < f.1) → ¬ e.1 < key → lookup key es = none := by
            intro e es key hlt hkey
            apply lookup_eq_none
            rintro f hf rfl
            exact hkey (hlt f hf)
          have hkey : e.1 = e'.1 := by
            have hfirst := h e.1
            have hfirst' := h e'.1
            rw [lookup, if_pos rfl, lookup] at hfirst
            rw [lookup, lookup, if_pos rfl] at hfirst'
            by_contra hne
            rw [if_neg (Ne.symm hne)] at hfirst
            rw [if_neg hne] at hfirst'
            by_cases hlt : e.1 < e'.1
            · rw [habsent hsorted'.1 (List.lt_asymm hlt)] at hfirst
              cases hfirst
            · rw [habsent hsorted.1 hlt] at hfirst'
              cases hfirst'
          have hvalue : e.2 = e'.2 := by
            have hfirst := h e.1
            rw [lookup, if_pos rfl, lookup, if_pos hkey.symm] at hfirst
            exact Option.some.inj hfirst
          have hrest : ∀ key, lookup key es = lookup key es' := by
            intro key
            by_cases hk : e.1 = key
            · subst hk
              rw [habsent hsorted.1 (List.lt_irrefl _),
                habsent hsorted'.1 (hkey ▸ List.lt_irrefl _)]
            · have hsame := h key
              rw [lookup, if_neg hk, lookup, if_neg (hkey ▸ hk)] at hsame
              exact hsame
          rw [Prod.ext hkey hvalue, ih hsorted.2 hsorted'.2 hrest]

/-- Maps with the same value at every key are equal. -/
theorem eq_of_get? {m m' : OrderedMap α} (h : ∀ key, m.get? key = m'.get? key) : m = m' := by
  obtain ⟨es, hsorted⟩ := m
  obtain ⟨es', hsorted'⟩ := m'
  obtain rfl : es = es' := entries_eq_of_lookup hsorted hsorted' h
  rfl

/-- Maps with values at the same keys have the same list of keys. -/
theorem keys_eq_of_get? {m : OrderedMap α} {m' : OrderedMap β}
    (h : ∀ key, m.get? key = none ↔ m'.get? key = none) : m.keys = m'.keys := by
  have hunit : m.map (fun _ => ()) = m'.map fun _ => () := by
    apply eq_of_get?
    intro key
    rw [get?_map, get?_map]
    cases hm : m.get? key with
    | none => rw [(h key).1 hm, Option.map_none, Option.map_none]
    | some a =>
        cases hm' : m'.get? key with
        | none => exact absurd ((h key).2 hm') (by simp [hm])
        | some b => rfl
  have hkeys : ∀ {γ : Type} (m : OrderedMap γ), (m.map fun _ => ()).keys = m.keys := by
    intro γ m
    rw [keys, map, List.map_map]
    rfl
  rw [← hkeys m, hunit, hkeys]

/-- The order of a list of entries makes no difference where all entries with one key agree. -/
theorem ofList_perm {es es' : List (Text × α)} (hperm : es'.Perm es)
    (hagree : ∀ e ∈ es, ∀ e' ∈ es, e.1 = e'.1 → e.2 = e'.2) : ofList es' = ofList es := by
  apply eq_of_get?
  intro key
  by_cases hkey : ∃ e ∈ es, e.1 = key
  · obtain ⟨e, he, rfl⟩ := hkey
    rw [get?_ofList_of_mem he fun f hf hf' => hagree f hf e he hf']
    apply get?_ofList_of_mem (hperm.mem_iff.2 he)
    intro f hf hf'
    exact hagree f (hperm.mem_iff.1 hf) e he hf'
  · have hnot : ∀ e ∈ es, e.1 ≠ key := fun e he hkey' => hkey ⟨e, he, hkey'⟩
    rw [get?_ofList_of_not_mem hnot]
    apply get?_ofList_of_not_mem
    intro e he
    exact hnot e (hperm.mem_iff.1 he)

/-! ## Entries and values -/

theorem mem_of_lookup {key : Text} {value : α} {es : List (Text × α)}
    (h : lookup key es = some value) : (key, value) ∈ es := by
  induction es with
  | nil => cases h
  | cons e es ih =>
      rw [lookup] at h
      split at h
      · next hkey =>
          obtain rfl := Option.some.inj h
          simp [← hkey]
      · exact List.mem_cons_of_mem e (ih h)

theorem lookup_of_mem {key : Text} {value : α} {es : List (Text × α)}
    (hsorted : es.Pairwise fun a b => a.1 < b.1) (h : (key, value) ∈ es) :
    lookup key es = some value := by
  induction es with
  | nil => cases h
  | cons e es ih =>
      rw [List.pairwise_cons] at hsorted
      rcases List.mem_cons.1 h with rfl | hmem
      · exact if_pos rfl
      · have hne : e.1 ≠ key := by
          rintro rfl
          exact List.lt_irrefl e.1 (hsorted.1 (e.1, value) hmem)
        rw [lookup, if_neg hne, ih hsorted.2 hmem]

theorem get?_eq_some_iff {m : OrderedMap α} {key : Text} {value : α} :
    m.get? key = some value ↔ (key, value) ∈ m.entries :=
  ⟨mem_of_lookup, lookup_of_mem m.sorted⟩

/-- The entries of the map of a list are among those of the list. -/
theorem mem_of_mem_ofList {es : List (Text × α)} {e : Text × α} (h : e ∈ (ofList es).entries) :
    e ∈ es := by
  have hget := get?_eq_some_iff.2 h
  rw [get?_ofList] at hget
  exact List.mem_reverse.1 (mem_of_lookup hget)

/-- The map of a list in which no key comes twice has just the entries of the list. -/
theorem entries_ofList_perm {es : List (Text × α)} (hkeys : (es.map Prod.fst).Nodup) :
    (ofList es).entries.Perm es := by
  have hsorted : (ofList es).entries.Nodup := by
    refine (ofList es).sorted.imp fun {a b} hlt heq => ?_
    subst heq
    exact List.lt_irrefl a.1 hlt
  rw [List.perm_ext_iff_of_nodup hsorted (hkeys.of_map Prod.fst)]
  intro e
  constructor
  · exact mem_of_mem_ofList
  · intro he
    rw [← get?_eq_some_iff]
    refine get?_ofList_of_mem he fun f hf hkey => ?_
    rw [List.inj_on_of_nodup_map hkeys hf he hkey]

end TypeCoverage.OrderedMap
