import TypeCoverage.Json.Schema
import TypeCoverage.Number.Reading
import TypeCoverage.Proofs.OrderedMap
import TypeCoverage.Proofs.Result

/-!
# Values that were read

Whatever document is read, its whole numbers fit in 64 bits: a number beyond that is read as
floating point. What a shape makes of such a value is bounded too.
-/

set_option autoImplicit false

namespace TypeCoverage.Json

/-- Whether all whole numbers of a value fit in 64 bits. -/
inductive InRange : Json → Prop where
  | null : InRange .null
  | bool (b : Bool) : InRange (.bool b)
  | natural {n : Nat} (h : n ≤ maxCount) : InRange (.number (.natural n))
  | negative (n : Nat) : InRange (.number (.negative n))
  | decimal (x : Binary64) : InRange (.number (.decimal x))
  | string (s : Text) : InRange (.string s)
  | array {items : List Json} (h : ∀ v ∈ items, InRange v) : InRange (.array items)
  | object {members : List (Text × Json)} (h : ∀ m ∈ members, InRange m.2) :
    InRange (.object members)

theorem InRange.of_member? {key : Text} {v w : Json} (hv : InRange v)
    (h : v.member? key = some w) : InRange w := by
  cases hv with
  | object hmembers => exact hmembers _ (OrderedMap.mem_of_lookup h)
  | _ => cases h

/-! ## Numbers -/

/-- Digits are appended as long as the number fits. -/
theorem appendDigits_le {n : Nat} (hn : n ≤ maxCount) (ds : Bytes) :
    (appendDigits n ds).1 ≤ maxCount := by
  induction ds generalizing n with
  | nil => exact hn
  | cons d ds ih =>
      rw [appendDigits]
      split
      · exact hn
      · next hle => exact ih (Nat.not_lt.1 hle)

theorem le_of_value_eq_natural {n : Numeral} {negative : Bool} {k : Nat}
    (h : n.value negative = .ok (.natural k)) : k ≤ maxCount := by
  have hle := appendDigits_le (Nat.zero_le maxCount) n.whole
  unfold Numeral.value at h
  dsimp only at h
  -- only digits without a sign, a point or an exponent make a whole number
  split at h
  · split at h
    · obtain ⟨rfl⟩ := Number.natural.inj (Except.ok.inj h)
      exact hle
    · split at h <;> cases Except.ok.inj h
  · split at h
    · split at h <;> cases h
    · split at h
      · split at h <;> cases h
      · split at h <;> cases h

/-! ## Readers -/

/-- Whether everything that a reader makes of some bytes has a property. -/
def Produces {α : Type} (read : Reader α) (P : α → Prop) : Prop :=
  ∀ bs x rest, read bs = .ok (x, rest) → P x

theorem produces_readNumber (ahead : Nat) (negative : Bool) :
    Produces (readNumber ahead negative) fun n => InRange (.number n) := by
  intro bs n rest h
  rw [readNumber, bind_eq_ok_iff] at h
  obtain ⟨⟨numeral, left⟩, -, h⟩ := h
  dsimp only at h
  cases hvalue : numeral.value negative with
  | error e =>
      rw [hvalue] at h
      cases e <;> cases h
  | ok m =>
      rw [hvalue] at h
      obtain ⟨rfl, -⟩ := Prod.mk.inj (Except.ok.inj h)
      cases m with
      | natural k => exact .natural (le_of_value_eq_natural hvalue)
      | negative k => exact .negative k
      | decimal x => exact .decimal x

theorem inRange_readScalar {ahead : Nat} {b : UInt8} {bs rest : Bytes} {v : Json}
    (h : readScalar ahead b bs = .ok (v, rest)) : InRange v := by
  unfold readScalar at h
  split at h
  · obtain ⟨left, -, h⟩ := bind_eq_ok_iff.1 h
    obtain ⟨rfl, -⟩ := Prod.mk.inj (Except.ok.inj h)
    exact .null
  · split at h
    · obtain ⟨left, -, h⟩ := bind_eq_ok_iff.1 h
      obtain ⟨rfl, -⟩ := Prod.mk.inj (Except.ok.inj h)
      exact .bool true
    · split at h
      · obtain ⟨left, -, h⟩ := bind_eq_ok_iff.1 h
        obtain ⟨rfl, -⟩ := Prod.mk.inj (Except.ok.inj h)
        exact .bool false
      · split at h
        · obtain ⟨n, hn, rfl⟩ := bind_pair_eq_ok h
          exact produces_readNumber ahead true bs n rest hn
        · split at h
          · obtain ⟨n, hn, rfl⟩ := bind_pair_eq_ok h
            exact produces_readNumber ahead false (b :: bs) n rest hn
          · split at h
            · obtain ⟨s, -, rfl⟩ := bind_pair_eq_ok h
              exact .string s
            · cases h

theorem produces_readItems {value : Reader Json} (hvalue : Produces value InRange) (fuel : Nat) :
    Produces (readItems value fuel) fun vs => ∀ v ∈ vs, InRange v := by
  induction fuel with
  | zero =>
      intro bs vs rest h
      cases h
  | succ fuel ih =>
      intro bs vs rest h
      rw [readItems, bind_eq_ok_iff] at h
      obtain ⟨⟨v, left⟩, hv, h⟩ := h
      have hv := hvalue bs v left hv
      dsimp only at h
      split at h
      · cases h
      · split at h
        · obtain ⟨rfl, -⟩ := Prod.mk.inj (Except.ok.inj h)
          simpa using hv
        · split at h
          · split at h
            · cases h
            · split at h
              · cases h
              · obtain ⟨ws, hws, rfl⟩ := bind_pair_eq_ok h
                exact List.forall_mem_cons.2 ⟨hv, ih _ ws rest hws⟩
          · cases h

theorem produces_readMember {value : Reader Json} (hvalue : Produces value InRange) :
    Produces (readMember value) fun m => InRange m.2 := by
  intro bs m rest h
  unfold readMember at h
  split at h
  · cases h
  · split at h
    · cases h
    · obtain ⟨⟨key, left⟩, -, h⟩ := bind_eq_ok_iff.1 h
      dsimp only at h
      split at h
      · cases h
      · split at h
        · cases h
        · obtain ⟨v, hv, rfl⟩ := bind_pair_eq_ok h
          exact hvalue _ v rest hv

theorem produces_readMembers {value : Reader Json} (hvalue : Produces value InRange)
    (fuel : Nat) : Produces (readMembers value fuel) fun ms => ∀ m ∈ ms, InRange m.2 := by
  induction fuel with
  | zero =>
      intro bs ms rest h
      cases h
  | succ fuel ih =>
      intro bs ms rest h
      rw [readMembers, bind_eq_ok_iff] at h
      obtain ⟨⟨m, left⟩, hm, h⟩ := h
      have hm := produces_readMember hvalue bs m left hm
      dsimp only at h
      split at h
      · cases h
      · split at h
        · obtain ⟨rfl, -⟩ := Prod.mk.inj (Except.ok.inj h)
          simpa using hm
        · split at h
          · split at h
            · cases h
            · split at h
              · cases h
              · obtain ⟨ns, hns, rfl⟩ := bind_pair_eq_ok h
                exact List.forall_mem_cons.2 ⟨hm, ih _ ns rest hns⟩
          · cases h

theorem inRange_ofMembers {ms : List (Text × Json)} (h : ∀ m ∈ ms, InRange m.2) :
    InRange (ofMembers ms) :=
  .object fun m hm => h m (OrderedMap.mem_of_mem_ofList hm)

theorem produces_readValue (depth : Nat) : Produces (readValue depth) InRange := by
  -- the items and members of a value nest less deep than the value
  induction depth with
  | zero =>
      intro bs v rest h
      rw [readValue] at h
      split at h
      · cases h
      · split at h
        · cases h
        · split at h
          · cases h
          · exact inRange_readScalar h
  | succ depth ih =>
      intro bs v rest h
      rw [readValue] at h
      split at h
      · cases h
      · split at h
        · dsimp only at h
          split at h
          · cases h
          · split at h
            · obtain ⟨rfl, -⟩ := Prod.mk.inj (Except.ok.inj h)
              exact .array (by simp)
            · obtain ⟨vs, hvs, rfl⟩ := bind_pair_eq_ok h
              exact .array (produces_readItems ih _ _ vs rest hvs)
        · split at h
          · dsimp only at h
            split at h
            · cases h
            · split at h
              · obtain ⟨rfl, -⟩ := Prod.mk.inj (Except.ok.inj h)
                exact .object (by simp)
              · obtain ⟨ms, hms, rfl⟩ := bind_pair_eq_ok h
                exact inRange_ofMembers (produces_readMembers ih _ _ ms rest hms)
          · exact inRange_readScalar h

/-- The whole numbers of a document that was read fit in 64 bits. -/
theorem inRange_parse {bs : Bytes} {v : Json} (h : parse bs = .ok v) : InRange v := by
  unfold parse at h
  split at h
  · next w hread =>
      obtain rfl := Except.ok.inj h
      obtain ⟨⟨w', rest⟩, hvalue, hread⟩ := bind_eq_ok_iff.1 hread
      obtain ⟨-, -, hread⟩ := bind_eq_ok_iff.1 hread
      obtain rfl := Except.ok.inj hread
      exact produces_readValue maxDepth bs w' rest hvalue
  · cases h

/-! ## Shapes -/

/-- Whether everything that a shape makes of values in range has a property. -/
def Shape.Yields {α : Type} (s : Shape α) (P : α → Prop) : Prop :=
  ∀ v x, InRange v → s.ofJson v = .ok x → P x

namespace Shape

variable {α β : Type} {s : Shape α} {P : α → Prop}

theorem yields_count : count.Yields fun n => n ≤ maxCount := by
  intro v n hv h
  cases hv with
  | natural hle =>
      obtain rfl := Except.ok.inj h
      exact hle
  | _ => cases h

theorem yields_any (s : Shape α) : s.Yields fun _ => True := fun _ _ _ _ => trivial

theorem yields_map (s : Shape α) (f : α → β) : (s.map f).Yields fun y => ∃ x, f x = y := by
  intro v y _ h
  obtain ⟨x, -, hx⟩ := map_eq_ok_iff.1 h
  exact ⟨x, hx⟩

theorem Yields.optional (h : s.Yields P) : s.optional.Yields fun x? => ∀ x, x? = some x → P x := by
  intro v x? hv hx x hsome
  subst hsome
  cases v with
  | null => cases hx
  | _ =>
      obtain ⟨x', hx', hsome⟩ := map_eq_ok_iff.1 hx
      obtain rfl := Option.some.inj hsome
      exact h _ x' hv hx'

theorem Yields.list (h : s.Yields P) : (list s).Yields fun xs => ∀ x ∈ xs, P x := by
  intro v xs hv hxs
  cases hv with
  | array hitems => exact forall_of_mapM_eq_ok hxs fun w hw x hx => h w x (hitems w hw) hx
  | _ => cases hxs

end Shape

/-! ## Records -/

section

variable {σ α β : Type} {P : σ → Prop}

/-- Whether setting a field from a value in range keeps a property of drafts. -/
def Field.Keeps (f : Field σ) (P : σ → Prop) : Prop :=
  ∀ draft v draft', InRange v → P draft → f.ofJson draft v = .ok draft' → P draft'

theorem Field.keeps_of {name : Text} {required : Bool} {shape : Shape β} {isSet : σ → Bool}
    {set : σ → β → σ} {Q : β → Prop} (hshape : shape.Yields Q)
    (hset : ∀ draft x, P draft → Q x → P (set draft x)) :
    (Field.of name required shape isSet set).Keeps P := by
  intro draft v draft' hv hdraft h
  obtain ⟨x, hx, rfl⟩ := map_eq_ok_iff.1 h
  exact hset draft x hdraft (hshape v x hv hx)

namespace RecordShape

variable {s : RecordShape σ α}

theorem keeps_draftOfMembers (hfields : ∀ f ∈ s.fields, f.Keeps P) {ms : List (Text × Json)}
    (hms : ∀ m ∈ ms, InRange m.2) {draft draft' : σ} (hdraft : P draft)
    (h : s.draftOfMembers draft ms = .ok draft') : P draft' := by
  induction ms generalizing draft with
  | nil =>
      obtain rfl := Except.ok.inj h
      exact hdraft
  | cons m ms ih =>
      have hrest : ∀ m ∈ ms, InRange m.2 := fun m hm => hms m (by simp [hm])
      rw [draftOfMembers] at h
      split at h
      · exact ih hrest hdraft h
      · next f hfield =>
          obtain ⟨draft₁, hset, h⟩ := bind_eq_ok_iff.1 h
          have hmem : f ∈ s.fields := List.mem_of_find?_eq_some hfield
          exact ih hrest (hfields f hmem draft m.2 draft₁ (hms m (by simp)) hdraft hset) h

theorem keeps_draftOfItems {fields : List (Field σ)} (hfields : ∀ f ∈ fields, f.Keeps P)
    {vs left : List Json} (hvs : ∀ v ∈ vs, InRange v) {index : Nat} {draft draft' : σ}
    (hdraft : P draft) (h : s.draftOfItems index fields draft vs = .ok (draft', left)) :
    P draft' := by
  induction fields generalizing index draft vs with
  | nil =>
      rw [draftOfItems] at h
      obtain ⟨rfl, -⟩ := Prod.mk.inj (Except.ok.inj h)
      exact hdraft
  | cons f fields ih =>
      have hrest : ∀ f ∈ fields, f.Keeps P := fun f hf => hfields f (by simp [hf])
      cases vs with
      | nil =>
          rw [draftOfItems] at h
          split at h
          · cases h
          · exact ih hrest hvs hdraft h
      | cons v vs =>
          rw [draftOfItems, bind_eq_ok_iff] at h
          obtain ⟨draft₁, hset, h⟩ := h
          have hkept := hfields f (by simp) draft v draft₁ (hvs v (by simp)) hdraft hset
          exact ih hrest (fun v hv => hvs v (by simp [hv])) hkept h

theorem complete_of_finishDraft {draft : σ} {x : α} (h : s.finishDraft draft = .ok x) :
    s.complete draft = some x := by
  unfold finishDraft at h
  split at h
  · next y hy =>
      obtain rfl := Except.ok.inj h
      exact hy
  · split at h <;> cases h

/-- What every field keeps of the blank draft holds of the draft of each record. -/
theorem yields (hblank : P s.blank) (hfields : ∀ f ∈ s.fields, f.Keeps P) :
    s.shape.Yields fun x => ∃ draft, P draft ∧ s.complete draft = some x := by
  intro v x hv h
  have h : s.ofJson v = .ok x := h
  cases hv with
  | object hmembers =>
      obtain ⟨draft, hdraft, h⟩ := bind_eq_ok_iff.1 h
      exact ⟨draft, keeps_draftOfMembers hfields hmembers hblank hdraft,
        complete_of_finishDraft h⟩
  | array hitems =>
      obtain ⟨⟨draft, left⟩, hdraft, h⟩ := bind_eq_ok_iff.1 h
      obtain ⟨y, hy, h⟩ := bind_eq_ok_iff.1 h
      split at h
      · obtain rfl := Except.ok.inj h
        exact ⟨draft, keeps_draftOfItems hfields hitems hblank hdraft, complete_of_finishDraft hy⟩
      · cases h
  | _ => cases h

end RecordShape

end

end TypeCoverage.Json
