import TypeCoverage.Number.Reading
import TypeCoverage.Proofs.Json.Reread
import TypeCoverage.Proofs.OrderedMap
import TypeCoverage.Store.Basic

/-!
# A store and its snapshot

A snapshot gives back the store it was made from, up to one thing: a kind of finding is kept by
its name, so a kind with a reserved name becomes the reserved kind. A store with a count that
does not fit in 64 bits has a snapshot that cannot be read.
-/

set_option autoImplicit false

namespace TypeCoverage

/-! ## What is read back -/

/-- A finding as its stored form tells it. -/
def Finding.normal (f : Finding) : Finding := { f with kind := .ofName f.kind.name }

/-- A record as its stored form tells it. -/
def FileRecord.normal (r : FileRecord) : FileRecord :=
  { r with
    findings := r.findings.map Finding.normal
    semanticErrors? := r.semanticErrors?.map (List.map Finding.normal) }

/-- A store as its snapshot tells it. -/
def Store.normal (s : Store) : Store := ⟨s.records.map FileRecord.normal⟩

theorem Store.get?_normal (s : Store) (path : Text) :
    s.normal.get? path = (s.get? path).map FileRecord.normal :=
  OrderedMap.get?_map FileRecord.normal s.records path

/-- Whether the place of a finding can be read back. -/
def Finding.Fits (f : Finding) : Prop := f.line ≤ maxCount ∧ f.character ≤ maxCount

instance : DecidablePred Finding.Fits := fun f =>
  inferInstanceAs (Decidable (f.line ≤ maxCount ∧ f.character ≤ maxCount))

/-- Whether all counts of a record can be read back. -/
def FileRecord.Fits (r : FileRecord) : Prop :=
  (r.correct ≤ maxCount ∧ r.total ≤ maxCount)
    ∧ (∀ f ∈ r.findings, f.Fits) ∧ ∀ f ∈ r.semanticErrors?.getD [], f.Fits

instance : DecidablePred FileRecord.Fits := fun r =>
  inferInstanceAs (Decidable ((r.correct ≤ maxCount ∧ r.total ≤ maxCount)
    ∧ (∀ f ∈ r.findings, f.Fits) ∧ ∀ f ∈ r.semanticErrors?.getD [], f.Fits))

/-- Whether all counts of a store can be read back. -/
def Store.Fits (s : Store) : Prop := ∀ e ∈ s.records.entries, e.2.Fits

instance : DecidablePred Store.Fits := fun s =>
  inferInstanceAs (Decidable (∀ e ∈ s.records.entries, e.2.Fits))

namespace Json

variable {α β : Type} {level depth : Nat}

/-- A pass over a list that fails at some items. -/
theorem mapM_ite (p : α → Prop) [DecidablePred p] (f : α → β) (xs : List α) :
    (xs.mapM fun x => if p x then some (f x) else none)
      = if ∀ x ∈ xs, p x then some (xs.map f) else none := by
  induction xs with
  | nil => simp
  | cons x xs ih =>
      rw [List.mapM_cons, ih]
      by_cases hx : p x
      · by_cases hxs : ∀ y ∈ xs, p y
        · rw [if_pos hx, if_pos hxs, if_pos (by simpa [hx] using hxs)]
          rfl
        · rw [if_pos hx, if_neg hxs,
            if_neg fun h : ∀ y ∈ x :: xs, p y => hxs fun y hy => h y (by simp [hy])]
          rfl
      · rw [if_neg hx, if_neg fun h : ∀ y ∈ x :: xs, p y => hx (h x (by simp))]
        rfl

theorem ite_bind {p : Prop} [Decidable p] (x : α) (f : α → Option β) :
    (if p then some x else none).bind f = if p then f x else none := by
  split <;> rfl

end Json

/-! ## Findings -/

/-- A kind has the name that it was made from. -/
theorem FindingKind.name_ofName (n : Text) : (ofName n).name = n := by
  by_cases hn : ∃ kind ∈ reserved, kind.name = n
  · obtain ⟨kind, hmem, rfl⟩ := hn
    rw [ofName_name_of_mem hmem]
  · have hother := ofName_eq_other fun kind hk he => hn ⟨kind, hk, he⟩
    rw [hother]
    rfl

theorem Finding.normal_normal (f : Finding) : f.normal.normal = f.normal := by
  simp only [Finding.normal, FindingKind.name_ofName]

section

open Json

/-- What the members of a finding are read as, in the order in which they are written. -/
theorem Finding.ofJson_members (l c k : Json) (t? : Option Json) :
    (Finding.shape.ofJson (ofMembers ([(lineKey, l), (characterKey, c), (kindKey, k)]
        ++ t?.toList.map fun t => (textKey, t)))).toOption
      = (Shape.count.ofJson l).toOption.bind fun l => (Shape.count.ofJson c).toOption.bind fun c =>
        (Shape.string.ofJson k).toOption.bind fun k =>
        (t?.elim (some none) fun t => (Shape.string.optional.ofJson t).toOption).map fun t? =>
          ⟨l, c, .ofName k, t?⟩ := by
  have hline := recordShape.draftOfMembers_cons
    (rfl : recordShape.field? lineKey = some (.of _ _ _ _ _))
  have hcharacter := recordShape.draftOfMembers_cons
    (rfl : recordShape.field? characterKey = some (.of _ _ _ _ _))
  have hkind := recordShape.draftOfMembers_cons
    (rfl : recordShape.field? kindKey = some (.of _ _ _ _ _))
  have htext := recordShape.draftOfMembers_cons
    (rfl : recordShape.field? textKey = some (.of _ _ _ _ _))
  have hname : ((Shape.string.map FindingKind.ofName).ofJson k).toOption
      = (Shape.string.ofJson k).toOption.map FindingKind.ofName := toOption_map _ _
  -- the members stand in the order of their keys once they are an object
  cases t? with
  | none =>
      show (recordShape.ofJson (.object [(characterKey, c), (kindKey, k), (lineKey, l)])).toOption
        = _
      rw [RecordShape.ofJson, toOption_bind, hcharacter]
      simp only [hkind, hline, hname]
      cases (Shape.count.ofJson l).toOption <;> cases (Shape.count.ofJson c).toOption <;>
        cases (Shape.string.ofJson k).toOption <;> rfl
  | some t =>
      show (recordShape.ofJson (.object
        [(characterKey, c), (kindKey, k), (lineKey, l), (textKey, t)])).toOption = _
      rw [RecordShape.ofJson, toOption_bind, hcharacter]
      simp only [hkind, hline, htext, hname, Option.elim_some]
      cases (Shape.count.ofJson l).toOption <;> cases (Shape.count.ofJson c).toOption <;>
        cases (Shape.string.ofJson k).toOption <;>
        cases (Shape.string.optional.ofJson t).toOption <;> rfl

theorem Finding.rereads (level depth : Nat) (f : Finding) :
    Rereads level (depth + 1) Finding.shape f.toJson (if f.Fits then some f.normal else none) := by
  obtain ⟨l, hl, hl'⟩ := rereads_count (level + 1) depth f.line
  obtain ⟨c, hc, hc'⟩ := rereads_count (level + 1) depth f.character
  have hk := readsAs_string (level + 1) depth f.kind.name
  have hfits : (if f.Fits then some f.normal else none)
      = (if f.line ≤ maxCount then some f.line else none).bind fun l =>
        (if f.character ≤ maxCount then some f.character else none).bind fun c =>
          some ⟨l, c, .ofName f.kind.name, f.text?⟩ := by
    simp only [ite_bind, ← ite_and]
    rfl
  have hstring : (Shape.string.ofJson (.string f.kind.name)).toOption = some f.kind.name := rfl
  rw [hfits, ← hl', ← hc']
  -- only the two counts may be refused
  cases ht : f.text? with
  | none =>
      have hobject := readsAs_members level depth
        [(lineKey, .nat f.line, l), (characterKey, .nat f.character, c),
          (kindKey, .string f.kind.name, some (.string f.kind.name))] (by simp [hl, hc, hk])
      refine ⟨_, by simpa [toJson, members, ht] using hobject, ?_⟩
      cases l with
      | none => simp
      | some l =>
          cases c with
          | none => simp
          | some c => simpa [hstring] using Finding.ofJson_members l c (.string f.kind.name) none
  | some t =>
      have ht' := readsAs_string (level + 1) depth t
      have hoptional : (Shape.string.optional.ofJson (.string t)).toOption = some (some t) := rfl
      have hobject := readsAs_members level depth
        [(lineKey, .nat f.line, l), (characterKey, .nat f.character, c),
          (kindKey, .string f.kind.name, some (.string f.kind.name)),
          (textKey, .string t, some (.string t))] (by simp [hl, hc, hk, ht'])
      refine ⟨_, by simpa [toJson, members, ht] using hobject, ?_⟩
      cases l with
      | none => simp
      | some l =>
          cases c with
          | none => simp
          | some c =>
              simpa [hstring, hoptional] using
                Finding.ofJson_members l c (.string f.kind.name) (some (.string t))

/-! ## Records -/

/-- What the members of a record are read as, in the order in which they are written. -/
theorem FileRecord.ofJson_members (d c t fs : Json) (es? : Option Json) :
    (FileRecord.shape.ofJson (ofMembers ([(digestKey, d), (Coverage.correctKey, c),
        (Coverage.totalKey, t), (findingsKey, fs)]
        ++ es?.toList.map fun es => (semanticErrorsKey, es)))).toOption
      = (Shape.string.ofJson d).toOption.bind fun d => (Shape.count.ofJson c).toOption.bind fun c =>
        (Shape.count.ofJson t).toOption.bind fun t =>
        ((Shape.list Finding.shape).ofJson fs).toOption.bind fun fs =>
        (es?.elim (some none) fun es =>
          ((Shape.list Finding.shape).optional.ofJson es).toOption).bind fun es? =>
          some ⟨d, c, t, fs, es?⟩ := by
  have hdigest := recordShape.draftOfMembers_cons
    (rfl : recordShape.field? digestKey = some (.of _ _ _ _ _))
  have hcorrect := recordShape.draftOfMembers_cons
    (rfl : recordShape.field? Coverage.correctKey = some (.of _ _ _ _ _))
  have htotal := recordShape.draftOfMembers_cons
    (rfl : recordShape.field? Coverage.totalKey = some (.of _ _ _ _ _))
  have hfindings := recordShape.draftOfMembers_cons
    (rfl : recordShape.field? findingsKey = some (.of _ _ _ _ _))
  have herrors := recordShape.draftOfMembers_cons
    (rfl : recordShape.field? semanticErrorsKey = some (.of _ _ _ _ _))
  cases es? with
  | none =>
      show (recordShape.ofJson (.object [(findingsKey, fs), (Coverage.correctKey, c),
        (digestKey, d), (Coverage.totalKey, t)])).toOption = _
      rw [RecordShape.ofJson, toOption_bind, hfindings]
      simp only [hcorrect, hdigest, htotal]
      cases (Shape.string.ofJson d).toOption <;> cases (Shape.count.ofJson c).toOption <;>
        cases (Shape.count.ofJson t).toOption <;>
        cases ((Shape.list Finding.shape).ofJson fs).toOption <;> rfl
  | some es =>
      show (recordShape.ofJson (.object [(findingsKey, fs), (Coverage.correctKey, c),
        (digestKey, d), (semanticErrorsKey, es), (Coverage.totalKey, t)])).toOption = _
      rw [RecordShape.ofJson, toOption_bind, hfindings]
      simp only [hcorrect, hdigest, htotal, herrors, Option.elim_some]
      cases (Shape.string.ofJson d).toOption <;> cases (Shape.count.ofJson c).toOption <;>
        cases (Shape.count.ofJson t).toOption <;>
        cases ((Shape.list Finding.shape).ofJson fs).toOption <;>
        cases ((Shape.list Finding.shape).optional.ofJson es).toOption <;> rfl

/-- A list of findings is read back if all of them are. -/
theorem rereads_findings (level depth : Nat) (fs : List Finding) :
    Rereads level (depth + 2) (.list Finding.shape) (.array (fs.map Finding.toJson))
      (if ∀ f ∈ fs, f.Fits then some (fs.map Finding.normal) else none) := by
  rw [← mapM_ite]
  exact rereads_list fs fun f _ => f.rereads (level + 1) depth

theorem rereads_optional_findings (level depth : Nat) (fs : List Finding) :
    Rereads level (depth + 2) (Shape.list Finding.shape).optional
      (.array (fs.map Finding.toJson))
      (if ∀ f ∈ fs, f.Fits then some (some (fs.map Finding.normal)) else none) := by
  have h : (if ∀ f ∈ fs, f.Fits then some (some (fs.map Finding.normal)) else none)
      = (if ∀ f ∈ fs, f.Fits then some (fs.map Finding.normal) else none).map some := by
    split <;> rfl
  rw [h, ← mapM_ite]
  exact rereads_optional_list fs fun f _ => f.rereads (level + 1) depth

theorem FileRecord.rereads (level depth : Nat) (r : FileRecord) :
    Rereads level (depth + 3) FileRecord.shape r.toJson
      (if r.Fits then some r.normal else none) := by
  obtain ⟨c, hc, hc'⟩ := rereads_count (level + 1) (depth + 2) r.correct
  obtain ⟨t, ht, ht'⟩ := rereads_count (level + 1) (depth + 2) r.total
  obtain ⟨fs, hfs, hfs'⟩ := rereads_findings (level + 1) depth r.findings
  have hd := readsAs_string (level + 1) (depth + 2) r.digest
  have hstring : (Shape.string.ofJson (.string r.digest)).toOption = some r.digest := rfl
  have hfits : (if r.Fits then some r.normal else none)
      = (if r.correct ≤ maxCount then some r.correct else none).bind fun c =>
        (if r.total ≤ maxCount then some r.total else none).bind fun t =>
        (if ∀ f ∈ r.findings, f.Fits then some (r.findings.map Finding.normal) else none).bind
          fun fs => (if ∀ f ∈ r.semanticErrors?.getD [], f.Fits then
            some (r.semanticErrors?.map (List.map Finding.normal)) else none).bind fun es? =>
          some ⟨r.digest, c, t, fs, es?⟩ := by
    simp only [ite_bind, ← ite_and]
    exact if_congr and_assoc rfl rfl
  rw [hfits, ← hc', ← ht', ← hfs']
  -- what is refused is a count, here or in a finding
  cases he : r.semanticErrors? with
  | none =>
      have hobject := readsAs_members level (depth + 2)
        [(digestKey, .string r.digest, some (.string r.digest)),
          (Coverage.correctKey, .nat r.correct, c), (Coverage.totalKey, .nat r.total, t),
          (findingsKey, .array (r.findings.map Finding.toJson), fs)] (by simp [hd, hc, ht, hfs])
      refine ⟨_, by simpa [toJson, he] using hobject, ?_⟩
      cases c with
      | none => simp
      | some c =>
          cases t with
          | none => simp
          | some t =>
              cases fs with
              | none => simp
              | some fs =>
                  simpa [hstring] using FileRecord.ofJson_members (.string r.digest) c t fs none
  | some errors =>
      obtain ⟨es, hes, hes'⟩ := rereads_optional_findings (level + 1) depth errors
      have hobject := readsAs_members level (depth + 2)
        [(digestKey, .string r.digest, some (.string r.digest)),
          (Coverage.correctKey, .nat r.correct, c), (Coverage.totalKey, .nat r.total, t),
          (findingsKey, .array (r.findings.map Finding.toJson), fs),
          (semanticErrorsKey, .array (errors.map Finding.toJson), es)]
        (by simp [hd, hc, ht, hfs, hes])
      refine ⟨_, by simpa [toJson, he] using hobject, ?_⟩
      rw [Option.getD_some, Option.map_some, ← hes']
      cases c with
      | none => simp
      | some c =>
          cases t with
          | none => simp
          | some t =>
              cases fs with
              | none => simp
              | some fs =>
                  cases es with
                  | none => simp
                  | some es =>
                      simpa [hstring] using
                        FileRecord.ofJson_members (.string r.digest) c t fs (some es)

/-! ## Stores -/

theorem ofMembers_sorted {ms : List (Text × Json)} (h : ms.Pairwise fun a b => a.1 < b.1) :
    ofMembers ms = .object ms :=
  congrArg (fun m : OrderedMap Json => Json.object m.entries) (OrderedMap.ofList_entries ⟨ms, h⟩)

/-- Members that are read one by one keep their keys. -/
theorem keys_of_mapM {α β : Type} {key : α → Text} {f : α → Option β} {xs : List α}
    {ms : List (Text × β)} (h : (xs.mapM fun x => (f x).map fun v => (key x, v)) = some ms) :
    ms.map (·.1) = xs.map key := by
  induction xs generalizing ms with
  | nil =>
      obtain rfl : [] = ms := Option.some.inj h
      rfl
  | cons x xs ih =>
      rw [List.mapM_cons] at h
      cases hv : f x with
      | none => simp [hv] at h
      | some v =>
          cases hms : xs.mapM fun x => (f x).map fun v => (key x, v) with
          | none => simp [hv, hms] at h
          | some ms' =>
              obtain rfl : (key x, v) :: ms' = ms := by simpa [hv, hms] using h
              simp [ih hms]

/-- The records of a store are read back if all of them are. -/
theorem Store.rereads_records (level depth : Nat) (s : Store) : ∃ r,
    ReadsAs level (depth + 4) (.object (s.records.entries.map fun e => (e.1, e.2.toJson))) r
      ∧ (∀ v, r = some v → ∃ ms, v = .object ms)
      ∧ (r.bind fun v => (ofRecords v).toOption) = if s.Fits then some s.normal else none := by
  have hrecords : ∀ e ∈ s.records.entries, Rereads (level + 1) (depth + 3) FileRecord.shape
      e.2.toJson (if e.2.Fits then some e.2.normal else none) :=
    fun e _ => e.2.rereads (level + 1) depth
  choose! r hr hx using hrecords
  have hkeys : ∀ ms, (s.records.entries.mapM fun e => (r e).map fun v => (e.1, v)) = some ms →
      ms.Pairwise fun a b => a.1 < b.1 := by
    intro ms hms
    have hsorted := List.pairwise_map.2 s.records.sorted
    rw [← keys_of_mapM hms] at hsorted
    exact List.pairwise_map.1 hsorted
  refine ⟨_, readsAs_object s.records.entries hr, fun v hv => ?_, ?_⟩
  · obtain ⟨ms, -, rfl⟩ := Option.map_eq_some_iff.1 hv
    exact ⟨_, rfl⟩
  · -- the two passes over the entries, of the parser and of the shape, are one
    have honce : ((s.records.entries.mapM fun e => (r e).map fun v => (e.1, v)).bind fun ms =>
          ms.mapM fun m => (FileRecord.shape.ofJson m.2).toOption.map fun x => (m.1, x))
        = if s.Fits then some s.normal.records.entries else none := by
      rw [mapM_bind_mapM]
      refine Eq.trans (mapM_congr fun e he => ?_) (mapM_ite (fun e => e.2.Fits)
        (fun e => (e.1, e.2.normal)) s.records.entries)
      have he' := hx e he
      cases hre : r e with
      | none =>
          rw [hre] at he'
          by_cases hf : e.2.Fits
          · rw [if_pos hf] at he'
            simp at he'
          · rw [if_neg hf]
            rfl
      | some v =>
          rw [hre, Option.bind_some] at he'
          rw [Option.map_some, Option.bind_some, he']
          split <;> rfl
    cases hms : s.records.entries.mapM fun e => (r e).map fun v => (e.1, v) with
    | none =>
        rw [hms] at honce
        by_cases hf : s.Fits
        · rw [if_pos hf] at honce
          simp at honce
        · rw [if_neg hf]
          rfl
    | some ms =>
        rw [hms, Option.bind_some] at honce
        rw [Option.map_some, Option.bind_some, ofMembers_sorted (hkeys ms hms), ofRecords,
          toOption_map, recordsOf, toOption_mapM]
        simp only [toOption_map, honce]
        split
        · show some (Store.mk (OrderedMap.ofList s.normal.records.entries)) = _
          rw [OrderedMap.ofList_entries]
        · rfl

/-- What the snapshot of a store gives back. -/
theorem Store.toOption_ofSnapshot (s : Store) :
    (ofSnapshot s.snapshot).toOption = if s.Fits then some (s.normal, false) else none := by
  obtain ⟨r, hr, hobject, hrecords⟩ := s.rereads_records 1 122
  have hstore := readsAs_members 0 126 [(recordsKey, _, r)] (by simpa using hr)
  have hparse : (Json.parse (Utf8.encode (pretty 0 s.toJson))).toOption = _ :=
    toOption_parse hstore
  have hpair : (if s.Fits then some (s.normal, false) else none)
      = (if s.Fits then some s.normal else none).map fun s => (s, false) := by
    split <;> rfl
  rw [ofSnapshot, toOption_bind, snapshot, hparse, hpair, ← hrecords]
  cases r with
  | none => rfl
  | some v =>
      obtain ⟨ms, rfl⟩ := hobject v rfl
      have hofJson : ofJson (ofMembers [(recordsKey, .object ms)]) = ofRecords (.object ms) := rfl
      have hlayout : isOldLayout (ofMembers [(recordsKey, .object ms)]) = false := rfl
      simp only [List.mapM_cons, List.mapM_nil, Option.pure_def, Option.bind_eq_bind,
        Option.map_some, Option.bind_some]
      rw [hofJson, hlayout]
      cases ofRecords (.object ms) <;> rfl

end

end TypeCoverage
