import TypeCoverage.Proofs.Json.InRange
import TypeCoverage.Proofs.Store.Saved

/-!
# What is loaded

Whatever snapshot is loaded, its records come back unchanged when they are saved and loaded again:
their counts fit in 64 bits, and the kinds of their findings have names of their own.
-/

set_option autoImplicit false

namespace TypeCoverage

open Json

/-! ## Findings -/

/-- Whether a finding comes back from a snapshot as it is. -/
def Finding.Stable (f : Finding) : Prop := f.Fits ∧ f.normal = f

/-- Whether the parts of a finding that are known so far allow it to be stable. -/
structure Finding.Draft.Stable (d : Finding.Draft) : Prop where
  line : ∀ n, d.line? = some n → n ≤ maxCount
  character : ∀ n, d.character? = some n → n ≤ maxCount
  kind : ∀ k, d.kind? = some k → FindingKind.ofName k.name = k

theorem Finding.yields_stable : Finding.shape.Yields Finding.Stable := by
  have hfields : ∀ f ∈ recordShape.fields, f.Keeps Draft.Stable := by
    intro f hf
    simp only [recordShape, List.mem_cons, List.not_mem_nil, or_false] at hf
    -- one case for each field, in their order
    rcases hf with rfl | rfl | rfl | rfl
    · refine Field.keeps_of Shape.yields_count fun d n hd hn => ?_
      exact ⟨fun m hm => Option.some.inj hm ▸ hn, hd.character, hd.kind⟩
    · refine Field.keeps_of Shape.yields_count fun d n hd hn => ?_
      exact ⟨hd.line, fun m hm => Option.some.inj hm ▸ hn, hd.kind⟩
    · refine Field.keeps_of (Shape.yields_map Shape.string FindingKind.ofName) ?_
      rintro d k hd ⟨name, rfl⟩
      refine ⟨hd.line, hd.character, fun k hk => ?_⟩
      obtain rfl := Option.some.inj hk
      rw [FindingKind.name_ofName]
    · refine Field.keeps_of (Shape.yields_any _) fun d t hd _ => ?_
      exact ⟨hd.line, hd.character, hd.kind⟩
  intro v f hv h
  obtain ⟨d, hd, hcomplete⟩ := RecordShape.yields ⟨nofun, nofun, nofun⟩ hfields v f hv h
  have hcomplete : d.complete = some f := hcomplete
  rw [Draft.complete] at hcomplete
  obtain ⟨line, hline, hcomplete⟩ := Option.bind_eq_some_iff.1 hcomplete
  obtain ⟨character, hcharacter, hcomplete⟩ := Option.bind_eq_some_iff.1 hcomplete
  obtain ⟨kind, hkind, hcomplete⟩ := Option.bind_eq_some_iff.1 hcomplete
  obtain rfl := Option.some.inj hcomplete
  refine ⟨⟨hd.line line hline, hd.character character hcharacter⟩, ?_⟩
  rw [Finding.normal, hd.kind kind hkind]

/-! ## Records -/

/-- Whether a record comes back from a snapshot as it is. -/
def FileRecord.Stable (r : FileRecord) : Prop := r.Fits ∧ r.normal = r

/-- Whether the parts of a record that are known so far allow it to be stable. -/
structure FileRecord.Draft.Stable (d : FileRecord.Draft) : Prop where
  correct : ∀ n, d.correct? = some n → n ≤ maxCount
  total : ∀ n, d.total? = some n → n ≤ maxCount
  findings : ∀ fs, d.findings? = some fs → ∀ f ∈ fs, f.Stable
  semanticErrors : ∀ es?, d.semanticErrors? = some es? → ∀ es, es? = some es → ∀ f ∈ es, f.Stable

/-- A record is stable if its counts fit and its findings are stable. -/
theorem FileRecord.stable_of {r : FileRecord} (hcorrect : r.correct ≤ maxCount)
    (htotal : r.total ≤ maxCount) (hfindings : ∀ f ∈ r.findings, f.Stable)
    (herrors : ∀ es, r.semanticErrors? = some es → ∀ f ∈ es, f.Stable) : r.Stable := by
  have hall : ∀ f ∈ r.semanticErrors?.getD [], f.Stable := by
    cases h : r.semanticErrors? with
    | none => simp
    | some es => exact herrors es h
  constructor
  · exact ⟨⟨hcorrect, htotal⟩, fun f hf => (hfindings f hf).1, fun f hf => (hall f hf).1⟩
  · rw [FileRecord.normal_eq_self_iff]
    intro f hf
    rw [← Finding.normal_eq_self_iff]
    rcases List.mem_append.1 hf with hf | hf
    · exact (hfindings f hf).2
    · exact (hall f hf).2

theorem FileRecord.yields_stable : FileRecord.shape.Yields FileRecord.Stable := by
  have hfields : ∀ f ∈ recordShape.fields, f.Keeps Draft.Stable := by
    intro f hf
    simp only [recordShape, List.mem_cons, List.not_mem_nil, or_false] at hf
    rcases hf with rfl | rfl | rfl | rfl | rfl
    · refine Field.keeps_of (Shape.yields_any _) fun d t hd _ => ?_
      exact ⟨hd.correct, hd.total, hd.findings, hd.semanticErrors⟩
    · refine Field.keeps_of Shape.yields_count fun d n hd hn => ?_
      exact ⟨fun m hm => Option.some.inj hm ▸ hn, hd.total, hd.findings, hd.semanticErrors⟩
    · refine Field.keeps_of Shape.yields_count fun d n hd hn => ?_
      exact ⟨hd.correct, fun m hm => Option.some.inj hm ▸ hn, hd.findings, hd.semanticErrors⟩
    · refine Field.keeps_of Finding.yields_stable.list fun d fs hd hfs => ?_
      exact ⟨hd.correct, hd.total, fun gs hgs => Option.some.inj hgs ▸ hfs, hd.semanticErrors⟩
    · refine Field.keeps_of Finding.yields_stable.list.optional fun d es? hd hes => ?_
      exact ⟨hd.correct, hd.total, hd.findings, fun fs? hfs => Option.some.inj hfs ▸ hes⟩
  intro v r hv h
  obtain ⟨d, hd, hcomplete⟩ := RecordShape.yields ⟨nofun, nofun, nofun, nofun⟩ hfields v r hv h
  have hcomplete : d.complete = some r := hcomplete
  rw [Draft.complete] at hcomplete
  obtain ⟨digest, -, hcomplete⟩ := Option.bind_eq_some_iff.1 hcomplete
  obtain ⟨correct, hcorrect, hcomplete⟩ := Option.bind_eq_some_iff.1 hcomplete
  obtain ⟨total, htotal, hcomplete⟩ := Option.bind_eq_some_iff.1 hcomplete
  obtain rfl := Option.some.inj hcomplete
  apply FileRecord.stable_of
  · exact hd.correct correct hcorrect
  · exact hd.total total htotal
  · cases hfindings : d.findings? with
    | none => simp
    | some fs => exact hd.findings fs hfindings
  · cases herrors : d.semanticErrors? with
    | none => simp
    | some es? => exact hd.semanticErrors es? herrors

/-! ## Stores -/

namespace Store

/-- Whether every record of a store comes back from a snapshot as it is. -/
def Stable (s : Store) : Prop := ∀ path record, s.get? path = some record → record.Stable

theorem stable_empty : empty.Stable := by
  intro path record h
  cases h

theorem stable_of_ofRecords {v : Json} {s : Store} (hv : v.InRange) (h : ofRecords v = .ok s) :
    s.Stable := by
  cases hv with
  | object hmembers =>
      obtain ⟨es, hes, rfl⟩ := map_eq_ok_iff.1 h
      have hall : ∀ e ∈ es, e.2.Stable := by
        refine forall_of_mapM_eq_ok hes fun m hm e he => ?_
        obtain ⟨record, hrecord, rfl⟩ := map_eq_ok_iff.1 he
        exact FileRecord.yields_stable m.2 record (hmembers m hm) hrecord
      intro path record hget
      exact hall (path, record) (OrderedMap.mem_of_mem_ofList (OrderedMap.get?_eq_some_iff.1 hget))
  | _ => cases h

theorem stable_of_ofJson {v : Json} {s : Store} (hv : v.InRange) (h : ofJson v = .ok s) :
    s.Stable := by
  have hmember : ∀ records, v.member? recordsKey = some records → records.InRange :=
    fun records hrecords => hv.of_member? hrecords
  unfold ofJson at h
  split at h
  -- an object, of the older layout, with records or without
  · split at h
    · obtain rfl := Except.ok.inj h
      exact stable_empty
    · split at h
      · next records hrecords => exact stable_of_ofRecords (hmember records hrecords) h
      · obtain rfl := Except.ok.inj h
        exact stable_empty
  -- an array with the records as its only item, if it has any
  · obtain rfl := Except.ok.inj h
    exact stable_empty
  · cases hv with
    | array hitems => exact stable_of_ofRecords (hitems _ (by simp)) h
  · obtain ⟨-, -, h⟩ := bind_eq_ok_iff.1 h
    cases h
  · cases h

/-- **What is loaded is stable**, whatever the snapshot is. -/
theorem stable_of_load {d : Disk} {directory : Text} {s : Store} {isOld : Bool}
    (h : load d directory = .ok (s, isOld)) : s.Stable := by
  rw [load_eq] at h
  cases hcontent : d.content? (snapshotPath directory) with
  | none =>
      rw [hcontent] at h
      obtain rfl := (Prod.mk.inj (Except.ok.inj h)).1
      exact stable_empty
  | some content =>
      rw [hcontent] at h
      obtain ⟨v, hv, h⟩ := bind_eq_ok_iff.1 (mapError_eq_ok_iff.1 h)
      split at h
      · next t ht =>
          obtain rfl := (Prod.mk.inj (Except.ok.inj h)).1
          exact stable_of_ofJson (inRange_parse hv) ht
      · cases h

end Store

/-! ## Saving what was loaded -/

theorem Finding.toJson_normal (f : Finding) : f.normal.toJson = f.toJson := by
  unfold toJson members normal
  dsimp only
  rw [FindingKind.name_ofName]

theorem FileRecord.toJson_normal (r : FileRecord) : r.normal.toJson = r.toJson := by
  have hmap : ∀ fs : List Finding,
      (fs.map Finding.normal).map Finding.toJson = fs.map Finding.toJson := by
    intro fs
    rw [List.map_map]
    exact List.map_congr_left fun f _ => f.toJson_normal
  unfold toJson normal
  cases r.semanticErrors? with
  | none => simp only [hmap, Option.map_none]
  | some errors => simp only [hmap, Option.map_some]

/-- A store and what its snapshot tells of it have the same snapshot. -/
theorem Store.snapshot_normal (s : Store) : s.normal.snapshot = s.snapshot := by
  have hentries : s.normal.records.entries.map (fun e => (e.1, e.2.toJson))
      = s.records.entries.map fun e => (e.1, e.2.toJson) := by
    show (s.records.entries.map fun e => (e.1, e.2.normal)).map _ = _
    rw [List.map_map]
    exact List.map_congr_left fun e _ => congrArg (Prod.mk e.1) e.2.toJson_normal
  rw [snapshot, snapshot, toJson, toJson, hentries]

end TypeCoverage
