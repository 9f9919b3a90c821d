import TypeCoverage.Proofs.Store.Snapshot

/-!
# A saved store is loaded as it was

A store keeps the kind of a finding by its name alone. So what is loaded after saving is the saved
store exactly if no finding has a kind that merely borrows a reserved name; all else that a store
holds is told apart by its snapshot, absent and empty texts and lists included.
-/

set_option autoImplicit false

namespace TypeCoverage

/-! ## Kinds with a name of their own -/

/-- Whether a kind does not borrow the name of a reserved one. -/
def FindingKind.Proper (kind : FindingKind) : Prop := ∀ k ∈ reserved, kind ≠ .other k.name

instance : DecidablePred FindingKind.Proper := fun kind =>
  inferInstanceAs (Decidable (∀ k ∈ FindingKind.reserved, kind ≠ .other k.name))

theorem FindingKind.ofName_name_iff (kind : FindingKind) :
    ofName kind.name = kind ↔ kind.Proper := by
  constructor
  · intro h k hk hother
    subst hother
    have hreserved : ofName k.name = k := ofName_name_of_mem hk
    have hk' : FindingKind.other k.name = k := h.symm.trans hreserved
    -- no reserved kind is of the last constructor
    rw [← hk'] at hk
    simp [reserved] at hk
  · intro h
    cases kind with
    | other n =>
        refine ofName_eq_other fun k hk hname => ?_
        exact h k hk (congrArg FindingKind.other hname.symm)
    | _ => exact ofName_name_of_mem (by simp [reserved])

/-- All findings of a record, the semantic errors among them. -/
def FileRecord.allFindings (r : FileRecord) : List Finding :=
  r.findings ++ r.semanticErrors?.getD []

/-- Whether no kind in a store borrows the name of a reserved one. -/
def Store.Proper (s : Store) : Prop :=
  ∀ e ∈ s.records.entries, ∀ f ∈ e.2.allFindings, f.kind.Proper

instance : DecidablePred Store.Proper := fun s =>
  inferInstanceAs (Decidable (∀ e ∈ s.records.entries, ∀ f ∈ e.2.allFindings, f.kind.Proper))

/-! ## What the stored form tells as it is -/

theorem map_eq_self_iff {α : Type} {f : α → α} {xs : List α} :
    xs.map f = xs ↔ ∀ x ∈ xs, f x = x := by
  constructor
  · intro h x hx
    exact List.map_inj_left.1 (h.trans (List.map_id xs).symm) x hx
  · intro h
    exact (List.map_congr_left h).trans (List.map_id xs)

theorem Finding.normal_eq_self_iff (f : Finding) : f.normal = f ↔ f.kind.Proper := by
  rw [← FindingKind.ofName_name_iff]
  constructor
  · intro h
    exact congrArg Finding.kind h
  · intro h
    rw [normal, h]

/-- A kind that was read from its name is proper. -/
theorem Finding.proper_normal (f : Finding) : f.normal.kind.Proper :=
  f.normal.normal_eq_self_iff.1 f.normal_normal

theorem map_normal_eq_self_iff (fs : List Finding) :
    fs.map Finding.normal = fs ↔ ∀ f ∈ fs, f.kind.Proper := by
  simp only [map_eq_self_iff, Finding.normal_eq_self_iff]

theorem FileRecord.normal_eq_self_iff (r : FileRecord) :
    r.normal = r ↔ ∀ f ∈ r.allFindings, f.kind.Proper := by
  obtain ⟨digest, correct, total, findings, errors?⟩ := r
  have hparts : FileRecord.normal ⟨digest, correct, total, findings, errors?⟩
        = ⟨digest, correct, total, findings, errors?⟩
      ↔ findings.map Finding.normal = findings
        ∧ errors?.map (List.map Finding.normal) = errors? := by
    simp [normal]
  rw [hparts, map_normal_eq_self_iff, allFindings]
  simp only [List.mem_append, or_imp, forall_and]
  cases errors? with
  | none => simp
  | some errors => simp [map_normal_eq_self_iff]

theorem Store.normal_eq_self_iff (s : Store) : s.normal = s ↔ s.Proper := by
  obtain ⟨⟨entries, sorted⟩⟩ := s
  have hentries : Store.normal ⟨⟨entries, sorted⟩⟩ = ⟨⟨entries, sorted⟩⟩
      ↔ (entries.map fun e => (e.1, e.2.normal)) = entries := by
    simp [normal, OrderedMap.map]
  rw [hentries, map_eq_self_iff]
  refine forall₂_congr fun e _ => ?_
  rw [← FileRecord.normal_eq_self_iff]
  constructor
  · intro h
    exact congrArg Prod.snd h
  · intro h
    exact Prod.ext rfl h

/-! ## Saving and loading -/

namespace Store

/-- **Saved and loaded.** A store that was saved is loaded as it was exactly if no kind in it
borrows the name of a reserved one, whatever its paths, digests, texts and counts are. -/
theorem loadIf_save_iff {s : Store} {d d' : Disk} {directory : Text} (hfits : s.Fits)
    (hsaved : s.save d directory = (d', .ok ())) :
    loadIf true d' directory = .ok (s, false) ↔ s.Proper := by
  have hloaded : loadIf true d' directory = .ok (s.normal, false) := by
    rw [loadIf, if_pos rfl, load_eq, content?_of_save hsaved]
    exact ofContent?_snapshot hfits
  rw [hloaded, ← normal_eq_self_iff]
  constructor
  · intro h
    exact (Prod.mk.inj (Except.ok.inj h)).1
  · intro h
    rw [h]

/-- A store with a record that was never asked for semantic errors, one without any and one with
some, with texts that need escapes, an absent and an empty text, and counts at the limit. -/
def mixedStore : Store where
  records := .ofList
    [(['a', '.', 't', 's'], ⟨[], 0, maxCount,
        [⟨maxCount, 0, .other ['x'], none⟩, ⟨0, maxCount, .any, some []⟩], none⟩),
      (['\n', '\x22', '\\', 'ü'], ⟨['0', 'f'], 1, 1, [], some []⟩),
      (['/', '\x00', '😀'], ⟨['\t', '\x7f'], 0, 1, [],
        some [⟨1, 2, .semanticError, some ['\x1f', '\r', '\uFFFF']⟩]⟩)]

theorem loadIf_save_iff_mixed : mixedStore.Fits ∧ mixedStore.Proper
    ∧ ∃ d', mixedStore.save ⟨[], []⟩ recordsKey = (d', .ok ())
      ∧ loadIf true d' recordsKey = .ok (mixedStore, false) := by
  have hfits : mixedStore.Fits := by decide +kernel
  have hproper : mixedStore.Proper := by decide +kernel
  have hok : (mixedStore.save ⟨[], []⟩ recordsKey).2.toOption = some () := by decide +kernel
  have hsaved : mixedStore.save ⟨[], []⟩ recordsKey
      = ((mixedStore.save ⟨[], []⟩ recordsKey).1, .ok ()) :=
    Prod.ext rfl (toOption_eq_some_iff.1 hok)
  exact ⟨hfits, hproper, _, hsaved, (loadIf_save_iff hfits hsaved).2 hproper⟩

end Store

end TypeCoverage
