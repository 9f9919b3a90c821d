import TypeCoverage.Proofs.Json.Decimal
import TypeCoverage.Proofs.Store.RoundTrip
import TypeCoverage.Report

/-!
# The data form loses nothing

`Contents` is what a result holds besides the kinds that share a name and the counts of files and
reused records. It is read back from the data form by the names of the members alone.
-/

set_option autoImplicit false

namespace TypeCoverage

/-! ## Results in range -/

/-- Both numbers fit in 64 bits. -/
def Coverage.Fits (c : Coverage) : Prop := c.correct ≤ maxCount ∧ c.total ≤ maxCount

instance : DecidablePred Coverage.Fits := fun c =>
  inferInstanceAs (Decidable (c.correct ≤ maxCount ∧ c.total ≤ maxCount))

/-- All numbers that are reported fit in 64 bits. -/
structure RunResult.Fits (r : RunResult) : Prop where
  coverage : r.toCoverage.Fits
  findings : ∀ f ∈ r.findings, f.finding.Fits
  fileCounts : ∀ counts ∈ r.fileCounts?, ∀ e ∈ counts.entries, e.2.Fits

namespace Report

/-! ## Contents -/

/-- What the data form says of a finding. -/
structure Listing where
  file : Text
  line : Nat
  character : Nat
  kind : Text
  text? : Option Text

/-- What the data form says of a result. -/
structure Contents extends Coverage where
  findings : List Listing
  fileCounts? : Option (OrderedMap Coverage)

def Listing.ofFinding (f : FileFinding) : Listing :=
  ⟨f.file, f.finding.line, f.finding.character, f.finding.kind.name, f.finding.text?⟩

def Contents.ofResult (r : RunResult) : Contents :=
  { r.toCoverage with
    findings := r.findings.map Listing.ofFinding
    fileCounts? := r.fileCounts? }

/-! ## Reading contents

Each reader gives what a value says, or nothing where the value has another form. -/

def count? : Json → Option Nat
  | .number (.natural n) => some n
  | _ => none

def string? : Json → Option Text
  | .string s => some s
  | _ => none

/-- The items of an array, each of them read. -/
def items? {α : Type} (read? : Json → Option α) : Json → Option (List α)
  | .array vs => vs.mapM read?
  | _ => none

/-- The members of an object, each of them read. -/
def map? {α : Type} (read? : Json → Option α) : Json → Option (OrderedMap α)
  | .object ms => (ms.mapM fun m => (read? m.2).map fun x => (m.1, x)).map OrderedMap.ofList
  | _ => none

/-- A member that must be there. -/
def required? {α : Type} (key : Text) (read? : Json → Option α) (v : Json) : Option α :=
  (v.member? key).bind read?

/-- A member that may be missing. -/
def optional? {α : Type} (key : Text) (read? : Json → Option α) (v : Json) : Option (Option α) :=
  match v.member? key with
  | none => some none
  | some w => (read? w).map some

def coverage? (v : Json) : Option Coverage := do
  let correct ← required? Coverage.correctKey count? v
  let total ← required? Coverage.totalKey count? v
  return ⟨correct, total⟩

def listing? (v : Json) : Option Listing := do
  let file ← required? FileFinding.fileKey string? v
  let line ← required? Finding.lineKey count? v
  let character ← required? Finding.characterKey count? v
  let kind ← required? Finding.kindKey string? v
  let text? ← optional? Finding.textKey string? v
  return ⟨file, line, character, kind, text?⟩

def contents? (v : Json) : Option Contents := do
  let coverage ← coverage? v
  let findings ← required? FileRecord.findingsKey (items? listing?) v
  let fileCounts? ← optional? fileCountsKey (map? coverage?) v
  return { coverage with findings, fileCounts? }

/-! ## Printed values -/

/-- The value that is printed at `level` is read back as one from which `x` is read. -/
def Says {α : Type} (level depth : Nat) (v : Json) (read? : Json → Option α) (x : α) : Prop :=
  ∃ w, Json.ReadsAs level depth v (some w) ∧ read? w = some x

section

variable {α ι : Type} {level depth : Nat} {read? : Json → Option α}

theorem says_count (level depth : Nat) {n : Nat} (h : n ≤ maxCount) :
    Says level depth (.nat n) count? n := by
  have hread := Json.readsAs_nat level depth n
  rw [Json.rereadCount?_of_le h] at hread
  exact ⟨_, hread, rfl⟩

theorem says_string (level depth : Nat) (s : Text) : Says level depth (.string s) string? s :=
  ⟨_, Json.readsAs_string level depth s, rfl⟩

theorem says_items {xs : List ι} {g : ι → Json} {x : ι → α}
    (h : ∀ i ∈ xs, Says (level + 1) depth (g i) read? (x i)) :
    Says level (depth + 1) (.array (xs.map g)) (items? read?) (xs.map x) := by
  choose! w hw hx using h
  have harray := Json.readsAs_array xs hw
  rw [Json.mapM_eq_some_map fun _ _ => rfl, Option.map_some] at harray
  refine ⟨_, harray, ?_⟩
  rw [items?, List.mapM_map]
  exact Json.mapM_eq_some_map hx

theorem says_map {m : OrderedMap α} {g : α → Json}
    (h : ∀ e ∈ m.entries, Says (level + 1) depth (g e.2) read? e.2) :
    Says level (depth + 1) (.object (m.entries.map fun e => (e.1, g e.2))) (map? read?) m := by
  choose! w hw hx using h
  have hobject : Json.ReadsAs level (depth + 1)
      (.object (m.entries.map fun e => (e.1, g e.2))) _ := Json.readsAs_object m.entries hw
  have hread : (m.entries.mapM fun e => (some (w e)).map fun v => (e.1, v))
      = some (m.entries.map fun e => (e.1, w e)) := Json.mapM_eq_some_map fun _ _ => rfl
  have hentries : ((m.entries.map fun e => (e.1, w e)).mapM fun e =>
      (read? e.2).map fun x => (e.1, x)) = some m.entries := by
    rw [List.mapM_map, Json.mapM_eq_some_map (g := id), List.map_id]
    intro e he
    show (read? (w e)).map _ = _
    rw [hx e he]
    rfl
  rw [hread, Option.map_some, ofMembers_sorted] at hobject
  · refine ⟨_, hobject, ?_⟩
    rw [map?, hentries, Option.map_some, OrderedMap.ofList_entries]
  · exact List.pairwise_map.2 m.sorted

/-- The members of a printed object are read one by one. -/
theorem readsAs_ofMembers (level depth : Nat) (ms : List (Text × Json × Json))
    (h : ∀ m ∈ ms, Json.ReadsAs (level + 1) depth m.2.1 (some m.2.2)) :
    Json.ReadsAs level (depth + 1) (.object (ms.map fun m => (m.1, m.2.1)))
      (some (Json.ofMembers (ms.map fun m => (m.1, m.2.2)))) := by
  have hobject : Json.ReadsAs level (depth + 1) (.object (ms.map fun m => (m.1, m.2.1))) _ :=
    Json.readsAs_object ms h
  have hread : (ms.mapM fun m => (some m.2.2).map fun v => (m.1, v))
      = some (ms.map fun m => (m.1, m.2.2)) := Json.mapM_eq_some_map fun _ _ => rfl
  rwa [hread] at hobject

variable {key : Text} {ms : List (Text × Json)} {w : Json} {x : α}

theorem required?_ofMembers (h : OrderedMap.lookup key ms.reverse = some w)
    (hx : read? w = some x) : required? key read? (Json.ofMembers ms) = some x := by
  have hmember : (Json.ofMembers ms).member? key = some w := (OrderedMap.get?_ofList ms key).trans h
  rw [required?, hmember, Option.bind_some, hx]

theorem optional?_ofMembers (h : OrderedMap.lookup key ms.reverse = some w)
    (hx : read? w = some x) : optional? key read? (Json.ofMembers ms) = some (some x) := by
  have hmember : (Json.ofMembers ms).member? key = some w := (OrderedMap.get?_ofList ms key).trans h
  rw [optional?, hmember]
  dsimp only
  rw [hx, Option.map_some]

theorem optional?_ofMembers_none (h : OrderedMap.lookup key ms.reverse = none) :
    optional? key read? (Json.ofMembers ms) = some none := by
  have hmember : (Json.ofMembers ms).member? key = none := (OrderedMap.get?_ofList ms key).trans h
  rw [optional?, hmember]

end

theorem says_coverage (level depth : Nat) {c : Coverage} (h : c.Fits) :
    Says level (depth + 1) c.toJson coverage? c := by
  obtain ⟨correct, hcorrect, hcorrect'⟩ := says_count (level + 1) depth h.1
  obtain ⟨total, htotal, htotal'⟩ := says_count (level + 1) depth h.2
  have hobject := readsAs_ofMembers level depth [(Coverage.correctKey, .nat c.correct, correct),
    (Coverage.totalKey, .nat c.total, total)] (by simp [hcorrect, htotal])
  refine ⟨_, hobject, ?_⟩
  rw [coverage?, required?_ofMembers rfl hcorrect', required?_ofMembers rfl htotal']
  rfl

theorem says_listing (level depth : Nat) {f : FileFinding} (h : f.finding.Fits) :
    Says level (depth + 1) f.toJson listing? (Listing.ofFinding f) := by
  obtain ⟨file, hfile, hfile'⟩ := says_string (level + 1) depth f.file
  obtain ⟨line, hline, hline'⟩ := says_count (level + 1) depth h.1
  obtain ⟨character, hcharacter, hcharacter'⟩ := says_count (level + 1) depth h.2
  obtain ⟨kind, hkind, hkind'⟩ := says_string (level + 1) depth f.finding.kind.name
  have hlisting : Listing.ofFinding f = ⟨f.file, f.finding.line, f.finding.character,
      f.finding.kind.name, f.finding.text?⟩ := rfl
  rw [hlisting]
  cases htext : f.finding.text? with
  | none =>
      have hobject := readsAs_ofMembers level depth [(FileFinding.fileKey, .string f.file, file),
        (Finding.lineKey, .nat f.finding.line, line),
        (Finding.characterKey, .nat f.finding.character, character),
        (Finding.kindKey, .string f.finding.kind.name, kind)]
        (by simp [hfile, hline, hcharacter, hkind])
      refine ⟨_, by simpa [FileFinding.toJson, Finding.members, htext] using hobject, ?_⟩
      rw [listing?, required?_ofMembers rfl hfile', required?_ofMembers rfl hline',
        required?_ofMembers rfl hcharacter', required?_ofMembers rfl hkind',
        optional?_ofMembers_none rfl]
      rfl
  | some s =>
      obtain ⟨text, htext', htext''⟩ := says_string (level + 1) depth s
      have hobject := readsAs_ofMembers level depth [(FileFinding.fileKey, .string f.file, file),
        (Finding.lineKey, .nat f.finding.line, line),
        (Finding.characterKey, .nat f.finding.character, character),
        (Finding.kindKey, .string f.finding.kind.name, kind), (Finding.textKey, .string s, text)]
        (by simp [hfile, hline, hcharacter, hkind, htext'])
      refine ⟨_, by simpa [FileFinding.toJson, Finding.members, htext] using hobject, ?_⟩
      rw [listing?, required?_ofMembers rfl hfile', required?_ofMembers rfl hline',
        required?_ofMembers rfl hcharacter', required?_ofMembers rfl hkind',
        optional?_ofMembers rfl htext'']
      rfl

theorem says_contents (level depth : Nat) {r : RunResult} (h : r.Fits) :
    Says level (depth + 3) (toJson r) contents? (Contents.ofResult r) := by
  obtain ⟨correct, hcorrect, hcorrect'⟩ := says_count (level + 1) (depth + 2) h.coverage.1
  obtain ⟨total, htotal, htotal'⟩ := says_count (level + 1) (depth + 2) h.coverage.2
  obtain ⟨percent, hpercent⟩ := Json.exists_readsAs_decimal
    (Coverage.percent_atMost h.coverage.1 h.coverage.2) (level + 1) (depth + 2)
  obtain ⟨findings, hfindings, hfindings'⟩ := says_items fun f hf =>
    says_listing (level + 2) depth (h.findings f hf)
  cases hcounts : r.fileCounts? with
  | none =>
      have hobject := readsAs_ofMembers level (depth + 2)
        [(Coverage.correctKey, .nat r.correct, correct), (Coverage.totalKey, .nat r.total, total),
          (percentKey, .number (.decimal r.percent), .number (.decimal percent)),
          (FileRecord.findingsKey, .array (r.findings.map FileFinding.toJson), findings)]
        (by simp [hcorrect, htotal, hpercent, hfindings])
      refine ⟨_, by simpa [toJson, Coverage.members, hcounts] using hobject, ?_⟩
      rw [contents?, coverage?, required?_ofMembers rfl hcorrect', required?_ofMembers rfl htotal',
        required?_ofMembers rfl hfindings', optional?_ofMembers_none rfl, Contents.ofResult,
        hcounts]
      rfl
  | some counts =>
      obtain ⟨fileCounts, hfileCounts, hfileCounts'⟩ := says_map fun e he =>
        says_coverage (level + 2) depth (h.fileCounts counts hcounts e he)
      have hobject := readsAs_ofMembers level (depth + 2)
        [(Coverage.correctKey, .nat r.correct, correct), (Coverage.totalKey, .nat r.total, total),
          (percentKey, .number (.decimal r.percent), .number (.decimal percent)),
          (FileRecord.findingsKey, .array (r.findings.map FileFinding.toJson), findings),
          (fileCountsKey, .object (counts.entries.map fun e => (e.1, e.2.toJson)), fileCounts)]
        (by simp [hcorrect, htotal, hpercent, hfindings, hfileCounts])
      refine ⟨_, by simpa [toJson, Coverage.members, hcounts] using hobject, ?_⟩
      rw [contents?, coverage?, required?_ofMembers rfl hcorrect', required?_ofMembers rfl htotal',
        required?_ofMembers rfl hfindings', optional?_ofMembers rfl hfileCounts', Contents.ofResult,
        hcounts]
      rfl

/-! ## The data form -/

/-- The data form of a result is a document and a line break, and its contents are read from it with
and without the line break. -/
theorem exists_parse_data {r : RunResult} (hr : r.Fits) : ∃ text value,
    data r = text ++ ['\n'] ∧ Json.parse (Utf8.encode text) = .ok value
      ∧ Json.parse (Utf8.encode (data r)) = .ok value
      ∧ contents? value = some (Contents.ofResult r) := by
  obtain ⟨value, hread, hcontents⟩ := says_contents 0 124 hr
  refine ⟨Json.pretty 0 (toJson r), value, rfl, ?_, ?_, hcontents⟩
  · exact toOption_eq_some_iff.1 (Json.toOption_parse hread)
  · exact toOption_eq_some_iff.1 (Json.toOption_parse_append hread (Or.inr rfl))

/-- **The data form loses nothing.** It is one JSON document and a line break. The counts, the
findings in their order and the coverage by file are read back from it as they were, where a missing
text is not an empty one and a missing coverage by file is not an empty one. So results with one
data form agree in all of this. -/
theorem data_loses_nothing {r : RunResult} (hr : r.Fits) :
    (∃ text value, data r = text ++ ['\n'] ∧ Json.parse (Utf8.encode text) = .ok value
      ∧ Json.parse (Utf8.encode (data r)) = .ok value
      ∧ contents? value = some (Contents.ofResult r))
    ∧ ∀ r' : RunResult, r'.Fits → data r' = data r →
      Contents.ofResult r' = Contents.ofResult r := by
  refine ⟨exists_parse_data hr, fun r' hr' hdata => ?_⟩
  obtain ⟨-, value, -, -, hparse, hcontents⟩ := exists_parse_data hr
  obtain ⟨-, value', -, -, hparse', hcontents'⟩ := exists_parse_data hr'
  rw [hdata, hparse] at hparse'
  obtain rfl := Except.ok.inj hparse'
  exact Option.some.inj (hcontents'.symm.trans hcontents)

/-- A result with a kind, a text that is missing and one that is empty, and characters that are
escaped or take several bytes. -/
def mixedResult (kind : FindingKind) : RunResult where
  correct := 3
  total := maxCount
  findings :=
    [⟨['é', '/', '\x22', '.', 't', 's'], ⟨0, maxCount, kind, none⟩⟩,
      ⟨['a', '\\', '\n'], ⟨maxCount, 7, .unsafeAs, some []⟩⟩]
  fileCounts? := some (OrderedMap.ofList [(['\x00'], ⟨3, 3⟩), (['é'], ⟨0, maxCount⟩)])
  files := 2
  hits := 0
  misses := 2

theorem mixedResult_fits (kind : FindingKind) : (mixedResult kind).Fits where
  coverage := ⟨show 3 ≤ maxCount by decide, Nat.le_refl maxCount⟩
  findings := by
    simp [mixedResult, Finding.Fits, maxCount]
  fileCounts := by
    rintro counts ⟨⟩
    decide

/-- Two kinds with one name have one data form. -/
theorem data_loses_nothing_mixed :
    (mixedResult .any).Fits ∧ (mixedResult (.other ['a', 'n', 'y'])).Fits
      ∧ data (mixedResult (.other ['a', 'n', 'y'])) = data (mixedResult .any)
      ∧ (∃ text value, data (mixedResult .any) = text ++ ['\n']
        ∧ Json.parse (Utf8.encode text) = .ok value
        ∧ contents? value = some
          { correct := 3
            total := maxCount
            findings := [⟨['é', '/', '\x22', '.', 't', 's'], 0, maxCount, ['a', 'n', 'y'], none⟩,
              ⟨['a', '\\', '\n'], maxCount, 7, FindingKind.unsafeAs.name, some []⟩]
            fileCounts? :=
              some (OrderedMap.ofList [(['\x00'], ⟨3, 3⟩), (['é'], ⟨0, maxCount⟩)]) })
      ∧ Contents.ofResult (mixedResult (.other ['a', 'n', 'y']))
        = Contents.ofResult (mixedResult .any) := by
  obtain ⟨⟨text, value, htext, hparse, -, hcontents⟩, hsame⟩ :=
    data_loses_nothing (mixedResult_fits .any)
  have hdata : data (mixedResult (.other ['a', 'n', 'y'])) = data (mixedResult .any) := rfl
  exact ⟨mixedResult_fits _, mixedResult_fits _, hdata, ⟨text, value, htext, hparse, hcontents⟩,
    hsame _ (mixedResult_fits _) hdata⟩

end Report

end TypeCoverage
