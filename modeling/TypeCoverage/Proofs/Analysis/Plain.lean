import TypeCoverage.Analysis.Lexical
import TypeCoverage.Analysis.Recording
import TypeCoverage.Proofs.Store.RoundTrip
import TypeCoverage.Run.Source

/-!
# Findings that a store keeps as they are

The kinds of findings that the analyzers of this library report all have reserved names, so
their findings come back from a store unchanged.
-/

set_option autoImplicit false

namespace TypeCoverage

/-- Whether a store keeps all findings of an analyzer as they are. -/
def Analyzer.IsPlain (a : Analyzer) : Prop :=
  ∀ file unit strict, ∀ f ∈ (a.tally file unit strict).findings, f.normal = f

theorem Finding.normal_of_mem_reserved {f : Finding} (h : f.kind ∈ FindingKind.reserved) :
    f.normal = f := by
  rw [Finding.normal, FindingKind.ofName_name_of_mem h]

theorem map_normal_eq {fs : List Finding} (h : ∀ f ∈ fs, f.normal = f) :
    fs.map Finding.normal = fs :=
  (List.map_congr_left h).trans (List.map_id fs)

theorem Analyzer.IsPlain.map_normal_tally {a : Analyzer} (ha : a.IsPlain) (file : Text)
    (unit : SourceUnit) (strict : Bool) :
    (a.tally file unit strict).findings.map Finding.normal
      = (a.tally file unit strict).findings :=
  map_normal_eq (ha file unit strict)

theorem SourceFile.map_normal_semanticErrors (s : SourceFile) (a : Analyzer) :
    (s.semanticErrors a).map Finding.normal = s.semanticErrors a := by
  refine map_normal_eq fun f hf => ?_
  obtain ⟨diagnostic, -, rfl⟩ := List.mem_map.1 hf
  exact Finding.normal_of_mem_reserved (by simp [Diagnostic.toFinding, Finding.placed,
    FindingKind.reserved])

namespace Analysis

theorem normal_of_findingOf {s : Statement} {offset : Nat} {m : Match} {kind : FindingKind}
    (hkind : kind ∈ FindingKind.reserved) {f : Finding}
    (h : Site.unsound f = findingOf s offset m kind) : f.normal = f := by
  obtain rfl := Site.unsound.inj h
  exact Finding.normal_of_mem_reserved hkind

theorem normal_of_mem_annotationSites {s : Statement} {f : Finding}
    (h : Site.unsound f ∈ annotationSites s) : f.normal = f := by
  obtain ⟨m, -, hm⟩ := List.mem_filterMap.1 h
  rw [annotationSite?] at hm
  split at hm
  · cases hm
  · split at hm
    · exact normal_of_findingOf (by simp [FindingKind.reserved]) (Option.some.inj hm).symm
    · split at hm
      · exact normal_of_findingOf (by simp [FindingKind.reserved]) (Option.some.inj hm).symm
      · cases hm

theorem normal_of_mem_assertionSites {s : Statement} {f : Finding}
    (h : Site.unsound f ∈ assertionSites s) : f.normal = f := by
  rw [assertionSites, List.mem_append, List.mem_append] at h
  rcases h with (h | h) | h
  · obtain ⟨m, -, hm⟩ := List.mem_filterMap.1 h
    rw [asSite?] at hm
    split at hm
    · cases hm
    · exact normal_of_findingOf (by split <;> simp [FindingKind.reserved])
        (Option.some.inj hm).symm
  · obtain ⟨m, -, hm⟩ := List.mem_map.1 h
    exact normal_of_findingOf (by split <;> simp [FindingKind.reserved]) hm.symm
  · obtain ⟨m, -, hm⟩ := List.mem_map.1 h
    exact normal_of_findingOf (by simp [FindingKind.reserved]) hm.symm

theorem lexical_isPlain : lexical.IsPlain := by
  intro file unit strict f hf
  obtain ⟨s, -, h⟩ := Analyzer.exists_of_mem_findings hf
  rw [lexicalSites] at h
  split at h
  · rcases List.mem_append.1 h with h | h
    · exact normal_of_mem_annotationSites h
    · split at h
      · exact normal_of_mem_assertionSites h
      · cases h
  · cases h

theorem recording_isPlain : recording.IsPlain := by
  intro file unit strict f hf
  obtain ⟨s, -, h⟩ := Analyzer.exists_of_mem_findings hf
  have h' : Site.unsound f = recordingSite s := List.mem_singleton.1 h
  rw [recordingSite] at h'
  split at h'
  · obtain rfl := Site.unsound.inj h'
    exact Finding.normal_of_mem_reserved (by simp [Finding.placed, FindingKind.reserved])
  · cases h'

end Analysis

end TypeCoverage
