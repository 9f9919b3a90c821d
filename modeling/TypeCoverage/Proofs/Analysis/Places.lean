import TypeCoverage.Proofs.Analysis.Matches
import TypeCoverage.Proofs.Source.Ranges

/-!
# Where findings point

Each finding of the lexical analyzer is about a part of the code of a statement that is no import,
and stands where the finding says: the mask goes on with the text of the finding from there.
-/

set_option autoImplicit false

namespace TypeCoverage

/-- What it is for a finding to point at an offset of a source where the mask shows a text. -/
structure Finding.PointsAt (f : Finding) (source : Text) (offset : Nat) (text : Text) : Prop where
  place : Position.mk f.line f.character = Position.ofOffset source offset
  reports : f.text? = some text
  shown : text <+: (Source.mask source).drop offset

namespace Analysis

variable {s : Statement} {f : Finding} {offset : Nat} {m : Match}

/-! ## What findings name -/

/-- What a finding of some kind and text is about, where code is cut into what stands before the
finding and the code from it on. -/
inductive Names : Text → Text → FindingKind → Text → Prop
  /-- A type expression that holds the word `any`, behind a colon. -/
  | annotated (front : Text) {gap ahead type : Text} (hgap : ∀ c ∈ gap, isBlank c = true)
      (htype : typeExpression? ahead = some type) (hany : hasWord anyWord type = true) :
      Names (front ++ ':' :: gap) ahead (if type = anyWord then .any else .containsAny) type
  /-- The word `as` with a type expression other than `const`. -/
  | asserted {before gap ahead type : Text} (hword : atWordStart before.getLast? = true)
      (hgap : ∀ c ∈ gap, isBlank c = true) (hne : gap ≠ [])
      (htype : typeExpression? ahead = some type) (hconst : type ≠ constWord) :
      Names before (asWord ++ (gap ++ ahead)) (if type = anyWord then .any else .unsafeAs)
        (asWord ++ (gap ++ type))
  /-- A dotted name with pairs of square brackets, between angles. -/
  | angled (before : Text) {name suffix rest : Text}
      (hname : dottedName? (name ++ suffix ++ '>' :: rest) = some name)
      (hsuffix : arraySuffix (suffix ++ '>' :: rest) = suffix) :
      Names before ('<' :: (name ++ suffix ++ '>' :: rest))
        (if name ++ suffix = anyWord then .any else .unsafeTypeAssertion)
        ('<' :: (name ++ suffix ++ ['>']))
  /-- A bang behind the end of an expression and not before an equals sign. -/
  | nonNull (front : Text) {rest : Text} {c : Char} (hends : endsExpression c = true)
      (hrest : rest.head? ≠ some '=') :
      Names (front ++ [c]) ('!' :: rest) .unsafeNonNull ['!']

/-- What a finding names is where it points, and is not empty. -/
theorem Names.stands {before ahead text : Text} {kind : FindingKind}
    (h : Names before ahead kind text) : text <+: ahead ∧ text ≠ [] := by
  cases h with
  | annotated front hgap htype hany => exact prefix_of_typeExpression? htype
  | @asserted _ gap ahead type hword hgap hne htype hconst =>
      have htext := (prefix_of_typeExpression? htype).1
      refine ⟨?_, by simp [asWord]⟩
      exact (List.prefix_append_right_inj _).2 ((List.prefix_append_right_inj _).2 htext)
  | @angled before name suffix rest hname hsuffix => exact ⟨⟨rest, by simp⟩, by simp⟩
  | @nonNull front rest c hends hrest => exact ⟨⟨rest, rfl⟩, by simp⟩

/-- What a finding names is no semantic error. -/
theorem Names.kind_ne {before ahead text : Text} {kind : FindingKind}
    (h : Names before ahead kind text) : kind ≠ .semanticError := by
  cases h with
  | annotated front hgap htype hany => split <;> decide
  | asserted hword hgap hne htype hconst => split <;> decide
  | angled before hname hsuffix => split <;> decide
  | nonNull front hends hrest => decide

/-- Whether a finding names a part of the code of a statement, with the place of that part. -/
def NamesIn (s : Statement) (f : Finding) : Prop :=
  ∃ before ahead text, s.code = before ++ ahead
    ∧ f = .placed (s.placeOf before.length) f.kind text ∧ Names before ahead f.kind text

/-- A finding that is made of a match names what the match is about. -/
theorem namesIn_of_match {before ahead : Text} {kind : FindingKind}
    (hsite : findingOf s offset m kind = .unsound f) (hcode : s.code = before ++ ahead)
    (hoffset : offset + m.lead = before.length) (hnames : Names before ahead kind m.text) :
    NamesIn s f := by
  obtain rfl := Site.unsound.inj hsite
  rw [hoffset]
  exact ⟨before, ahead, m.text, hcode, rfl, hnames⟩

theorem hasWord_anyWord : hasWord anyWord anyWord = true := by decide

theorem namesIn_of_mem_annotationSites (h : .unsound f ∈ annotationSites s) : NamesIn s f := by
  obtain ⟨⟨k, m⟩, hmem, hsite⟩ := List.mem_filterMap.1 h
  obtain ⟨front, back, hcode, rfl, hm⟩ := recognise_of_mem_matchesIn hmem
  obtain ⟨lead, gap, ahead, rfl, hlead, hgap, htype, hsame⟩ := annotation_eq_some hm
  have hcut : s.code = (front ++ lead ++ ':' :: gap) ++ ahead := by simp [hcode]
  have hoffset : front.length + m.lead = (front ++ lead ++ ':' :: gap).length := by
    simp [hlead]
  simp only [annotationSite?, hsame] at hsite
  split at hsite
  · cases hsite
  split at hsite
  · next hany =>
      have hword : hasWord anyWord m.text = true := by
        rw [hany]
        exact hasWord_anyWord
      have hnames := Names.annotated (front ++ lead) hgap htype hword
      rw [if_pos hany] at hnames
      exact namesIn_of_match (Option.some.inj hsite) hcut hoffset hnames
  split at hsite
  · next hany hword =>
      have hnames := Names.annotated (front ++ lead) hgap htype hword
      rw [if_neg hany] at hnames
      exact namesIn_of_match (Option.some.inj hsite) hcut hoffset hnames
  · cases hsite

theorem namesIn_of_mem_assertionSites (h : .unsound f ∈ assertionSites s) : NamesIn s f := by
  rw [assertionSites, List.mem_append, List.mem_append] at h
  rcases h with (h | h) | h
  · obtain ⟨⟨k, m⟩, hmem, hsite⟩ := List.mem_filterMap.1 h
    obtain ⟨front, back, hcode, rfl, hm⟩ := recognise_of_mem_matchesIn hmem
    obtain ⟨gap, ahead, rfl, hlead, hword, hgap, hne, htype, htext⟩ := asAssertion_eq_some hm
    simp only [asSite?] at hsite
    split at hsite
    · cases hsite
    · next hconst =>
        have hnames := Names.asserted hword hgap hne htype hconst
        rw [← htext] at hnames
        exact namesIn_of_match (Option.some.inj hsite) hcode (by simp [hlead]) hnames
  · obtain ⟨⟨k, m⟩, hmem, hsite⟩ := List.mem_map.1 h
    obtain ⟨front, back, hcode, rfl, hm⟩ := recognise_of_mem_matchesIn hmem
    obtain ⟨lead, name, suffix, rest, rfl, hlead, hname, hsuffix, htype, htext⟩ :=
      angleAssertion_eq_some hm
    have hcut : s.code = (front ++ lead) ++ '<' :: (name ++ suffix ++ '>' :: rest) := by
      simp [hcode]
    have hnames := Names.angled (front ++ lead) hname hsuffix
    rw [← htext, ← htype] at hnames
    rw [← htype] at hcut
    exact namesIn_of_match hsite hcut (by simp [hlead]) hnames
  · obtain ⟨⟨k, m⟩, hmem, hsite⟩ := List.mem_map.1 h
    obtain ⟨front, back, hcode, rfl, hm⟩ := recognise_of_mem_matchesIn hmem
    obtain ⟨c, rest, rfl, hlead, hends, hrest, htext⟩ := nonNullAssertion_eq_some hm
    have hnames := Names.nonNull front hends hrest
    rw [← htext] at hnames
    exact namesIn_of_match hsite (by simp [hcode]) (by simp [hlead]) hnames

/-- A finding of a statement names a part of its code. -/
theorem namesIn_of_mem_lexicalSites {strict : Bool} (h : .unsound f ∈ lexicalSites strict s) :
    s.kind = .other ∧ NamesIn s f := by
  rw [lexicalSites] at h
  split at h
  · next hkind =>
      refine ⟨hkind, ?_⟩
      rcases List.mem_append.1 h with h | h
      · exact namesIn_of_mem_annotationSites h
      · split at h
        · exact namesIn_of_mem_assertionSites h
        · cases h
  · cases h

/-! ## In the source -/

/-- Whether a finding points at an offset of a source that lies inside a statement which is no
import, and names what stands there. -/
def PointsInto (source : Text) (f : Finding) : Prop :=
  ∃ s ∈ (SourceUnit.parse source).statements, s.kind = .other ∧ ∃ r : Nat × Nat,
    s.StandsIn source r ∧ ∃ offset text,
      (r.1 ≤ offset ∧ offset < r.2 ∧ offset + text.length ≤ r.2) ∧ f.PointsAt source offset text
      ∧ Names (s.code.take (offset - r.1)) (s.code.drop (offset - r.1)) f.kind text

/-- What is named in a statement that stands in a range is named in the source. -/
theorem NamesIn.pointsInto {source : Text} (h : NamesIn s f)
    (hs : s ∈ (SourceUnit.parse source).statements) (hkind : s.kind = .other) :
    PointsInto source f := by
  obtain ⟨r, hr, hstands⟩ := SourceUnit.exists_standsIn hs
  obtain ⟨before, ahead, text, hcode, hf, hnames⟩ := h
  obtain ⟨htext, hne⟩ := hnames.stands
  have hpos := List.length_pos_iff.2 hne
  have hwithin := htext.length_le
  have hlength : before.length + ahead.length = r.2 - r.1 := by
    have hcodes : s.code.length = r.2 - r.1 := by
      rw [hstands.code, List.extract_eq_take_drop, List.length_take, List.length_drop,
        Source.length_mask]
      omega
    rw [← hcodes, hcode, List.length_append]
  refine ⟨s, hs, hkind, r, hstands, r.1 + before.length, text, ⟨by omega, by omega, by omega⟩,
    ⟨?_, ?_, ?_⟩, ?_⟩
  · rw [hf, ← hstands.placeOf before.length (by omega)]
    rfl
  · rw [hf]
    rfl
  · -- the code from the finding on is the mask from there, up to the end of the statement
    have hahead : ahead
        = ((Source.mask source).drop (r.1 + before.length)).take (r.2 - r.1 - before.length) := by
      calc ahead = s.code.drop before.length := by rw [hcode, List.drop_left]
        _ = _ := by rw [hstands.code, List.extract_eq_take_drop, List.drop_take, List.drop_drop]
    rw [hahead] at htext
    exact htext.trans (List.take_prefix _ _)
  · rw [Nat.add_sub_cancel_left, hcode, List.take_left, List.drop_left]
    exact hnames

/-- **Findings point at code.** Each finding of a source points at an offset inside a statement that
is no import, where the mask shows the text of the finding, which is what a finding of that kind
names. -/
theorem findings_point_at_code (source file : Text) (strict : Bool) :
    ∀ f ∈ (lexical.tally file (SourceUnit.parse source) strict).findings, PointsInto source f := by
  intro f hf
  obtain ⟨s, hs, hsite⟩ := Analyzer.exists_of_mem_findings hf
  obtain ⟨hkind, hnames⟩ := namesIn_of_mem_lexicalSites hsite
  exact hnames.pointsInto hs hkind

/-- A source with a type over two lines, behind an import and a comment. -/
def twoLineType : Text := "import a from './a'\n/* b: any */ let c: Array<\n  any> = a!".toList

def twoLineFinding : Finding := ⟨1, 20, .containsAny, some "Array<\n  any>".toList⟩

theorem findings_point_at_code_two_lines :
    twoLineFinding ∈ (lexical.tally [] (SourceUnit.parse twoLineType) true).findings
      ∧ PointsInto twoLineType twoLineFinding := by
  have hmem : twoLineFinding
      ∈ (lexical.tally [] (SourceUnit.parse twoLineType) true).findings := by
    decide +kernel
  exact ⟨hmem, findings_point_at_code twoLineType [] true twoLineFinding hmem⟩

end Analysis

end TypeCoverage
