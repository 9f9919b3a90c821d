import Mathlib.Data.List.Nodup
import TypeCoverage.Proofs.Analysis.Places
import TypeCoverage.Proofs.Source.ImportLine

/-!
# Findings at different places

No two findings of a source have one place. Matches of one pattern do not overlap, and the part that
a match is about lies within it. Which pattern a finding is of is told by the code at its place: an
angle, a bang, an assertion `as T`, or else a type expression. Behind a colon `as` can be a type
expression too, but then it is the name `as` alone, which is no finding. Statements stand in ranges
of the source that do not overlap, so their findings stand apart as well.
-/

set_option autoImplicit false

namespace TypeCoverage

def Finding.place (f : Finding) : Position := ⟨f.line, f.character⟩

/-- The finding that a site is, if it is one. -/
def Site.finding? : Site → Option Finding
  | .sound => none
  | .unsound f => some f

theorem Tally.kept?_eq_filter (ignored : List Nat) (site : Site) :
    kept? ignored site = site.finding?.filter fun f => !ignored.contains f.line := by
  cases site with
  | sound => rfl
  | unsound f =>
      show (if ignored.contains f.line = true then none else some f) = _
      rw [Site.finding?, Option.filter_some]
      cases ignored.contains f.line <;> rfl

/-- The findings of a tally are some of those among its sites, in their order. -/
theorem Tally.findings_sublist (ignored : List Nat) (sites : List Site) :
    (ofSites ignored sites).findings.Sublist (sites.filterMap Site.finding?) := by
  have hfilter : (ofSites ignored sites).findings
      = (sites.filterMap Site.finding?).filter fun f => !ignored.contains f.line := by
    rw [List.filter_filterMap]
    exact List.filterMap_congr fun site _ => kept?_eq_filter ignored site
  rw [hfilter]
  exact List.filter_sublist

namespace Analysis

variable {s : Statement} {ahead : Text} {before? : Option Char} {m : Match} {f : Finding}

/-! ## Which pattern a place is of -/

/-- What findings are made of. -/
inductive Pattern where
  | annotated
  | asserted
  | angled
  | nonNull
  deriving DecidableEq, Repr

/-- The pattern of the findings at a place, from the code ahead. -/
def patternAt : Text → Pattern
  | '<' :: _ => .angled
  | '!' :: _ => .nonNull
  | ahead => if (asAssertion none ahead).isSome then .asserted else .annotated

theorem isWord_of_isBlank {c : Char} (h : isBlank c = true) : isWord c = false := by
  have hblanks : ∀ n ∈ [9, 10, 11, 12, 13, 32, 0x85, 0xA0, 0x1680, 0x2000, 0x2001, 0x2002, 0x2003,
      0x2004, 0x2005, 0x2006, 0x2007, 0x2008, 0x2009, 0x200A, 0x2028, 0x2029, 0x202F, 0x205F,
      0x3000], isWord (Char.ofNat n) = false := by
    decide +kernel
  have hmem : c.toNat ∈ [9, 10, 11, 12, 13, 32, 0x85, 0xA0, 0x1680, 0x2000, 0x2001, 0x2002, 0x2003,
      0x2004, 0x2005, 0x2006, 0x2007, 0x2008, 0x2009, 0x200A, 0x2028, 0x2029, 0x202F, 0x205F,
      0x3000] := by
    simp only [isBlank, Bool.or_eq_true, Bool.and_eq_true, decide_eq_true_eq, beq_iff_eq] at h
    simp only [List.mem_cons, List.not_mem_nil, or_false]
    omega
  have hword := hblanks _ hmem
  rwa [Char.ofNat_toNat] at hword

theorem not_isDottedChar_of_isBlank {c : Char} (h : isBlank c = true) :
    ¬ isDottedChar c = true := by
  rw [isDottedChar, isNameChar, isWord_of_isBlank h]
  intro hdotted
  rcases Bool.or_eq_true_iff.1 hdotted with hc | hc
  · obtain rfl := beq_iff_eq.1 hc
    cases h
  · obtain rfl := beq_iff_eq.1 hc
    cases h

/-- A type expression begins like a name. -/
theorem exists_start_of_typeExpression? {type : Text} (h : typeExpression? ahead = some type) :
    ∃ c cs, ahead = c :: cs ∧ isNameStart c = true := by
  obtain ⟨name, hname, -⟩ := Option.bind_eq_some_iff.1 h
  cases ahead with
  | nil => cases hname
  | cons c cs =>
      rw [dottedName?] at hname
      split at hname
      · next hc => exact ⟨c, cs, rfl, hc⟩
      · cases hname

/-- Where an assertion `as T` stands, the type expression is the word `as` alone. -/
theorem typeExpression?_of_asAssertion (h : asAssertion before? ahead = some m) :
    typeExpression? ahead = some asWord := by
  obtain ⟨gap, rest, rfl, -, -, hgap, hne, htype, -⟩ := asAssertion_eq_some h
  obtain ⟨c, cs, rfl, hc⟩ := exists_start_of_typeExpression? htype
  have hblank : isBlank c = false := Source.isBlank_of_isNameStart hc
  obtain ⟨b, gap, rfl⟩ := List.exists_cons_of_ne_nil hne
  have hb : isBlank b = true := hgap b List.mem_cons_self
  have hname : dottedName? (asWord ++ (b :: gap ++ c :: cs)) = some asWord := by
    have htake : ('s' :: b :: (gap ++ c :: cs)).takeWhile isDottedChar = ['s'] := by
      rw [List.takeWhile_cons_of_pos (by decide),
        List.takeWhile_cons_of_neg (not_isDottedChar_of_isBlank hb)]
    show (if isNameStart 'a' = true
      then some ('a' :: ('s' :: b :: (gap ++ c :: cs)).takeWhile isDottedChar) else none) = _
    rw [if_pos (by decide), htake]
    rfl
  -- behind the blanks a name begins, and no angle
  have harguments : typeArguments (b :: gap ++ c :: cs) = [] := by
    have hrest : (blanks (b :: gap ++ c :: cs)).2 = c :: cs := by
      show (b :: gap ++ c :: cs).dropWhile isBlank = c :: cs
      rw [List.dropWhile_append_of_pos hgap, List.dropWhile_cons_of_neg (by simp [hblank])]
    unfold typeArguments
    dsimp only
    rw [hrest]
    split
    · next heq =>
        obtain rfl := (List.cons.inj heq).1
        exact absurd hc (by decide)
    · rfl
  have hsuffix : arraySuffix (b :: gap ++ c :: cs) = [] := by
    rw [List.cons_append, arraySuffix]
    rintro rest heq
    obtain rfl := (List.cons.inj heq).1
    cases hb
  unfold typeExpression?
  rw [hname]
  show some (asWord ++ typeArguments ((asWord ++ (b :: gap ++ c :: cs)).drop asWord.length)
    ++ arraySuffix _) = some asWord
  rw [List.drop_left, harguments, List.length_nil, List.drop_zero, hsuffix]
  rfl

theorem patternAt_of_asAssertion (h : asAssertion before? ahead = some m) :
    patternAt ahead = .asserted := by
  obtain ⟨gap, rest, rfl, -⟩ := asAssertion_eq_some h
  have hword : (asAssertion none (asWord ++ (gap ++ rest))).isSome = true := by
    unfold asAssertion at h ⊢
    split at h
    · rw [if_pos (show atWordStart none = true from rfl), h]
      rfl
    · cases h
  exact if_pos hword

/-- A type expression with the word `any` in it is no assertion. -/
theorem patternAt_of_typeExpression? {type : Text} (htype : typeExpression? ahead = some type)
    (hany : hasWord anyWord type = true) : patternAt ahead = .annotated := by
  obtain ⟨c, cs, rfl, hc⟩ := exists_start_of_typeExpression? htype
  unfold patternAt
  split
  · next heq =>
      obtain rfl := (List.cons.inj heq).1
      exact absurd hc (by decide)
  · next heq =>
      obtain rfl := (List.cons.inj heq).1
      exact absurd hc (by decide)
  · refine if_neg fun hsome => ?_
    obtain ⟨m, hm⟩ := Option.isSome_iff_exists.1 hsome
    rw [typeExpression?_of_asAssertion hm] at htype
    obtain rfl := Option.some.inj htype
    exact absurd hany (by decide)

/-! ## The findings of a statement -/

/-- Whether the findings among sites stand at different offsets of the code of a statement, each at
one where the code shows one of some patterns. -/
def StandApart (s : Statement) (patterns : List Pattern) (sites : List Site) : Prop :=
  ∃ offsets : List Nat, offsets.Nodup
    ∧ (∀ i ∈ offsets, i < s.code.length ∧ patternAt (s.code.drop i) ∈ patterns)
    ∧ (sites.filterMap Site.finding?).map Finding.place = offsets.map s.placeOf

theorem standApart_nil (s : Statement) : StandApart s [] [] := ⟨[], List.nodup_nil, by simp, rfl⟩

theorem StandApart.append {ps qs : List Pattern} {xs ys : List Site} (hxs : StandApart s ps xs)
    (hys : StandApart s qs ys) (hdisjoint : ∀ p ∈ ps, p ∉ qs) :
    StandApart s (ps ++ qs) (xs ++ ys) := by
  obtain ⟨is, his, hwithin, hplaces⟩ := hxs
  obtain ⟨js, hjs, hwithin', hplaces'⟩ := hys
  refine ⟨is ++ js, his.append hjs fun i hi hj => ?_, fun i hi => ?_, ?_⟩
  · exact hdisjoint _ (hwithin i hi).2 (hwithin' i hj).2
  · rcases List.mem_append.1 hi with hi | hi
    · exact ⟨(hwithin i hi).1, List.mem_append_left _ (hwithin i hi).2⟩
    · exact ⟨(hwithin' i hi).1, List.mem_append_right _ (hwithin' i hi).2⟩
  · rw [List.filterMap_append, List.map_append, List.map_append, hplaces, hplaces']

/-- What it is for a finding to stand where a match has the part that it is about, in code that
shows a pattern there. -/
structure StandsAt (s : Statement) (p : Pattern) (a : Nat × Match) (f : Finding) : Prop where
  within : a.2.lead < a.2.length
  place : f.place = s.placeOf (a.1 + a.2.lead)
  shows : ∃ before ahead, s.code = before ++ ahead ∧ a.1 + a.2.lead = before.length
    ∧ ahead ≠ [] ∧ patternAt ahead = p

/-- The findings that are made of the matches of one pattern stand apart. -/
theorem standApart_of_matches {recognise : Recogniser} {site? : Nat × Match → Option Site}
    {p : Pattern} (h : ∀ a ∈ matchesIn recognise s.code, ∀ f, site? a = some (.unsound f) →
      StandsAt s p a f) : StandApart s [p] ((matchesIn recognise s.code).filterMap site?) := by
  let offset? (a : Nat × Match) : Option Nat :=
    ((site? a).bind Site.finding?).map fun _ => a.1 + a.2.lead
  have hfinding : ∀ {a i}, offset? a = some i →
      ∃ f, site? a = some (.unsound f) ∧ i = a.1 + a.2.lead := by
    intro a i hi
    obtain ⟨f, hf, rfl⟩ := Option.map_eq_some_iff.1 hi
    obtain ⟨site, hsite, hf⟩ := Option.bind_eq_some_iff.1 hf
    cases site with
    | sound => cases hf
    | unsound g => exact ⟨g, hsite, rfl⟩
  refine ⟨(matchesIn recognise s.code).filterMap offset?, ?_, fun i hi => ?_, ?_⟩
  · have hlt : ((matchesIn recognise s.code).filterMap offset?).Pairwise (· < ·) := by
      rw [List.pairwise_filterMap]
      refine (pairwise_matchesIn recognise s.code).imp_of_mem fun {a b} ha _ hab i hi j hj => ?_
      obtain ⟨f, hf, rfl⟩ := hfinding hi
      obtain ⟨-, -, rfl⟩ := hfinding hj
      have hwithin := (h a ha f hf).within
      have hle := hab.2
      omega
    exact hlt.imp Nat.ne_of_lt
  · obtain ⟨a, ha, hoffset⟩ := List.mem_filterMap.1 hi
    obtain ⟨f, hf, rfl⟩ := hfinding hoffset
    obtain ⟨before, ahead, hcode, hlength, hne, hpattern⟩ := (h a ha f hf).shows
    rw [hlength, hcode, List.drop_left, hpattern, List.length_append]
    have hpos := List.length_pos_iff.2 hne
    exact ⟨by omega, List.mem_singleton_self p⟩
  · rw [List.filterMap_filterMap, List.map_filterMap, List.map_filterMap]
    refine List.filterMap_congr fun a ha => ?_
    show ((site? a).bind Site.finding?).map Finding.place
      = (((site? a).bind Site.finding?).map fun _ => a.1 + a.2.lead).map s.placeOf
    cases hsite : site? a with
    | none => rfl
    | some site =>
        cases site with
        | sound => rfl
        | unsound f => exact congrArg some (h a ha f hsite).place

theorem standApart_annotationSites (s : Statement) :
    StandApart s [.annotated] (annotationSites s) := by
  refine standApart_of_matches fun a ha f hsite => ?_
  obtain ⟨front, back, hcode, hk, hm⟩ := recognise_of_mem_matchesIn ha
  obtain ⟨lead, gap, ahead, rfl, hlead, -, htype, hsame⟩ := annotation_eq_some hm
  have hfinding : hasWord anyWord a.2.text = true ∧ f.place = s.placeOf (a.1 + a.2.lead) := by
    unfold annotationSite? at hsite
    rw [hsame] at hsite
    split at hsite
    · cases hsite
    split at hsite
    · next hany =>
        obtain rfl := Site.unsound.inj (Option.some.inj hsite)
        rw [hany]
        exact ⟨hasWord_anyWord, rfl⟩
    split at hsite
    · next hany =>
        obtain rfl := Site.unsound.inj (Option.some.inj hsite)
        exact ⟨hany, rfl⟩
    · cases hsite
  refine ⟨annotation_lead_lt hm, hfinding.2, front ++ (lead ++ ':' :: gap), ahead, ?_, ?_, ?_,
    patternAt_of_typeExpression? htype hfinding.1⟩
  · simp [hcode]
  · simp [hk, hlead]
  · obtain ⟨c, cs, rfl, -⟩ := exists_start_of_typeExpression? htype
    simp

theorem standApart_asSites (s : Statement) : StandApart s [.asserted]
    ((matchesIn asAssertion s.code).filterMap fun a => asSite? s a.1 a.2) := by
  refine standApart_of_matches fun a ha f hsite => ?_
  obtain ⟨front, back, hcode, hk, hm⟩ := recognise_of_mem_matchesIn ha
  have hplace : f.place = s.placeOf (a.1 + a.2.lead) := by
    unfold asSite? at hsite
    split at hsite
    · cases hsite
    · obtain rfl := Site.unsound.inj (Option.some.inj hsite)
      rfl
  refine ⟨asAssertion_lead_lt hm, hplace, front, back, hcode, ?_, ?_,
    patternAt_of_asAssertion hm⟩
  · obtain ⟨-, -, -, hlead, -⟩ := asAssertion_eq_some hm
    rw [hk, hlead, Nat.add_zero]
  · obtain ⟨gap, rest, rfl, -⟩ := asAssertion_eq_some hm
    simp [asWord]

theorem standApart_angleSites (s : Statement) : StandApart s [.angled]
    ((matchesIn angleAssertion s.code).map fun a => angleSite s a.1 a.2) := by
  rw [← List.filterMap_eq_map]
  refine standApart_of_matches fun a ha f hsite => ?_
  obtain ⟨front, back, hcode, hk, hm⟩ := recognise_of_mem_matchesIn ha
  obtain ⟨lead, name, suffix, rest, rfl, hlead, -⟩ := angleAssertion_eq_some hm
  obtain rfl := Site.unsound.inj (Option.some.inj hsite)
  refine ⟨angleAssertion_lead_lt hm, rfl, front ++ lead, '<' :: (name ++ suffix ++ '>' :: rest),
    ?_, ?_, List.cons_ne_nil _ _, rfl⟩
  · exact hcode.trans (List.append_assoc _ _ _).symm
  · rw [hk, hlead, List.length_append]

theorem standApart_nonNullSites (s : Statement) : StandApart s [.nonNull]
    ((matchesIn nonNullAssertion s.code).map fun a => nonNullSite s a.1 a.2) := by
  rw [← List.filterMap_eq_map]
  refine standApart_of_matches fun a ha f hsite => ?_
  obtain ⟨front, back, hcode, hk, hm⟩ := recognise_of_mem_matchesIn ha
  obtain ⟨c, rest, rfl, hlead, -⟩ := nonNullAssertion_eq_some hm
  obtain rfl := Site.unsound.inj (Option.some.inj hsite)
  refine ⟨nonNullAssertion_lead_lt hm, rfl, front ++ [c], '!' :: rest, ?_, ?_,
    List.cons_ne_nil _ _, rfl⟩
  · rw [hcode, List.append_assoc]
    rfl
  · rw [hk, hlead, List.length_append]
    rfl

/-- The findings of a statement stand apart. -/
theorem exists_standApart (strict : Bool) (s : Statement) :
    ∃ patterns, StandApart s patterns (lexicalSites strict s) := by
  have hassertions := ((standApart_asSites s).append (standApart_angleSites s) (by decide)).append
    (standApart_nonNullSites s) (by decide)
  have hall := (standApart_annotationSites s).append hassertions (by decide)
  unfold lexicalSites
  split
  · split
    · exact ⟨_, hall⟩
    · exact ⟨_, (standApart_annotationSites s).append (standApart_nil s) (by simp)⟩
  · exact ⟨_, standApart_nil s⟩

/-! ## The findings of a source -/

open Source (Ascending)

theorem length_code_of_standsIn {source : Text} {r : Nat × Nat} (h : s.StandsIn source r)
    (hr : r.2 ≤ source.length) : s.code.length = r.2 - r.1 := by
  rw [h.code, List.extract_eq_take_drop, List.length_take, List.length_drop, Source.length_mask]
  omega

/-- The findings of statements that stand in ranges of a source have the places of different
offsets in those ranges. -/
theorem exists_offsets {source : Text} {statements : List Statement} {ranges : List (Nat × Nat)}
    (strict : Bool) (hstand : List.Forall₂ (fun s r => s.StandsIn source r) statements ranges)
    (hascending : Ascending source.length ranges) : ∃ offsets : List Nat, offsets.Nodup
      ∧ (∀ i ∈ offsets, ∃ r ∈ ranges, r.1 ≤ i ∧ i < r.2)
      ∧ ((statements.flatMap (lexicalSites strict)).filterMap Site.finding?).map Finding.place
        = offsets.map (Position.ofOffset source) := by
  induction hstand with
  | nil => exact ⟨[], List.nodup_nil, by simp, rfl⟩
  | @cons s r statements ranges hs _ ih =>
      obtain ⟨hproper, hapart⟩ := hascending
      have hr := hproper r List.mem_cons_self
      have hlater := (List.pairwise_cons.1 hapart).1
      obtain ⟨js, hjs, hin, hplaces⟩ :=
        ih ⟨fun r hr => hproper r (List.mem_cons_of_mem _ hr), (List.pairwise_cons.1 hapart).2⟩
      obtain ⟨patterns, is, his, hwithin, hplaces'⟩ := exists_standApart strict s
      have hlength := length_code_of_standsIn hs hr.2
      refine ⟨is.map (r.1 + ·) ++ js, ?_, fun i hi => ?_, ?_⟩
      · refine (his.map fun i j hij => Nat.add_left_cancel hij).append hjs fun i hi hj => ?_
        -- the offsets of the rest lie behind the range of this statement
        obtain ⟨k, hk, rfl⟩ := List.mem_map.1 hi
        obtain ⟨r', hr', hle, -⟩ := hin _ hj
        have hbefore := hlater r' hr'
        have hlt := (hwithin k hk).1
        omega
      · rcases List.mem_append.1 hi with hi | hi
        · obtain ⟨k, hk, rfl⟩ := List.mem_map.1 hi
          have hlt := (hwithin k hk).1
          exact ⟨r, List.mem_cons_self, by omega, by omega⟩
        · obtain ⟨r', hr', hmem⟩ := hin i hi
          exact ⟨r', List.mem_cons_of_mem _ hr', hmem⟩
      · rw [List.flatMap_cons, List.filterMap_append, List.map_append, List.map_append, hplaces,
          hplaces', List.map_map]
        refine congrArg (· ++ _) (List.map_congr_left fun i hi => ?_)
        have hlt := (hwithin i hi).1
        exact hs.placeOf i (by omega)

/-- **One finding for each place.** The findings of a source have different places. -/
theorem places_nodup (source file : Text) (strict : Bool) :
    ((lexical.tally file (SourceUnit.parse source) strict).findings.map Finding.place).Nodup := by
  rw [lexical_tally]
  obtain ⟨ranges, hascending, hstand⟩ := SourceUnit.exists_ranges source
  obtain ⟨offsets, hoffsets, hin, hplaces⟩ := exists_offsets strict hstand hascending
  have hle : ∀ i ∈ offsets, i ≤ source.length := by
    intro i hi
    obtain ⟨r, hr, -, hlt⟩ := hin i hi
    have hbound := (hascending.proper r hr).2
    omega
  have hsublist := Tally.findings_sublist (SourceUnit.parse source).ignoredLines
    ((SourceUnit.parse source).statements.flatMap (lexicalSites strict))
  have hall := hoffsets.map_on fun i hi j hj h =>
    Position.ofOffset_inj (hle i hi) (hle j hj) h
  rw [← hplaces] at hall
  exact hall.sublist (hsublist.map Finding.place)

end Analysis

end TypeCoverage
