import Mathlib.Data.List.Sort
import TypeCoverage.Proofs.Analysis.Matches

/-!
# Non-null assertions

A bang behind the end of an expression and not before an equals sign is a non-null assertion. The
search takes a character on each side of a bang, so it passes over one that stands two characters
behind another that it has found, as the second in `f(a!)!`. It finds all of them exactly if no two
stand like that.
-/

set_option autoImplicit false

namespace TypeCoverage.Analysis

variable {code rest : Text} {before? : Option Char} {m : Match} {i j : Nat} {s : Statement}

/-! ## Assertions in code -/

/-- Whether a non-null assertion stands at an offset of a code: a bang directly behind the end of an
expression, with no equals sign directly behind it. -/
def isNonNullAt (code : Text) (i : Nat) : Bool :=
  code[i]? == some '!' && (code.take i).getLast?.any endsExpression && code[i + 1]? != some '='

/-- The offsets of the non-null assertions of a code. -/
def nonNulls (code : Text) : List Nat := (List.range code.length).filter (isNonNullAt code)

theorem isNonNullAt_iff : isNonNullAt code i = true ↔ ∃ front c rest,
    code = front ++ c :: '!' :: rest ∧ i = front.length + 1 ∧ endsExpression c = true
      ∧ rest.head? ≠ some '=' := by
  unfold isNonNullAt
  rw [Bool.and_eq_true, Bool.and_eq_true, beq_iff_eq, bne_iff_ne, Option.any_eq_true]
  constructor
  · rintro ⟨⟨hbang, c, hc, hends⟩, hrest⟩
    obtain ⟨hi, hat⟩ := List.getElem?_eq_some_iff.1 hbang
    obtain ⟨front, hfront⟩ := List.getLast?_eq_some_iff.1 hc
    have hlength : i = front.length + 1 := by
      have htake := congrArg List.length hfront
      rw [List.length_take, List.length_append, List.length_singleton] at htake
      omega
    refine ⟨front, c, code.drop (i + 1), ?_, hlength, hends, ?_⟩
    · calc code = code.take i ++ code.drop i := (List.take_append_drop i code).symm
        _ = (front ++ [c]) ++ '!' :: code.drop (i + 1) := by
          rw [hfront, List.drop_eq_getElem_cons hi, hat]
        _ = front ++ c :: '!' :: code.drop (i + 1) := by simp
    · rwa [List.head?_drop]
  · rintro ⟨front, c, rest, rfl, rfl, hends, hrest⟩
    have hcut : front ++ c :: '!' :: rest = (front ++ [c]) ++ '!' :: rest := by simp
    have hlength : front.length + 1 = (front ++ [c]).length := by simp
    rw [hcut, hlength]
    refine ⟨⟨?_, c, ?_, hends⟩, ?_⟩
    · simp
    · rw [List.take_left]
      exact List.getLast?_concat
    · rw [List.getElem?_append_right (Nat.le_add_right _ 1), Nat.add_sub_cancel_left,
        List.getElem?_cons_succ, ← List.head?_eq_getElem?]
      exact hrest

theorem mem_nonNulls_iff : i ∈ nonNulls code ↔ isNonNullAt code i = true := by
  rw [nonNulls, List.mem_filter, List.mem_range, and_iff_right_iff_imp]
  intro h
  obtain ⟨front, c, rest, rfl, rfl, -, -⟩ := isNonNullAt_iff.1 h
  simp

/-! ## Assertions that are found -/

/-- The offsets of the non-null assertions that the search finds. -/
def foundNonNulls (code : Text) : List Nat :=
  (matchesIn nonNullAssertion code).map fun m => m.1 + 1

/-- A match takes a character behind the bang, unless there is none. -/
theorem nonNullAssertion_eq {c : Char} (hends : endsExpression c = true)
    (hrest : rest.head? ≠ some '=') : nonNullAssertion before? (c :: '!' :: rest)
      = some ⟨if rest = [] then 2 else 3, 1, ['!'], []⟩ := by
  cases rest with
  | nil => simp [nonNullAssertion, hends]
  | cons d ds =>
      have hd : d ≠ '=' := fun hd => hrest (congrArg some hd)
      simp [nonNullAssertion, hends, hd]

/-- A match that is found is one of an assertion, with the characters that it takes. -/
theorem of_mem_matchesIn_nonNull {k : Nat} (h : (k, m) ∈ matchesIn nonNullAssertion code) :
    ∃ front c rest, code = front ++ c :: '!' :: rest ∧ k = front.length ∧ endsExpression c = true
      ∧ rest.head? ≠ some '=' ∧ m.length = if rest = [] then 2 else 3 := by
  obtain ⟨front, back, rfl, rfl, hm⟩ := recognise_of_mem_matchesIn h
  obtain ⟨c, rest, rfl, -, hends, hrest, -⟩ := nonNullAssertion_eq_some hm
  rw [nonNullAssertion_eq hends hrest] at hm
  obtain rfl := Option.some.inj hm
  exact ⟨front, c, rest, rfl, rfl, hends, hrest, rfl⟩

theorem isNonNullAt_of_mem_found (h : i ∈ foundNonNulls code) : isNonNullAt code i = true := by
  obtain ⟨⟨k, m⟩, hmem, rfl⟩ := List.mem_map.1 h
  obtain ⟨front, c, rest, hcode, rfl, hends, hrest, -⟩ := of_mem_matchesIn_nonNull hmem
  exact isNonNullAt_iff.2 ⟨front, c, rest, hcode, rfl, hends, hrest⟩

/-- Of two assertions that stand two characters apart only one is found. -/
theorem not_mem_found_of_mem (h : i ∈ foundNonNulls code) : i + 2 ∉ foundNonNulls code := by
  intro hnext
  obtain ⟨⟨k, m⟩, hmem, rfl⟩ := List.mem_map.1 h
  obtain ⟨⟨k', m'⟩, hmem', hk⟩ := List.mem_map.1 hnext
  obtain ⟨front, c, rest, hcode, rfl, -, -, hlength⟩ := of_mem_matchesIn_nonNull hmem
  obtain ⟨front', c', rest', hcode', rfl, -⟩ := of_mem_matchesIn_nonNull hmem'
  dsimp only at hk
  have hrest : rest ≠ [] := by
    rintro rfl
    have hsame := congrArg List.length (hcode.symm.trans hcode')
    simp only [List.length_append, List.length_cons, List.length_nil] at hsame
    omega
  rw [if_neg hrest] at hlength
  have hle := le_of_mem_matchesIn hmem hmem' (show front.length < front'.length by omega)
  dsimp only at hle
  omega

/-- An assertion is found exactly if the one two characters before it, if there is one, is not. -/
theorem mem_foundNonNulls_iff : i ∈ foundNonNulls code
    ↔ isNonNullAt code i = true ∧ ∀ j ∈ foundNonNulls code, j + 2 ≠ i := by
  constructor
  · intro h
    refine ⟨isNonNullAt_of_mem_found h, ?_⟩
    rintro j hj rfl
    exact not_mem_found_of_mem hj h
  · rintro ⟨hassertion, hbefore⟩
    obtain ⟨front, c, rest, hcode, rfl, hends, hrest⟩ := isNonNullAt_iff.1 hassertion
    rcases mem_matchesIn_or_covered hcode (by simp) (nonNullAssertion_eq hends hrest)
      with hmem | ⟨⟨k, m⟩, hmem, hlt, hcovers⟩
    · exact List.mem_map.2 ⟨_, hmem, rfl⟩
    · obtain ⟨front', c', rest', hcode', rfl, -, -, hlength⟩ := of_mem_matchesIn_nonNull hmem
      dsimp only at hlt hcovers
      have hle : m.length ≤ 3 := by
        rw [hlength]
        split <;> omega
      have hbang : code[front'.length + 1]? = some '!' := by
        rw [hcode', List.getElem?_append_right (Nat.le_add_right _ 1), Nat.add_sub_cancel_left]
        rfl
      have hc : code[front.length]? = some c := by
        rw [hcode, List.getElem?_append_right (Nat.le_refl _), Nat.sub_self]
        rfl
      -- the match before takes the bang of its own, which ends no expression, or the next character
      have hplace : front.length ≠ front'.length + 1 := by
        intro heq
        rw [heq, hbang] at hc
        obtain rfl := Option.some.inj hc
        exact absurd hends (by decide)
      have hfound : front'.length + 1 ∈ foundNonNulls code := List.mem_map.2 ⟨_, hmem, rfl⟩
      exact absurd (by omega) (hbefore _ hfound)

/-! ## All or some of them -/

theorem pairwise_foundNonNulls (code : Text) : (foundNonNulls code).Pairwise (· < ·) := by
  rw [foundNonNulls, List.pairwise_map]
  exact (pairwise_matchesIn nonNullAssertion code).imp fun h => Nat.succ_lt_succ h.1

theorem pairwise_nonNulls (code : Text) : (nonNulls code).Pairwise (· < ·) :=
  List.pairwise_lt_range.filter _

/-- What is found is some of the assertions, in their order. -/
theorem foundNonNulls_eq_filter (code : Text) :
    foundNonNulls code = (nonNulls code).filter fun i => (foundNonNulls code).contains i := by
  refine (pairwise_foundNonNulls code).eq_of_mem_iff ((pairwise_nonNulls code).filter _) fun i => ?_
  rw [List.mem_filter, List.contains_iff_mem, mem_nonNulls_iff]
  exact ⟨fun h => ⟨isNonNullAt_of_mem_found h, h⟩, fun h => h.2⟩

/-- All assertions are found exactly if no two stand two characters apart. -/
theorem length_foundNonNulls_eq_iff : (foundNonNulls code).length = (nonNulls code).length
    ↔ ∀ i, isNonNullAt code i = true → isNonNullAt code (i + 2) = false := by
  rw [foundNonNulls_eq_filter, List.length_filter_eq_length_iff]
  constructor
  · intro hall i hi
    rw [Bool.eq_false_iff]
    intro hnext
    have hfound : ∀ j, isNonNullAt code j = true → j ∈ foundNonNulls code :=
      fun j hj => List.contains_iff_mem.1 (hall j (mem_nonNulls_iff.2 hj))
    exact not_mem_found_of_mem (hfound i hi) (hfound (i + 2) hnext)
  · intro hapart i hi
    have hassertion := mem_nonNulls_iff.1 hi
    refine List.contains_iff_mem.2 (mem_foundNonNulls_iff.2 ⟨hassertion, ?_⟩)
    rintro j hj rfl
    rw [hapart j (isNonNullAt_of_mem_found hj)] at hassertion
    cases hassertion

/-! ## The sites of a statement -/

/-- Whether a site is a finding of a non-null assertion. -/
def isNonNullSite : Site → Bool
  | .sound => false
  | .unsound f => f.kind = .unsafeNonNull

def nonNullFinding (s : Statement) (i : Nat) : Finding :=
  .placed (s.placeOf i) .unsafeNonNull ['!']

/-- The tally of the non-null assertions at some offsets: each counts once, as a finding at its
place or, on an excluded line, as correct. -/
def nonNullTally (ignored : List Nat) (s : Statement) (offsets : List Nat) : Tally where
  correct := offsets.countP fun i => ignored.contains (s.placeOf i).line
  total := offsets.length
  findings := (offsets.filter fun i => !ignored.contains (s.placeOf i).line).map (nonNullFinding s)

theorem not_isNonNullSite_of_mem_annotationSites {site : Site} (h : site ∈ annotationSites s) :
    ¬ isNonNullSite site = true := by
  obtain ⟨⟨k, m⟩, -, hsite⟩ := List.mem_filterMap.1 h
  unfold annotationSite? at hsite
  split_ifs at hsite
  all_goals
    obtain rfl := Option.some.inj hsite
    simp [isNonNullSite, findingOf, Finding.placed]

/-- Of the assertions of a statement, those that are non-null are the ones that are found. -/
theorem filter_assertionSites (s : Statement) : (assertionSites s).filter isNonNullSite
    = (foundNonNulls s.code).map fun i => .unsound (nonNullFinding s i) := by
  have has : ((matchesIn asAssertion s.code).filterMap fun m => asSite? s m.1 m.2).filter
      isNonNullSite = [] := by
    rw [List.filter_eq_nil_iff]
    intro site h
    obtain ⟨⟨k, m⟩, -, hsite⟩ := List.mem_filterMap.1 h
    unfold asSite? at hsite
    split at hsite
    · cases hsite
    · obtain rfl := Option.some.inj hsite
      split <;> simp [isNonNullSite, findingOf, Finding.placed]
  have hangle : ((matchesIn angleAssertion s.code).map fun m => angleSite s m.1 m.2).filter
      isNonNullSite = [] := by
    rw [List.filter_eq_nil_iff]
    intro site h
    obtain ⟨⟨k, m⟩, -, rfl⟩ := List.mem_map.1 h
    unfold angleSite
    split <;> simp [isNonNullSite, findingOf, Finding.placed]
  have hnonNull : ((matchesIn nonNullAssertion s.code).map fun m => nonNullSite s m.1 m.2)
      = (foundNonNulls s.code).map fun i => .unsound (nonNullFinding s i) := by
    rw [foundNonNulls, List.map_map]
    refine List.map_congr_left fun a ha => ?_
    obtain ⟨front, back, -, -, hm⟩ := recognise_of_mem_matchesIn ha
    obtain ⟨c, rest, -, hlead, -, -, htext⟩ := nonNullAssertion_eq_some hm
    show Site.unsound (.placed (s.placeOf (a.1 + a.2.lead)) .unsafeNonNull a.2.text) = _
    rw [hlead, htext]
    rfl
  rw [assertionSites, List.filter_append, List.filter_append, has, hangle, hnonNull,
    List.nil_append, List.nil_append, List.filter_map]
  exact congrArg _ (List.filter_eq_self.2 fun i _ => rfl)

theorem filter_lexicalSites (hkind : s.kind = .other) (hexport : isReExport s.code = false) :
    (lexicalSites true s).filter isNonNullSite
      = (foundNonNulls s.code).map fun i => .unsound (nonNullFinding s i) := by
  have hannotations : (annotationSites s).filter isNonNullSite = [] :=
    List.filter_eq_nil_iff.2 fun site h => not_isNonNullSite_of_mem_annotationSites h
  rw [lexicalSites, if_pos hkind, hexport, List.filter_append, hannotations, List.nil_append]
  exact filter_assertionSites s

theorem ofSites_nonNull (ignored offsets : List Nat) (s : Statement) :
    Tally.ofSites ignored (offsets.map fun i => .unsound (nonNullFinding s i))
      = nonNullTally ignored s offsets := by
  have hkept : ∀ i, Tally.kept? ignored (.unsound (nonNullFinding s i))
      = if ignored.contains (s.placeOf i).line then none else some (nonNullFinding s i) :=
    fun i => rfl
  unfold Tally.ofSites nonNullTally
  rw [List.countP_map, List.length_map, List.filterMap_map]
  congr 1
  · refine List.countP_congr fun i _ => ?_
    show (Tally.kept? ignored (.unsound (nonNullFinding s i))).isNone = true ↔ _
    rw [hkept]
    cases ignored.contains (s.placeOf i).line <;> simp
  · rw [← List.filterMap_eq_map, List.filterMap_filter]
    refine List.filterMap_congr fun i _ => ?_
    show Tally.kept? ignored (.unsound (nonNullFinding s i)) = _
    rw [hkept]
    cases ignored.contains (s.placeOf i).line <;> rfl

/-- **Non-null assertions that are counted.** Strict analysis of a statement counts each non-null
assertion once, unless it counts the one two characters before it. So it counts them all exactly if
no two stand two characters apart. -/
theorem nonNull_counted_iff (hkind : s.kind = .other) (hexport : isReExport s.code = false)
    (ignored : List Nat) : ∃ counted : List Nat,
      Tally.ofSites ignored ((lexicalSites true s).filter isNonNullSite)
        = nonNullTally ignored s counted
      ∧ counted.Pairwise (· < ·)
      ∧ (∀ i, i ∈ counted ↔ isNonNullAt s.code i = true ∧ ∀ j ∈ counted, j + 2 ≠ i)
      ∧ (nonNullTally ignored s counted = nonNullTally ignored s (nonNulls s.code)
        ↔ ∀ i, isNonNullAt s.code i = true → isNonNullAt s.code (i + 2) = false) := by
  refine ⟨foundNonNulls s.code, ?_, pairwise_foundNonNulls s.code,
    fun i => mem_foundNonNulls_iff, ?_⟩
  · rw [filter_lexicalSites hkind hexport, ofSites_nonNull]
  · rw [← length_foundNonNulls_eq_iff]
    constructor
    · exact congrArg Tally.total
    · intro hlength
      have hsublist : (foundNonNulls s.code).Sublist (nonNulls s.code) := by
        rw [foundNonNulls_eq_filter]
        exact List.filter_sublist
      rw [hsublist.eq_of_length hlength]

/-- A statement with three assertions, each two characters behind the one before it. -/
def nestedNonNulls : Statement where
  kind := .other
  text := "let v = g(f(a!)!)!;".toList
  code := "let v = g(f(a!)!)!;".toList
  start := Position.start

/-- Of three assertions in a row the first and the last are counted. -/
theorem nonNull_counted_iff_nested :
    nestedNonNulls.kind = .other ∧ isReExport nestedNonNulls.code = false
      ∧ nonNulls nestedNonNulls.code = [13, 15, 17]
      ∧ ∃ counted, Tally.ofSites [] ((lexicalSites true nestedNonNulls).filter isNonNullSite)
          = nonNullTally [] nestedNonNulls counted
        ∧ 13 ∈ counted ∧ 15 ∉ counted ∧ 17 ∈ counted
        ∧ nonNullTally [] nestedNonNulls counted ≠ nonNullTally [] nestedNonNulls [13, 15, 17] := by
  have hexport : isReExport nestedNonNulls.code = false := by decide +kernel
  have hall : nonNulls nestedNonNulls.code = [13, 15, 17] := by decide +kernel
  have hassertion : ∀ i, isNonNullAt nestedNonNulls.code i = true ↔ i ∈ [13, 15, 17] := by
    intro i
    rw [← mem_nonNulls_iff, hall]
  obtain ⟨counted, htally, -, hcounted, hiff⟩ := nonNull_counted_iff rfl hexport []
  have hfirst : 13 ∈ counted := by
    refine (hcounted 13).2 ⟨(hassertion 13).2 (by simp), fun j hj hsum => ?_⟩
    obtain rfl : j = 11 := by omega
    simpa using (hassertion 11).1 ((hcounted 11).1 hj).1
  have hsecond : 15 ∉ counted := fun h => ((hcounted 15).1 h).2 13 hfirst rfl
  have hthird : 17 ∈ counted := by
    refine (hcounted 17).2 ⟨(hassertion 17).2 (by simp), fun j hj hsum => ?_⟩
    obtain rfl : j = 15 := by omega
    exact hsecond hj
  refine ⟨rfl, hexport, hall, counted, htally, hfirst, hsecond, hthird, fun hsame => ?_⟩
  rw [← hall] at hsame
  have hnext := hiff.1 hsame 13 ((hassertion 13).2 (by simp))
  rw [(hassertion 15).2 (by simp)] at hnext
  cases hnext

/-- An assertion two characters behind another one is not counted. -/
theorem assertion_behind_assertion_missed :
    let source := "let v = f(a!)!;".toList
    lexical.tally [] (SourceUnit.parse source) true = ⟨0, 1, [⟨0, 11, .unsafeNonNull, some ['!']⟩]⟩
      ∧ (SourceUnit.parse source).ignoredLines = []
      ∧ (SourceUnit.parse source).statements = [⟨.other, source, source, Position.start⟩]
      ∧ isReExport source = false ∧ nonNulls source = [11, 13] := by
  decide +kernel

end TypeCoverage.Analysis
