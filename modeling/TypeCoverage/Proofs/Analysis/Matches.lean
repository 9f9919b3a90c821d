import Mathlib.Data.List.Infix
import Mathlib.Data.List.TakeWhile
import Mathlib.Tactic.Common
import TypeCoverage.Analysis.Lexical

/-!
# What matches are about

The search finds matches of the recogniser at their offsets. They do not overlap, and a match that
is not found overlaps with one that is. Each recogniser is about a part of the code behind its lead:
a type expression behind a colon, an `as` with a type expression, a type between angles, or a bang.
-/

set_option autoImplicit false

namespace TypeCoverage.Analysis

variable {recognise : Recogniser} {before? : Option Char} {code rest : Text} {m : Match}

/-! ## The search -/

/-- A match that the search finds is one at its offset, after the character that stands there. -/
theorem recognise_of_mem_matchesFrom {skip offset k : Nat}
    (h : (k, m) ∈ matchesFrom recognise skip offset before? code) :
    ∃ front back, code = front ++ back ∧ k = offset + front.length
      ∧ recognise (front.getLast?.or before?) back = some m := by
  induction code generalizing skip offset before? with
  | nil => cases skip <;> cases h
  | cons c cs ih =>
      have hlater : ∀ skip, (k, m) ∈ matchesFrom recognise skip (offset + 1) (some c) cs →
          ∃ front back, c :: cs = front ++ back ∧ k = offset + front.length
            ∧ recognise (front.getLast?.or before?) back = some m := by
        intro skip hmem
        obtain ⟨front, back, rfl, rfl, hm⟩ := ih hmem
        refine ⟨c :: front, back, rfl, by simp only [List.length_cons]; omega, ?_⟩
        rw [List.getLast?_cons]
        cases hlast : front.getLast? with
        | none => rwa [hlast] at hm
        | some d => rwa [hlast] at hm
      cases skip with
      | succ skip => exact hlater skip h
      | zero =>
          rw [matchesFrom] at h
          split at h
          · next found hfound =>
              rcases List.mem_cons.1 h with heq | h
              · obtain ⟨rfl, rfl⟩ := Prod.mk.inj heq
                exact ⟨[], c :: cs, rfl, rfl, hfound⟩
              · exact hlater _ h
          · exact hlater 0 h

theorem recognise_of_mem_matchesIn {k : Nat} (h : (k, m) ∈ matchesIn recognise code) :
    ∃ front back, code = front ++ back ∧ k = front.length
      ∧ recognise front.getLast? back = some m := by
  obtain ⟨front, back, hcode, hk, hm⟩ := recognise_of_mem_matchesFrom h
  rw [Option.or_none] at hm
  exact ⟨front, back, hcode, by omega, hm⟩

theorem le_of_mem_matchesFrom {skip offset k : Nat}
    (h : (k, m) ∈ matchesFrom recognise skip offset before? code) : offset + skip ≤ k := by
  induction code generalizing skip offset before? with
  | nil => cases skip <;> cases h
  | cons c cs ih =>
      cases skip with
      | succ skip =>
          have hle := ih h
          omega
      | zero =>
          rw [matchesFrom] at h
          split at h
          · next found hfound =>
              rcases List.mem_cons.1 h with heq | h
              · obtain ⟨rfl, rfl⟩ := Prod.mk.inj heq
                omega
              · have hle := ih h
                omega
          · have hle := ih h
            omega

/-- Whether a match ends before another one begins. -/
def Precedes (a b : Nat × Match) : Prop := a.1 < b.1 ∧ a.1 + a.2.length ≤ b.1

theorem pairwise_matchesFrom (skip offset : Nat) (before? : Option Char) (code : Text) :
    (matchesFrom recognise skip offset before? code).Pairwise Precedes := by
  induction code generalizing skip offset before? with
  | nil => cases skip <;> exact List.Pairwise.nil
  | cons c cs ih =>
      cases skip with
      | succ skip => exact ih skip (offset + 1) (some c)
      | zero =>
          rw [matchesFrom]
          split
          · next found hfound =>
              refine List.pairwise_cons.2 ⟨?_, ih _ _ _⟩
              rintro ⟨k, m⟩ hmem
              have hle := le_of_mem_matchesFrom hmem
              constructor
              · show offset < k
                omega
              · show offset + found.length ≤ k
                omega
          · exact ih 0 (offset + 1) (some c)

/-- The matches that the search finds do not overlap. -/
theorem pairwise_matchesIn (recognise : Recogniser) (code : Text) :
    (matchesIn recognise code).Pairwise Precedes := pairwise_matchesFrom 0 0 none code

/-- Of two matches that the search finds, the first ends before the second begins. -/
theorem le_of_mem_matchesIn {a b : Nat × Match} (ha : a ∈ matchesIn recognise code)
    (hb : b ∈ matchesIn recognise code) (hlt : a.1 < b.1) : a.1 + a.2.length ≤ b.1 := by
  have hpairwise := List.pairwise_iff_getElem.1 (pairwise_matchesIn recognise code)
  obtain ⟨i, hi, rfl⟩ := List.mem_iff_getElem.1 ha
  obtain ⟨j, hj, rfl⟩ := List.mem_iff_getElem.1 hb
  rcases Nat.lt_trichotomy i j with hij | rfl | hij
  · exact (hpairwise i j hi hj hij).2
  · exact absurd hlt (Nat.lt_irrefl _)
  · exact absurd hlt (Nat.lt_asymm (hpairwise j i hj hi hij).1)

/-- Where there is a match, the search finds it unless the place is skipped or belongs to a match
before it. -/
theorem mem_matchesFrom_or_covered (skip offset : Nat) {front back : Text}
    (hcode : code = front ++ back) (hne : back ≠ [])
    (hm : recognise (front.getLast?.or before?) back = some m) :
    (offset + front.length, m) ∈ matchesFrom recognise skip offset before? code
      ∨ front.length < skip
      ∨ ∃ a ∈ matchesFrom recognise skip offset before? code,
        a.1 < offset + front.length ∧ offset + front.length < a.1 + a.2.length := by
  induction code generalizing skip offset before? front with
  | nil => exact absurd (List.append_eq_nil_iff.1 hcode.symm).2 hne
  | cons c cs ih =>
      cases front with
      | nil =>
          cases skip with
          | succ skip => exact Or.inr (Or.inl (Nat.succ_pos skip))
          | zero =>
              obtain rfl : c :: cs = back := hcode
              have hfound : recognise before? (c :: cs) = some m := hm
              rw [matchesFrom, hfound]
              exact Or.inl List.mem_cons_self
      | cons d front =>
          obtain ⟨rfl, hcs⟩ := List.cons.inj hcode
          have hlast : recognise (front.getLast?.or (some c)) back = some m := by
            rw [List.getLast?_cons] at hm
            cases hfront : front.getLast? with
            | none => rwa [hfront] at hm
            | some d => rwa [hfront] at hm
          have hoffset : offset + (c :: front).length = offset + 1 + front.length := by
            rw [List.length_cons]
            omega
          rw [hoffset, List.length_cons]
          cases skip with
          | succ skip =>
              rcases ih skip (offset + 1) hcs hlast with h | h | h
              · exact Or.inl h
              · exact Or.inr (Or.inl (by omega))
              · exact Or.inr (Or.inr h)
          | zero =>
              rw [matchesFrom]
              split
              · next found hfound =>
                  rcases ih (found.length - 1) (offset + 1) hcs hlast with h | h | ⟨a, ha, hcovers⟩
                  · exact Or.inl (List.mem_cons_of_mem _ h)
                  · -- the characters that are skipped are those of the match that was just found
                    refine Or.inr (Or.inr ⟨_, List.mem_cons_self, ?_⟩)
                    dsimp only
                    omega
                  · exact Or.inr (Or.inr ⟨a, List.mem_cons_of_mem _ ha, hcovers⟩)
              · rcases ih 0 (offset + 1) hcs hlast with h | h | h
                · exact Or.inl h
                · exact absurd h (Nat.not_lt_zero _)
                · exact Or.inr (Or.inr h)

/-- Where there is a match, the search finds it unless the place belongs to a match before it. -/
theorem mem_matchesIn_or_covered {front back : Text} (hcode : code = front ++ back)
    (hne : back ≠ []) (hm : recognise front.getLast? back = some m) :
    (front.length, m) ∈ matchesIn recognise code
      ∨ ∃ a ∈ matchesIn recognise code,
        a.1 < front.length ∧ front.length < a.1 + a.2.length := by
  rw [← Option.or_none (o := front.getLast?)] at hm
  have h := mem_matchesFrom_or_covered 0 0 hcode hne hm
  rw [Nat.zero_add] at h
  rcases h with h | h | h
  · exact Or.inl h
  · exact absurd h (Nat.not_lt_zero _)
  · exact Or.inr h

/-! ## Type expressions -/

theorem blanks_append (s : Text) : (blanks s).1 ++ (blanks s).2 = s :=
  List.takeWhile_append_dropWhile

theorem isBlank_of_mem_blanks {s : Text} {c : Char} (h : c ∈ (blanks s).1) : isBlank c = true :=
  List.mem_takeWhile_imp h

theorem prefix_of_dottedName? {name : Text} (h : dottedName? code = some name) :
    name <+: code ∧ name ≠ [] := by
  cases code with
  | nil => cases h
  | cons c cs =>
      rw [dottedName?] at h
      split at h
      · obtain rfl := Option.some.inj h
        exact ⟨(List.prefix_cons_inj c).2 (List.takeWhile_prefix _), by simp⟩
      · cases h

theorem prefix_throughLastAngle (s : Text) : throughLastAngle s <+: s := by
  have hsuffix := List.dropWhile_suffix (l := s.reverse) fun c => c != '>'
  have hprefix := List.reverse_prefix.2 hsuffix
  rwa [List.reverse_reverse] at hprefix

theorem prefix_typeArguments (s : Text) : typeArguments s <+: s := by
  have hs := blanks_append s
  unfold typeArguments
  dsimp only
  split
  · next inner hrest =>
      split
      · exact List.nil_prefix
      · have hangle := prefix_throughLastAngle (inner.takeWhile fun c => !endsArguments c)
        have harguments := hangle.trans (List.takeWhile_prefix _)
        conv => rhs; rw [← hs, hrest]
        exact (List.prefix_append_right_inj _).2 ((List.prefix_cons_inj '<').2 harguments)
  · exact List.nil_prefix

theorem prefix_arraySuffix (s : Text) : arraySuffix s <+: s := by
  induction s using arraySuffix.induct with
  | case1 cs ih =>
      rw [arraySuffix]
      exact (List.prefix_cons_inj _).2 ((List.prefix_cons_inj _).2 ih)
  | case2 s hs =>
      rw [arraySuffix]
      · exact List.nil_prefix
      · exact hs

/-- Two prefixes, the second of what follows the first. -/
theorem append_prefix_of_drop {s first second : Text} (hfirst : first <+: s)
    (hsecond : second <+: s.drop first.length) : first ++ second <+: s := by
  obtain ⟨t, rfl⟩ := hfirst
  rw [List.drop_left] at hsecond
  exact (List.prefix_append_right_inj first).2 hsecond

/-- A type expression is what stands at the head of the text. -/
theorem prefix_of_typeExpression? {type : Text} (h : typeExpression? code = some type) :
    type <+: code ∧ type ≠ [] := by
  unfold typeExpression? at h
  obtain ⟨name, hname, h⟩ := Option.bind_eq_some_iff.1 h
  obtain rfl := Option.some.inj h
  obtain ⟨hfront, hne⟩ := prefix_of_dottedName? hname
  constructor
  · apply append_prefix_of_drop
    · exact append_prefix_of_drop hfront (prefix_typeArguments _)
    · rw [List.length_append, ← List.drop_drop]
      exact prefix_arraySuffix _
  · simp [hne]

/-! ## The recognisers -/

/-- An annotation is about the type expression behind a colon and blanks. -/
theorem annotation_eq_some (h : annotation before? code = some m) :
    ∃ front gap ahead, code = front ++ ':' :: gap ++ ahead ∧ m.lead = (front ++ ':' :: gap).length
      ∧ (∀ c ∈ gap, isBlank c = true) ∧ typeExpression? ahead = some m.text ∧ m.type = m.text := by
  unfold annotation at h
  split at h
  · cases h
  · next c cs =>
      split at h
      · have hcs := blanks_append cs
        dsimp only at h
        split at h
        · next rest hrest =>
            obtain ⟨type, htype, h⟩ := Option.bind_eq_some_iff.1 h
            obtain rfl := Option.some.inj h
            refine ⟨c :: (blanks cs).1, (blanks rest).1, (blanks rest).2, ?_, ?_,
              fun d hd => isBlank_of_mem_blanks hd, htype, rfl⟩
            · rw [List.append_assoc, List.cons_append, List.cons_append, blanks_append, ← hrest,
                hcs]
            · simp only [List.length_append, List.length_cons]
              omega
        · cases h
      · cases h

/-- An assertion `as T` is about all of it. -/
theorem asAssertion_eq_some (h : asAssertion before? code = some m) :
    ∃ gap ahead, code = asWord ++ (gap ++ ahead) ∧ m.lead = 0 ∧ atWordStart before? = true
      ∧ (∀ c ∈ gap, isBlank c = true) ∧ gap ≠ [] ∧ typeExpression? ahead = some m.type
      ∧ m.text = asWord ++ (gap ++ m.type) := by
  unfold asAssertion at h
  split at h
  · next hword =>
      obtain ⟨rest, hrest, h⟩ := Option.bind_eq_some_iff.1 h
      dsimp only at h
      split at h
      · cases h
      · next hgap =>
          obtain ⟨type, htype, h⟩ := Option.bind_eq_some_iff.1 h
          obtain rfl := Option.some.inj h
          refine ⟨(blanks rest).1, (blanks rest).2, ?_, rfl, hword,
            fun d hd => isBlank_of_mem_blanks hd, by simpa using hgap, htype,
            List.append_assoc _ _ _⟩
          rw [blanks_append]
          exact Text.stripPrefix?_eq_some_iff.1 hrest
  · cases h

/-- A type between angles is a dotted name with pairs of square brackets. -/
theorem angleType?_eq_some (h : angleType? code = some m) :
    ∃ name suffix rest, code = '<' :: (name ++ suffix ++ '>' :: rest) ∧ m.lead = 0
      ∧ dottedName? (name ++ suffix ++ '>' :: rest) = some name
      ∧ arraySuffix (suffix ++ '>' :: rest) = suffix
      ∧ m.type = name ++ suffix ∧ m.text = '<' :: (name ++ suffix ++ ['>']) := by
  unfold angleType? at h
  split at h
  · next inner =>
      obtain ⟨name, hname, h⟩ := Option.bind_eq_some_iff.1 h
      obtain ⟨⟨more, rfl⟩, -⟩ := prefix_of_dottedName? hname
      obtain ⟨rest, hrest⟩ := prefix_arraySuffix more
      rw [List.drop_left] at h
      dsimp only at h
      have hdrop : (name ++ more).drop (name.length + (arraySuffix more).length) = rest := by
        have hwhole : name ++ more = (name ++ arraySuffix more) ++ rest := by
          rw [List.append_assoc, hrest]
        rw [hwhole, ← List.length_append, List.drop_left]
      rw [hdrop] at h
      split at h
      · next rest' =>
          split at h
          · split at h
            · obtain rfl := Option.some.inj h
              refine ⟨name, arraySuffix more, rest', ?_, rfl, ?_, ?_, rfl, rfl⟩
              · rw [List.append_assoc, hrest]
              · rw [List.append_assoc, hrest, hname]
              · rw [hrest]
            · cases h
          · cases h
      · cases h
  · cases h

/-- An assertion `<T>x` is about the type with its angles, which may stand behind a character. -/
theorem angleAssertion_eq_some (h : angleAssertion before? code = some m) :
    ∃ front name suffix rest, code = front ++ '<' :: (name ++ suffix ++ '>' :: rest)
      ∧ m.lead = front.length ∧ dottedName? (name ++ suffix ++ '>' :: rest) = some name
      ∧ arraySuffix (suffix ++ '>' :: rest) = suffix
      ∧ m.type = name ++ suffix ∧ m.text = '<' :: (name ++ suffix ++ ['>']) := by
  unfold angleAssertion at h
  dsimp only at h
  cases hstart : (if before?.isNone then angleType? code else none) with
  | some found =>
      rw [hstart] at h
      obtain rfl : found = m := Option.some.inj h
      split at hstart
      · obtain ⟨name, suffix, rest, hcode, hlead, hmore⟩ := angleType?_eq_some hstart
        exact ⟨[], name, suffix, rest, hcode, hlead, hmore⟩
      · cases hstart
  | none =>
      rw [hstart] at h
      cases code with
      | nil => cases h
      | cons c cs =>
          have hbehind : (if precedesAngle c then
              (angleType? cs).map fun m => { m with length := m.length + 1, lead := 1 }
            else none) = some m := h
          split at hbehind
          · obtain ⟨found, hfound, rfl⟩ := Option.map_eq_some_iff.1 hbehind
            obtain ⟨name, suffix, rest, hcode, -, hmore⟩ := angleType?_eq_some hfound
            exact ⟨[c], name, suffix, rest, congrArg (c :: ·) hcode, rfl, hmore⟩
          · cases hbehind

/-- A non-null assertion is about a bang between the end of an expression and no equals sign. -/
theorem nonNullAssertion_eq_some (h : nonNullAssertion before? code = some m) :
    ∃ c rest, code = c :: '!' :: rest ∧ m.lead = 1 ∧ endsExpression c = true
      ∧ rest.head? ≠ some '=' ∧ m.text = ['!'] := by
  unfold nonNullAssertion at h
  split at h
  · next c rest =>
      split at h
      · next hc =>
          split at h
          · obtain rfl := Option.some.inj h
            exact ⟨c, [], rfl, rfl, hc, by simp, rfl⟩
          · next d ds =>
              split at h
              · cases h
              · next hd =>
                  obtain rfl := Option.some.inj h
                  exact ⟨c, d :: ds, rfl, rfl, hc, fun heq => hd (Option.some.inj heq), rfl⟩
      · cases h
  · cases h

/-! ## What a match is about lies within it -/

theorem annotation_lead_lt (h : annotation before? code = some m) : m.lead < m.length := by
  unfold annotation at h
  split at h
  · cases h
  split at h
  · dsimp only at h
    split at h
    · obtain ⟨type, htype, h⟩ := Option.bind_eq_some_iff.1 h
      obtain rfl := Option.some.inj h
      have hpos := List.length_pos_iff.2 (prefix_of_typeExpression? htype).2
      dsimp only
      omega
    · cases h
  · cases h

theorem asAssertion_lead_lt (h : asAssertion before? code = some m) : m.lead < m.length := by
  unfold asAssertion at h
  split at h
  · obtain ⟨rest, -, h⟩ := Option.bind_eq_some_iff.1 h
    dsimp only at h
    split at h
    · cases h
    · obtain ⟨type, -, h⟩ := Option.bind_eq_some_iff.1 h
      obtain rfl := Option.some.inj h
      simp [asWord]
  · cases h

theorem angleType?_lead_lt (h : angleType? code = some m) : m.lead = 0 ∧ 0 < m.length := by
  unfold angleType? at h
  split at h
  · obtain ⟨name, -, h⟩ := Option.bind_eq_some_iff.1 h
    dsimp only at h
    split at h
    · split at h
      · split at h
        · obtain rfl := Option.some.inj h
          exact ⟨rfl, Nat.succ_pos _⟩
        · cases h
      · cases h
    · cases h
  · cases h

theorem angleAssertion_lead_lt (h : angleAssertion before? code = some m) :
    m.lead < m.length := by
  unfold angleAssertion at h
  dsimp only at h
  rw [Option.orElse_eq_or, Option.or_eq_some_iff] at h
  rcases h with h | ⟨-, h⟩
  · split at h
    · obtain ⟨hlead, hpos⟩ := angleType?_lead_lt h
      omega
    · cases h
  · split at h
    · split at h
      · obtain ⟨found, hfound, rfl⟩ := Option.map_eq_some_iff.1 h
        have hpos := (angleType?_lead_lt hfound).2
        dsimp only
        omega
      · cases h
    · cases h

theorem nonNullAssertion_lead_lt (h : nonNullAssertion before? code = some m) :
    m.lead < m.length := by
  unfold nonNullAssertion at h
  split at h
  · split at h
    · split at h
      · obtain rfl := Option.some.inj h
        decide
      · split at h
        · cases h
        · obtain rfl := Option.some.inj h
          decide
    · cases h
  · cases h

end TypeCoverage.Analysis
