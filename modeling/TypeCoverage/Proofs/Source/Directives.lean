import Mathlib.Data.List.Infix
import TypeCoverage.Proofs.Source.Ignore
import TypeCoverage.Proofs.Source.Ranges

/-!
# Where directives stand

The search for directives goes by lines, but it can be said by offsets of the whole source: a line
is excluded exactly if a comment opener with a directive stands at an offset of that line, or of the
line before it where the directive is about the next line.
-/

set_option autoImplicit false

namespace TypeCoverage

/-! ## Lines -/

namespace Text

variable {line : Text}

/-- A line without the carriage return that belongs to its line ending. -/
def withoutReturn (line : Text) : Text :=
  if line.getLast? = some '\r' then line.dropLast else line

theorem lines_return (rest : Text) (hbreak : '\n' ∉ line) :
    lines (line ++ '\r' :: '\n' :: rest) = line :: lines rest := by
  induction line with
  | nil => rfl
  | cons c cs ih =>
      rw [List.mem_cons, not_or] at hbreak
      refine lines_cons (Ne.symm hbreak.1) (fun _ hhead => ?_) (ih hbreak.2)
      -- the next character is one of the line, or the carriage return behind it
      cases cs with
      | nil => cases hhead
      | cons d ds => exact hbreak.2 (by simp [Option.some.inj hhead])

/-- A text up to a line break gives its first line. -/
theorem lines_break (rest : Text) (hbreak : '\n' ∉ line) :
    lines (line ++ '\n' :: rest) = line.withoutReturn :: lines rest := by
  unfold withoutReturn
  split
  · next hlast =>
      obtain ⟨front, rfl⟩ := List.getLast?_eq_some_iff.1 hlast
      have hfront : '\n' ∉ front := fun hmem => hbreak (by simp [hmem])
      rw [List.dropLast_concat, List.append_assoc]
      exact lines_return rest hfront
  · next hlast => exact lines_append rest (fun c hc hbad => hbreak (hbad ▸ hc)) hlast

/-- A text without line breaks is one line. -/
theorem lines_of_not_mem (hbreak : '\n' ∉ line) (hne : line ≠ []) : lines line = [line] := by
  induction line with
  | nil => exact absurd rfl hne
  | cons c cs ih =>
      rw [List.mem_cons, not_or] at hbreak
      have hhead : c = '\r' → cs.head? ≠ some '\n' :=
        fun _ hhead => hbreak.2 (List.mem_of_head? hhead)
      cases cs with
      | nil =>
          unfold lines
          split
          · next heq => cases heq
          · next heq => cases heq
          · next heq => exact absurd (List.cons.inj heq).1.symm hbreak.1
          · next heq =>
              obtain ⟨rfl, rfl⟩ := List.cons.inj heq
              rfl
      | cons d ds => exact lines_cons (Ne.symm hbreak.1) hhead (ih hbreak.2 (by simp))

/-- A statement about all texts can be proved line by line. -/
theorem line_induction {motive : Text → Prop} (last : ∀ line, '\n' ∉ line → motive line)
    (more : ∀ line rest, '\n' ∉ line → motive rest → motive (line ++ '\n' :: rest)) (s : Text) :
    motive s := by
  induction hlength : s.length using Nat.strong_induction_on generalizing s with
  | _ n ih =>
    by_cases hmem : '\n' ∈ s
    · obtain ⟨line, rest, rfl, hline⟩ := List.eq_append_cons_of_mem hmem
      refine more line rest hline (ih rest.length ?_ rest rfl)
      rw [← hlength, List.length_append, List.length_cons]
      omega
    · exact last s hmem

end Text

/-! ## Directives in a text -/

namespace Source

variable {d : Directive} {s t line rest : Text} {i n m : Nat}

/-- Whether a text begins with a comment opener, blanks in the same line, and a directive that no
word character follows. -/
def Directive.Begins (d : Directive) (s : Text) : Prop := ∃ opener blanks rest,
  s = opener ++ (blanks ++ (directiveWord ++ d.ending ++ rest))
    ∧ (opener = ['/', '/'] ∨ opener = ['/', '*'])
    ∧ (∀ c ∈ blanks, isBlank c = true ∧ c ≠ '\n') ∧ atWordEnd rest = true

/-- Whether a directive with its comment opener stands at an offset of a source. -/
def DirectiveAt (source : Text) (d : Directive) (i : Nat) : Prop := d.Begins (source.drop i)

/-- The line that a directive in line `n` excludes. -/
def Directive.excluded (d : Directive) (n : Nat) : Nat :=
  match d with
  | .sameLine => n
  | .nextLine => n + 1

def lineAt (source : Text) (i : Nat) : Nat := (Position.ofOffset source i).line

/-- Whether a directive at an offset of a source excludes line `n`. -/
def Excludes (source : Text) (d : Directive) (i n : Nat) : Prop :=
  DirectiveAt source d i ∧ d.excluded (lineAt source i) = n

theorem ending_facts (d : Directive) : ('\n' ∉ directiveWord ++ d.ending)
    ∧ (directiveWord ++ d.ending).getLast? = some 'e' := by
  cases d <;> decide

theorem exists_opener_of_afterOpener? {after : Text} (h : afterOpener? s = some after) :
    ∃ opener, s = opener ++ after ∧ (opener = ['/', '/'] ∨ opener = ['/', '*']) := by
  unfold afterOpener? at h
  split at h
  · obtain rfl := Option.some.inj h
    exact ⟨_, rfl, Or.inl rfl⟩
  · obtain rfl := Option.some.inj h
    exact ⟨_, rfl, Or.inr rfl⟩
  · cases h

/-- In a line the search finds what a directive is. -/
theorem hasDirectiveAt_iff (hbreak : '\n' ∉ s) : hasDirectiveAt d s = true ↔ d.Begins s := by
  constructor
  · intro h
    unfold hasDirectiveAt at h
    split at h
    · cases h
    · next after hopener =>
        split at h
        · next rest hstrip =>
            rw [Text.stripPrefix?_eq_some_iff] at hstrip
            have hafter : after
                = after.takeWhile isBlank ++ (directiveWord ++ d.ending ++ rest) := by
              rw [← hstrip]
              exact List.takeWhile_append_dropWhile.symm
            obtain ⟨opener, rfl, hopens⟩ := exists_opener_of_afterOpener? hopener
            refine ⟨opener, after.takeWhile isBlank, rest, by rw [← hafter], hopens, ?_, h⟩
            intro c hc
            refine ⟨List.mem_takeWhile_imp hc, ?_⟩
            rintro rfl
            exact hbreak (List.mem_append_right _ ((List.takeWhile_prefix _).subset hc))
        · cases h
  · rintro ⟨opener, blanks, rest, rfl, hopener, hblanks, hend⟩
    have hafter : afterOpener? (opener ++ (blanks ++ (directiveWord ++ d.ending ++ rest)))
        = some (blanks ++ (directiveWord ++ d.ending ++ rest)) := by
      rcases hopener with rfl | rfl <;> rfl
    have hskip : Text.skipBlanks (blanks ++ (directiveWord ++ d.ending ++ rest))
        = directiveWord ++ d.ending ++ rest := by
      unfold Text.skipBlanks
      rw [List.dropWhile_append_of_pos fun c hc => (hblanks c hc).1]
      exact List.dropWhile_cons_of_neg (by decide)
    unfold hasDirectiveAt
    rw [hafter]
    dsimp only
    rw [hskip, Text.stripPrefix?_eq_some_iff.2 rfl]
    exact hend

/-- A directive does not go on beyond a line ending. -/
theorem begins_append_iff {ending : Text} (hend : atWordEnd ending = true)
    (hbeyond : ∀ front, front <+: ending → front ≠ [] →
      '\n' ∈ front ∨ front.getLast? ≠ some 'e') :
    d.Begins (s ++ ending) ↔ d.Begins s := by
  obtain ⟨hword, hlast⟩ := ending_facts d
  constructor
  · rintro ⟨opener, blanks, rest, hs, hopener, hblanks, hrest⟩
    have hcut : s ++ ending = opener ++ (blanks ++ (directiveWord ++ d.ending)) ++ rest := by
      rw [hs, List.append_assoc opener, List.append_assoc blanks]
    rcases List.append_eq_append_iff.1 hcut with ⟨front, hmatch, hfront⟩ | ⟨rest', hmatch, rfl⟩
    · by_cases hnil : front = []
      · rw [hnil, List.append_nil] at hmatch
        exact ⟨opener, blanks, [], by rw [List.append_nil, hmatch], hopener, hblanks, rfl⟩
      -- what goes on beyond the line has a line break, or ends like the line ending
      · rcases hbeyond front ⟨rest, hfront.symm⟩ hnil with hbreak | hother
        · have hmem : '\n' ∈ opener ++ (blanks ++ (directiveWord ++ d.ending)) :=
            hmatch ▸ List.mem_append_right s hbreak
          rcases List.mem_append.1 hmem with hmem | hmem
          · rcases hopener with rfl | rfl <;> exact absurd hmem (by decide)
          · rcases List.mem_append.1 hmem with hmem | hmem
            · exact absurd rfl (hblanks _ hmem).2
            · exact absurd hmem hword
        · refine absurd ?_ hother
          rw [← List.getLast?_append_of_ne_nil s hnil, ← hmatch, ← List.append_assoc,
            List.getLast?_append_of_ne_nil _ (by simp [directiveWord]), hlast]
    · refine ⟨opener, blanks, rest', by rw [hmatch, List.append_assoc, List.append_assoc], hopener,
        hblanks, ?_⟩
      cases rest' with
      | nil => rfl
      | cons c cs => exact hrest
  · rintro ⟨opener, blanks, rest, rfl, hopener, hblanks, hrest⟩
    refine ⟨opener, blanks, rest ++ ending, by simp, hopener, hblanks, ?_⟩
    cases rest with
    | nil => exact hend
    | cons c cs => exact hrest

theorem begins_append_break_iff (s rest : Text) : d.Begins (s ++ '\n' :: rest) ↔ d.Begins s := by
  have hend : atWordEnd ('\n' :: rest) = true := by
    show (!isWord '\n') = true
    decide
  refine begins_append_iff hend fun front hfront hne => Or.inl ?_
  cases front with
  | nil => exact absurd rfl hne
  | cons c cs =>
      obtain ⟨rfl, -⟩ := List.cons_prefix_cons.1 hfront
      exact List.mem_cons_self

theorem begins_append_return_iff (s : Text) : d.Begins (s ++ ['\r']) ↔ d.Begins s := by
  refine begins_append_iff (by decide) fun front hfront hne => Or.inr ?_
  cases front with
  | nil => exact absurd rfl hne
  | cons c cs =>
      obtain ⟨rfl, hcs⟩ := List.cons_prefix_cons.1 hfront
      rw [List.prefix_nil.1 hcs]
      decide

theorem not_begins_nil : ¬ d.Begins [] := by
  rintro ⟨opener, blanks, rest, hs, hopener, -⟩
  rcases hopener with rfl | rfl <;> cases hs

/-- The search in a line tries every offset. -/
theorem hasDirective_iff (hbreak : '\n' ∉ line) :
    hasDirective d line = true ↔ ∃ i, d.Begins (line.drop i) := by
  induction line with
  | nil =>
      simp only [hasDirective, List.drop_nil, exists_const, Bool.false_eq_true, false_iff]
      exact not_begins_nil
  | cons c cs ih =>
      have hrest : '\n' ∉ cs := fun hmem => hbreak (List.mem_cons_of_mem _ hmem)
      rw [hasDirective, Bool.or_eq_true, hasDirectiveAt_iff hbreak, ih hrest]
      constructor
      · rintro (h | ⟨i, h⟩)
        · exact ⟨0, h⟩
        · exact ⟨i + 1, h⟩
      · rintro ⟨i, h⟩
        cases i with
        | zero => exact Or.inl h
        | succ i => exact Or.inr ⟨i, h⟩

/-- A carriage return at the end of a line makes no difference to its directives. -/
theorem hasDirective_withoutReturn_iff (hbreak : '\n' ∉ line) :
    hasDirective d line.withoutReturn = true ↔ ∃ i, d.Begins (line.drop i) := by
  unfold Text.withoutReturn
  split
  · next hlast =>
      obtain ⟨front, rfl⟩ := List.getLast?_eq_some_iff.1 hlast
      rw [List.dropLast_concat, hasDirective_iff fun hmem => hbreak (by simp [hmem])]
      constructor
      · rintro ⟨i, h⟩
        refine ⟨i, ?_⟩
        by_cases hi : i ≤ front.length
        · rw [List.drop_append_of_le_length hi]
          exact (begins_append_return_iff _).2 h
        · rw [List.drop_eq_nil_of_le (by omega)] at h
          exact absurd h not_begins_nil
      · rintro ⟨i, h⟩
        refine ⟨i, ?_⟩
        by_cases hi : i ≤ front.length
        · rw [List.drop_append_of_le_length hi] at h
          exact (begins_append_return_iff _).1 h
        · rw [List.drop_eq_nil_of_le (by simp; omega)] at h
          exact absurd h not_begins_nil
  · exact hasDirective_iff hbreak

/-! ## Directives by lines and by offsets -/

theorem le_of_mem_ignoredFrom {carried : Bool} {ls : List Text}
    (h : m ∈ ignoredFrom n carried ls) : n ≤ m := by
  induction ls generalizing n carried with
  | nil => cases carried <;> simp_all [ignoredFrom]
  | cons line ls ih =>
      rcases List.mem_append.1 h with h | h
      · split at h
        · exact Nat.le_of_eq (List.mem_singleton.1 h).symm
        · cases h
      · exact Nat.le_of_succ_le (ih h)

/-- The lines that are excluded where the lines of a source begin with a line. -/
theorem mem_ignoredFrom_cons {ls : List Text} : m ∈ ignoredFrom 0 false (line :: ls) ↔
    (∃ d, hasDirective d line = true ∧ d.excluded 0 = m)
      ∨ ∃ k ∈ ignoredFrom 0 false ls, k + 1 = m := by
  have hrest : m ∈ ignoredFrom 1 false ls ↔ ∃ k ∈ ignoredFrom 0 false ls, k + 1 = m := by
    constructor
    · intro h
      cases m with
      | zero => exact absurd (le_of_mem_ignoredFrom h) (by decide)
      | succ k => exact ⟨k, mem_ignoredFrom_succ.1 h, rfl⟩
    · rintro ⟨k, hk, rfl⟩
      exact mem_ignoredFrom_succ.2 hk
  rw [ignoredFrom, List.mem_append, mem_ignoredFrom_carried, hrest, Bool.false_or, ← or_assoc]
  refine or_congr_left ?_
  constructor
  · rintro (h | ⟨h, rfl⟩)
    · split at h
      · next hsame => exact ⟨.sameLine, hsame, (List.mem_singleton.1 h).symm⟩
      · cases h
    · exact ⟨.nextLine, h, rfl⟩
  · rintro ⟨d, h, rfl⟩
    cases d with
    | sameLine =>
        left
        rw [if_pos h]
        exact List.mem_singleton.2 rfl
    | nextLine => exact Or.inr ⟨h, rfl⟩

theorem lineAt_of_le (rest : Text) (hbreak : '\n' ∉ line) (hi : i ≤ line.length) :
    lineAt (line ++ rest) i = 0 := by
  show ((line ++ rest).take i).count '\n' = 0
  rw [List.take_append_of_le_length hi, List.count_eq_zero]
  exact fun hmem => hbreak (List.mem_of_mem_take hmem)

theorem lineAt_beyond (rest : Text) (hbreak : '\n' ∉ line) :
    lineAt (line ++ '\n' :: rest) (line.length + 1 + i) = lineAt rest i + 1 := by
  show ((line ++ '\n' :: rest).take (line.length + 1 + i)).count '\n'
    = (rest.take i).count '\n' + 1
  rw [Nat.add_assoc, Nat.add_comm 1, List.take_length_add_append, List.take_succ_cons,
    List.count_append, List.count_eq_zero.2 hbreak, Nat.zero_add, List.count_cons_self]

theorem lt_length_of_begins (h : d.Begins (s.drop i)) : i < s.length := by
  by_contra hi
  rw [List.drop_eq_nil_of_le (Nat.le_of_not_lt hi)] at h
  exact not_begins_nil h

/-- **Directives by offsets.** A line of a source is excluded exactly if a directive at some offset
of the source excludes it. -/
theorem mem_ignoredLines_iff (source : Text) (m : Nat) :
    m ∈ ignoredLines source ↔ ∃ d i, Excludes source d i m := by
  induction source using Text.line_induction generalizing m with
  | last line hbreak =>
      have hline : ∀ i ≤ line.length, lineAt line i = 0 := by
        intro i hi
        have happend := lineAt_of_le [] hbreak hi
        rwa [List.append_nil] at happend
      have hlines : m ∈ ignoredLines line ↔ ∃ d, hasDirective d line = true ∧ d.excluded 0 = m := by
        by_cases hnil : line = []
        · subst hnil
          simp [ignoredLines, ignoredFrom, Text.lines, hasDirective]
        · rw [ignoredLines, Text.lines_of_not_mem hbreak hnil, mem_ignoredFrom_cons]
          apply or_iff_left
          rintro ⟨k, hk, -⟩
          exact List.not_mem_nil hk
      rw [hlines]
      constructor
      · rintro ⟨d, h, rfl⟩
        obtain ⟨i, hi⟩ := (hasDirective_iff hbreak).1 h
        exact ⟨d, i, hi, by rw [hline i (Nat.le_of_lt (lt_length_of_begins hi))]⟩
      · rintro ⟨d, i, h, rfl⟩
        refine ⟨d, (hasDirective_iff hbreak).2 ⟨i, h⟩, ?_⟩
        rw [hline i (Nat.le_of_lt (lt_length_of_begins h))]
  | more line rest hbreak ih =>
      rw [ignoredLines, Text.lines_break rest hbreak, mem_ignoredFrom_cons]
      constructor
      · rintro (⟨d, h, rfl⟩ | ⟨k, hk, rfl⟩)
        · obtain ⟨i, hi⟩ := (hasDirective_withoutReturn_iff hbreak).1 h
          have hle := Nat.le_of_lt (lt_length_of_begins hi)
          refine ⟨d, i, ?_, by rw [lineAt_of_le _ hbreak hle]⟩
          rw [DirectiveAt, List.drop_append_of_le_length hle]
          exact (begins_append_break_iff _ rest).2 hi
        · obtain ⟨d, i, hi, rfl⟩ := (ih k).1 hk
          refine ⟨d, line.length + 1 + i, ?_, ?_⟩
          · rwa [DirectiveAt, Nat.add_assoc, Nat.add_comm 1, List.drop_length_add_append]
          · rw [lineAt_beyond rest hbreak]
            cases d <;> rfl
      · rintro ⟨d, i, hi, rfl⟩
        by_cases hle : i ≤ line.length
        · left
          rw [DirectiveAt, List.drop_append_of_le_length hle, begins_append_break_iff] at hi
          refine ⟨d, (hasDirective_withoutReturn_iff hbreak).2 ⟨i, hi⟩, ?_⟩
          rw [lineAt_of_le _ hbreak hle]
        · right
          obtain ⟨j, rfl⟩ := Nat.exists_eq_add_of_le (Nat.lt_of_not_le hle)
          rw [DirectiveAt, Nat.succ_eq_add_one, Nat.add_assoc, Nat.add_comm 1,
            List.drop_length_add_append] at hi
          refine ⟨d.excluded (lineAt rest j), (ih _).2 ⟨d, j, hi, rfl⟩, ?_⟩
          rw [Nat.succ_eq_add_one, lineAt_beyond rest hbreak]
          cases d <;> rfl

end Source

end TypeCoverage
