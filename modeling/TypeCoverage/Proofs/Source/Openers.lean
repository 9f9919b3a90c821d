import TypeCoverage.Analysis.Lexical
import TypeCoverage.Proofs.Source.Directives
import TypeCoverage.Proofs.Source.Mask
import TypeCoverage.Proofs.Source.Returns

/-!
# What the openers of directives belong to

The search for directives does not look at what an opener belongs to. It may be in a comment, as it
should, but also in a literal, or one half in a comment: the slash that closes a block comment may
pass for the first half of an opener. A line is excluded by a directive in a comment, or by one of
these two.
-/

set_option autoImplicit false

namespace TypeCoverage.Source

variable {source s : Text} {mode : Mode} {d : Directive} {i n : Nat} {c : Char}

/-! ## The pass at an offset -/

/-- The mode in which the pass over a text comes to an offset. -/
def modeAt (mode : Mode) : Text → Nat → Mode
  | _, 0 => mode
  | [], _ + 1 => mode
  | c :: cs, i + 1 => modeAt (step mode c cs.head?).2 cs i

theorem modeAt_quoted (h : mode.Quoted) (s : Text) (i : Nat) : (modeAt mode s i).Quoted := by
  induction i generalizing mode s with
  | zero => cases s <;> exact h
  | succ i ih =>
      cases s with
      | nil => exact h
      | cons c cs => exact ih (step_quoted h c cs.head?) cs

theorem drop_regionsFrom (mode : Mode) (s : Text) (i : Nat) :
    (regionsFrom mode s).drop i = regionsFrom (modeAt mode s i) (s.drop i) := by
  induction i generalizing mode s with
  | zero => cases s <;> rfl
  | succ i ih =>
      cases s with
      | nil => rfl
      | cons c cs => exact ih _ cs

theorem drop_marked (source : Text) (i : Nat) :
    (marked source).drop i = markedFrom (modeAt .code source i) (source.drop i) := by
  rw [marked, markedFrom, List.zip, List.drop_zipWith, drop_regionsFrom]
  rfl

theorem map_fst_markedFrom (mode : Mode) (s : Text) : (markedFrom mode s).map Prod.fst = s :=
  List.map_fst_zip (by simp)

/-- Whether the pass is inside of a literal. -/
def Mode.InLiteral : Mode → Prop
  | .literal _ => True
  | .escaped _ => True
  | _ => False

/-- Outside of a literal no character belongs to one, and only a quote leads into one. -/
theorem step_outside (h : ¬ mode.InLiteral) (next? : Option Char) :
    (step mode c next?).1 ≠ .literal
      ∧ (isQuote c = false → ¬ (step mode c next?).2.InLiteral) := by
  have hcode : Region.code ≠ .literal := by decide
  have hcomment : Region.comment ≠ .literal := by decide
  cases mode with
  | code =>
      simp only [step]
      split_ifs with hline hblock hquote
      · exact ⟨hcomment, fun _ => id⟩
      · exact ⟨hcomment, fun _ => id⟩
      · exact ⟨hcode, fun hnot => absurd hquote (by simp [hnot])⟩
      · exact ⟨hcode, fun _ => id⟩
  | lineComment =>
      simp only [step]
      split_ifs
      · exact ⟨hcode, fun _ => id⟩
      · exact ⟨hcomment, fun _ => id⟩
  | blockOpen => exact ⟨hcomment, fun _ => id⟩
  | blockComment =>
      simp only [step]
      split_ifs <;> exact ⟨hcomment, fun _ => id⟩
  | blockClose => exact ⟨hcomment, fun _ => id⟩
  | literal quote => exact absurd trivial h
  | escaped quote => exact absurd trivial h

/-! ## Openers -/

/-- Whether the opener at an offset lies in a comment, which it may open. -/
def InComment (source : Text) (i : Nat) : Prop :=
  (regions source)[i]? = some .comment ∧ (regions source)[i + 1]? = some .comment

/-- Whether the opener at an offset lies in a literal. -/
def InLiteral (source : Text) (i : Nat) : Prop :=
  (regions source)[i]? = some .literal ∧ (regions source)[i + 1]? = some .literal

/-- Whether the first half of the opener at an offset is the end of a comment, and the second half
is code. -/
def AtCommentEnd (source : Text) (i : Nat) : Prop :=
  (regions source)[i]? = some .comment ∧ (regions source)[i + 1]? = some .code

/-- What the two characters of an opener belong to, if neither a slash nor a star follows. -/
theorem step_opener (h : mode.Quoted) (hc : c = '/' ∨ c = '*') {next? : Option Char}
    (hslash : next? ≠ some '/') (hstar : next? ≠ some '*') :
    ((step mode '/' (some c)).1 = .comment
        ∧ (step (step mode '/' (some c)).2 c next?).1 = .comment)
      ∨ ((step mode '/' (some c)).1 = .literal
        ∧ (step (step mode '/' (some c)).2 c next?).1 = .literal)
      ∨ ((step mode '/' (some c)).1 = .comment
        ∧ (step (step mode '/' (some c)).2 c next?).1 = .code) := by
  have hbreak : c ≠ '\n' := by rcases hc with rfl | rfl <;> decide
  have hinside : (step .blockComment c next?).1 = .comment := by
    simp only [step]
    split_ifs <;> rfl
  have hliteral : ∀ quote, isQuote quote = true →
      step (.literal quote) '/' (some c) = (.literal, .literal quote)
        ∧ (step (.literal quote) c next?).1 = .literal := by
    intro quote hquote
    have hne : quote ≠ '/' ∧ quote ≠ '*' := by
      constructor <;> rintro rfl <;> exact absurd hquote (by decide)
    constructor
    · simp [step, hne.1.symm]
    · rcases hc with rfl | rfl <;> simp [step, hne.1.symm, hne.2.symm]
  cases mode with
  | code =>
      left
      rcases hc with rfl | rfl
      · exact ⟨rfl, rfl⟩
      · exact ⟨rfl, rfl⟩
  | lineComment => exact Or.inl ⟨rfl, congrArg Prod.fst (if_neg hbreak)⟩
  | blockOpen => exact Or.inl ⟨rfl, hinside⟩
  | blockComment => exact Or.inl ⟨rfl, hinside⟩
  | blockClose =>
      refine Or.inr (Or.inr ⟨rfl, ?_⟩)
      show (step .code c next?).1 = .code
      rcases hc with rfl | rfl <;> simp [step, hslash, hstar, isQuote]
  | literal quote =>
      obtain ⟨hfirst, hsecond⟩ := hliteral quote h
      rw [hfirst]
      exact Or.inr (Or.inl ⟨rfl, hsecond⟩)
  | escaped quote => exact Or.inr (Or.inl ⟨rfl, (hliteral quote h).2⟩)

theorem Directive.Begins.exists_opener (h : d.Begins s) : ∃ c rest, s = '/' :: c :: rest
    ∧ (c = '/' ∨ c = '*') ∧ rest.head? ≠ some '/' ∧ rest.head? ≠ some '*' := by
  obtain ⟨opener, blanks, rest, rfl, hopener, hblanks, -⟩ := h
  have hhead : ∀ c, isBlank c = false → c ≠ 't' →
      (blanks ++ (directiveWord ++ d.ending ++ rest)).head? ≠ some c := by
    intro c hblank hne hc
    cases blanks with
    | nil => exact hne (Option.some.inj hc).symm
    | cons b bs =>
        obtain rfl : b = c := Option.some.inj hc
        rw [(hblanks b (by simp)).1] at hblank
        cases hblank
  rcases hopener with rfl | rfl
  · exact ⟨'/', _, rfl, Or.inl rfl, hhead '/' (by decide) (by decide),
      hhead '*' (by decide) (by decide)⟩
  · exact ⟨'*', _, rfl, Or.inr rfl, hhead '/' (by decide) (by decide),
      hhead '*' (by decide) (by decide)⟩

/-- The opener of a directive is in a comment or in a literal, or it begins with the end of a
comment. -/
theorem DirectiveAt.cases (h : DirectiveAt source d i) :
    InComment source i ∨ InLiteral source i ∨ AtCommentEnd source i := by
  obtain ⟨c, rest, hrest, hc, hslash, hstar⟩ := h.exists_opener
  have hcode : Mode.code.Quoted := trivial
  have hquoted := modeAt_quoted hcode source i
  have hregions := drop_regionsFrom .code source i
  rw [hrest] at hregions
  generalize modeAt .code source i = mode at hquoted hregions
  have hfirst : (regions source)[i]? = some (step mode '/' (some c)).1 := by
    rw [← List.head?_drop, regions, hregions]
    rfl
  have hsecond : (regions source)[i + 1]?
      = some (step (step mode '/' (some c)).2 c rest.head?).1 := by
    rw [← List.getElem?_drop, regions, hregions]
    rfl
  unfold InComment InLiteral AtCommentEnd
  rw [hfirst, hsecond]
  simp only [Option.some.injEq]
  exact step_opener hquoted hc hslash hstar

/-! ## Literals left blank -/

/-- A character where the contents of literals are left blank. -/
def Marked.emptied (x : Marked) : Char := if x.2 = .literal ∧ x.1 ≠ '\n' then ' ' else x.1

/-- The source with a space for each character in a literal, where line breaks stay. -/
def withoutLiterals (source : Text) : Text := (marked source).map Marked.emptied

theorem Marked.emptied_of_ne_literal {x : Marked} (h : x.2 ≠ .literal) : x.emptied = x.1 := by
  rw [emptied, if_neg fun hx => h hx.1]

theorem Marked.emptied_eq (x : Marked) : x.emptied = ' ' ∨ x.emptied = x.1 := by
  unfold emptied
  split
  · exact Or.inl rfl
  · exact Or.inr rfl

theorem Marked.emptied_eq_newline_iff (x : Marked) : x.emptied = '\n' ↔ x.1 = '\n' := by
  unfold emptied
  split
  · next h => simp [h.2]
  · rfl

theorem lineAt_withoutLiterals (source : Text) (i : Nat) :
    lineAt (withoutLiterals source) i = lineAt source i := by
  show ((withoutLiterals source).take i).count '\n' = (source.take i).count '\n'
  conv => rhs; rw [← map_fst_marked source]
  rw [withoutLiterals, ← List.map_take, ← List.map_take, List.count_eq_countP, List.count_eq_countP,
    List.countP_map, List.countP_map]
  refine List.countP_congr fun x _ => ?_
  simpa using x.emptied_eq_newline_iff

/-- Without quotes the pass does not come into a literal. -/
theorem outside_of_isQuote {front back : List Marked} (hmode : ¬ mode.InLiteral)
    (h : markedFrom mode s = front ++ back) (hquote : ∀ x ∈ front, isQuote x.emptied = false) :
    (∀ x ∈ front, x.2 ≠ .literal) ∧ ∀ x ∈ back.head?, x.2 ≠ .literal := by
  induction front generalizing mode s with
  | nil =>
      refine ⟨by simp, fun x hx => ?_⟩
      rw [List.nil_append] at h
      subst h
      cases s with
      | nil => cases hx
      | cons c cs =>
          obtain rfl := Option.some.inj hx
          exact (step_outside hmode cs.head?).1
  | cons x front ih =>
      cases s with
      | nil => cases h
      | cons c cs =>
          obtain ⟨rfl, hrest⟩ := List.cons.inj h
          obtain ⟨hregion, hnext⟩ := step_outside (c := c) hmode cs.head?
          have hc : isQuote c = false := by
            have hx := hquote _ List.mem_cons_self
            rwa [Marked.emptied_of_ne_literal hregion] at hx
          obtain ⟨hfront, hback⟩ := ih (hnext hc) hrest fun y hy => hquote y (by simp [hy])
          exact ⟨List.forall_mem_cons.2 ⟨hregion, hfront⟩, hback⟩

theorem isQuote_of_isBlank (h : isBlank c = true) : isQuote c = false := by
  by_contra hquote
  rw [Bool.not_eq_false] at hquote
  simp only [isQuote, Bool.or_eq_true, beq_iff_eq] at hquote
  rcases hquote with (rfl | rfl) | rfl <;> exact absurd h (by decide)

theorem isQuote_of_mem_directive (h : c ∈ directiveWord ++ d.ending) : isQuote c = false := by
  have hall : (directiveWord ++ d.ending).all (fun c => !isQuote c) = true := by cases d <;> decide
  rw [← Bool.not_eq_true']
  exact List.all_eq_true.1 hall c h

/-- Outside of literals it makes no difference to a directive whether literals are left blank. -/
theorem begins_map {f g : Marked → Char} (hmode : ¬ mode.InLiteral)
    (hf : ∀ x, isQuote (f x) = false → isQuote x.emptied = false)
    (hfg : ∀ x : Marked, x.2 ≠ .literal → f x = g x) (h : d.Begins ((markedFrom mode s).map f)) :
    d.Begins ((markedFrom mode s).map g) := by
  obtain ⟨opener, blanks, rest, hs, hopener, hblanks, hend⟩ := h
  have hcut : (markedFrom mode s).map f
      = (opener ++ (blanks ++ (directiveWord ++ d.ending))) ++ rest := by
    rw [hs, List.append_assoc opener, List.append_assoc blanks]
  obtain ⟨front, back, hmarked, hfront, hback⟩ := List.map_eq_append_iff.1 hcut
  have hquote : ∀ c ∈ opener ++ (blanks ++ (directiveWord ++ d.ending)), isQuote c = false := by
    intro c hc
    rcases List.mem_append.1 hc with hc | hc
    · rcases hopener with rfl | rfl
      · simp_all [isQuote]
      · rcases List.mem_pair.1 hc with rfl | rfl <;> decide
    · rcases List.mem_append.1 hc with hc | hc
      · exact isQuote_of_isBlank (hblanks c hc).1
      · exact isQuote_of_mem_directive hc
  obtain ⟨houtside, hnext⟩ := outside_of_isQuote hmode hmarked fun x hx =>
    hf x (hquote (f x) (hfront ▸ List.mem_map_of_mem hx))
  refine ⟨opener, blanks, back.map g, ?_, hopener, hblanks, ?_⟩
  · rw [hmarked, List.map_append, ← List.map_congr_left fun x hx => hfg x (houtside x hx), hfront,
      List.append_assoc opener, List.append_assoc blanks]
  · subst hback
    cases back with
    | nil => rfl
    | cons x xs =>
        have hx : f x = g x := hfg x (hnext x rfl)
        show (!isWord (g x)) = true
        rw [← hx]
        exact hend

/-- A slash that belongs to no literal is met outside of literals. -/
theorem not_inLiteral_of_slash (h : mode.Quoted) {next? : Option Char}
    (hregion : (step mode '/' next?).1 ≠ .literal) : ¬ mode.InLiteral := by
  cases mode with
  | literal quote =>
      have hquote : isQuote quote = true := h
      have hne : '/' ≠ quote := by
        rintro rfl
        exact absurd hquote (by decide)
      exact absurd (by simp [step, hne]) hregion
  | escaped quote => exact absurd rfl hregion
  | _ => exact id

theorem regions_of_drop (h : source.drop i = c :: s) :
    (regions source)[i]? = some (step (modeAt .code source i) c s.head?).1 := by
  rw [← List.head?_drop, regions, drop_regionsFrom, h]
  rfl

theorem drop_withoutLiterals (source : Text) (i : Nat) : (withoutLiterals source).drop i
    = (markedFrom (modeAt .code source i) (source.drop i)).map Marked.emptied := by
  rw [withoutLiterals, ← List.map_drop, drop_marked]

/-- A slash that is left is one of the source, and in no literal. -/
theorem exists_slash_of_emptied {rest : Text}
    (h : (markedFrom mode s).map Marked.emptied = '/' :: rest) :
    ∃ after, s = '/' :: after ∧ (step mode '/' after.head?).1 ≠ .literal := by
  cases s with
  | nil => cases h
  | cons slash after =>
      have hslash := (List.cons.inj h).1
      have hregion : (step mode slash after.head?).1 ≠ .literal := by
        intro hliteral
        rw [hliteral, Marked.emptied] at hslash
        split at hslash
        · cases hslash
        · next hnot =>
            rw [hslash] at hnot
            exact hnot ⟨rfl, by decide⟩
      rw [Marked.emptied_of_ne_literal hregion] at hslash
      subst hslash
      exact ⟨after, rfl, hregion⟩

/-- Where literals are left blank, the directives are those that lie in no literal. -/
theorem directiveAt_withoutLiterals_iff : DirectiveAt (withoutLiterals source) d i
    ↔ DirectiveAt source d i ∧ ¬ InLiteral source i := by
  have hcode : Mode.code.Quoted := trivial
  have hquoted := modeAt_quoted hcode source i
  have hsource : source.drop i
      = (markedFrom (modeAt .code source i) (source.drop i)).map Prod.fst :=
    (map_fst_markedFrom _ _).symm
  unfold DirectiveAt
  rw [drop_withoutLiterals]
  constructor
  · intro h
    -- the slash of the opener shows that the pass is outside of literals
    obtain ⟨c, rest, hrest, -⟩ := h.exists_opener
    obtain ⟨after, hdrop, hregion⟩ := exists_slash_of_emptied hrest
    constructor
    · rw [hsource]
      exact begins_map (not_inLiteral_of_slash hquoted hregion) (fun x hx => hx)
        (fun x hx => Marked.emptied_of_ne_literal hx) h
    · rintro ⟨hliteral, -⟩
      rw [regions_of_drop hdrop] at hliteral
      exact hregion (Option.some.inj hliteral)
  · rintro ⟨h, hnot⟩
    obtain ⟨c, rest, hrest, -⟩ := h.exists_opener
    have hcomment : (regions source)[i]? = some .comment := by
      rcases DirectiveAt.cases h with hcomment | hliteral | hend
      · exact hcomment.1
      · exact absurd hliteral hnot
      · exact hend.1
    have hregion : (step (modeAt .code source i) '/' (c :: rest).head?).1 ≠ .literal := by
      rw [Option.some.inj ((regions_of_drop hrest).symm.trans hcomment)]
      decide
    refine begins_map (f := Prod.fst) (not_inLiteral_of_slash hquoted hregion) (fun x hx => ?_)
      (fun x hx => (Marked.emptied_of_ne_literal hx).symm) (hsource ▸ h)
    rcases x.emptied_eq with hblank | hsame
    · rw [hblank]
      decide
    · rwa [hsame]

/-! ## Directives in comments -/

theorem excludes_withoutLiterals_iff :
    Excludes (withoutLiterals source) d i n ↔ Excludes source d i n ∧ ¬ InLiteral source i := by
  unfold Excludes
  rw [directiveAt_withoutLiterals_iff, lineAt_withoutLiterals]
  exact and_right_comm

/-- Sites are counted alike with two lists of excluded lines exactly if these have the same
lines. -/
theorem ofSites_congr_iff {ignored ignored' : List Nat} :
    (∀ sites, Tally.ofSites ignored' sites = Tally.ofSites ignored sites)
      ↔ ∀ n, n ∈ ignored' ↔ n ∈ ignored := by
  constructor
  · intro h n
    -- one finding on the line tells whether it is excluded
    have hfindings := congrArg Tally.findings (h [.unsound ⟨n, 0, .any, none⟩])
    have hmem : ∀ lines : List Nat, ⟨n, 0, .any, none⟩
        ∈ (Tally.ofSites lines [.unsound ⟨n, 0, .any, none⟩]).findings ↔ n ∉ lines := by
      intro lines
      rw [Tally.mem_findings_iff]
      simp
    rw [← not_iff_not, ← hmem, ← hmem, hfindings]
  · intro h sites
    have hkept : Tally.kept? ignored' = Tally.kept? ignored := by
      funext s
      cases s with
      | sound => rfl
      | unsound f =>
          have hcontains : ignored'.contains f.line = ignored.contains f.line := by
            rw [Bool.eq_iff_iff, List.contains_iff_mem, List.contains_iff_mem, h]
          simp only [Tally.kept?, hcontains]
    rw [Tally.ofSites, Tally.ofSites, hkept]

/-- **Which lines directives in comments exclude.** A line is excluded exactly if a directive
excludes it, and the opener of a directive is in a comment or in a literal, or begins with the slash
that closes a block comment. So all excluded lines come from directives in comments exactly if what
the others exclude is excluded by a directive in a comment as well; and sites are counted as they
are where literals are left blank exactly if what directives in literals exclude is excluded by
another one as well. -/
theorem excluded_by_comments_iff (source : Text) :
    (∀ n, n ∈ ignoredLines source ↔ ∃ d i, Excludes source d i n)
      ∧ (∀ d i, DirectiveAt source d i →
        InComment source i ∨ InLiteral source i ∨ AtCommentEnd source i)
      ∧ ((∀ n ∈ ignoredLines source, ∃ d i, Excludes source d i n ∧ InComment source i)
        ↔ ∀ d i n, Excludes source d i n → InLiteral source i ∨ AtCommentEnd source i →
          ∃ d' i', Excludes source d' i' n ∧ InComment source i')
      ∧ ((∀ sites, Tally.ofSites (ignoredLines (withoutLiterals source)) sites
          = Tally.ofSites (ignoredLines source) sites)
        ↔ ∀ d i n, Excludes source d i n → InLiteral source i →
          ∃ d' i', Excludes source d' i' n ∧ ¬ InLiteral source i') := by
  refine ⟨mem_ignoredLines_iff source, fun d i h => h.cases, ?_, ?_⟩
  · constructor
    · intro h d i n hexcludes _
      exact h n ((mem_ignoredLines_iff source n).2 ⟨d, i, hexcludes⟩)
    · intro h n hn
      obtain ⟨d, i, hexcludes⟩ := (mem_ignoredLines_iff source n).1 hn
      rcases hexcludes.1.cases with hcomment | helsewhere
      · exact ⟨d, i, hexcludes, hcomment⟩
      · exact h d i n hexcludes helsewhere
  · rw [ofSites_congr_iff]
    simp only [mem_ignoredLines_iff, excludes_withoutLiterals_iff]
    constructor
    · intro h d i n hexcludes _
      exact (h n).2 ⟨d, i, hexcludes⟩
    · intro h n
      constructor
      · rintro ⟨d, i, hexcludes, -⟩
        exact ⟨d, i, hexcludes⟩
      · rintro ⟨d, i, hexcludes⟩
        by_cases hliteral : InLiteral source i
        · exact h d i n hexcludes hliteral
        · exact ⟨d, i, hexcludes, hliteral⟩

/-- A source with a directive in a literal. -/
def quotedDirective : Text := "let u = '// type-coverage:ignore-line'; let x: any".toList

/-- A directive in a literal excludes its line, with the finding on it, and there is no comment. -/
theorem literal_excludes_line :
    (Excludes quotedDirective .sameLine 9 0 ∧ InLiteral quotedDirective 9)
      ∧ (ignoredLines quotedDirective = [0] ∧ ∀ i, ¬ InComment quotedDirective i)
      ∧ Analysis.lexical.tally [] (SourceUnit.parse quotedDirective) false = ⟨1, 1, []⟩
      ∧ Analysis.lexical.tally [] ⟨(SourceUnit.parse quotedDirective).statements,
        ignoredLines (withoutLiterals quotedDirective)⟩ false
          = ⟨0, 1, [⟨0, 47, .any, some ['a', 'n', 'y']⟩]⟩ := by
  have hcode : Region.comment ∉ regions quotedDirective := by decide +kernel
  have hbreak : '\n' ∉ quotedDirective.drop 9 := by decide +kernel
  have hline : Directive.sameLine.excluded (lineAt quotedDirective 9) = 0 := by decide +kernel
  have hliteral : ((regions quotedDirective)[9]?, (regions quotedDirective)[10]?)
      = (some .literal, some .literal) := by decide +kernel
  refine ⟨⟨⟨(hasDirectiveAt_iff hbreak).1 ?_, hline⟩, Prod.mk.inj hliteral⟩, ⟨?_, fun i h => ?_⟩,
    ?_, ?_⟩
  · decide +kernel
  · decide +kernel
  · exact hcode (List.mem_of_getElem? h.1)
  · decide +kernel
  · decide +kernel

end TypeCoverage.Source
