import Mathlib.Data.List.Forall2
import TypeCoverage.Imports.Resolver
import TypeCoverage.Proofs.Source.Import
import TypeCoverage.Proofs.Source.Mask
import TypeCoverage.Proofs.Source.Split
import TypeCoverage.Source.Unit

/-!
# Comments in imports

Without its comments a source has the same statements at the same places, with the same code. The
kind of an import is read from its text with comments, though. It is the same without them unless a
comment holds a quote before the end of the specifier or stands where the form of the import is
read: beside the specifier, or in an import that binds the result of `require`.
-/

set_option autoImplicit false

namespace TypeCoverage.Source

variable {source s : Text}

/-! ## Quiet comments -/

/-- Whether what stands before the first quote of a text has the form of an import. -/
def opensImport (s : Text) : Bool :=
  let head := s.takeWhile fun c => !isSpecifierQuote c
  opensRequire head || declares head

/-- Whether the comments of an import, given its text and the same text without its comments, leave
its kind alone. -/
inductive Quiet : Text → Text → Prop
  /-- Fewer than two quotes, so no import with comments or without. -/
  | unquoted {text bare : Text} (hquotes : text.countP isSpecifierQuote < 2) : Quiet text bare
  /-- No form of an import before the first quote, with comments or without. -/
  | formless {text bare : Text} (htext : opensImport text = false)
      (hbare : opensImport bare = false) : Quiet text bare
  /-- No comment before the end of the specifier, nor directly after it. -/
  | behind {head specifier rest rest' : Text} {q q' : Char} (hhead : NoQuote head)
      (hspecifier : NoQuote specifier) (hq : isSpecifierQuote q = true)
      (hq' : isSpecifierQuote q' = true) (hgap : rest'.takeWhile isBlank = rest.takeWhile isBlank) :
      Quiet (head ++ q :: (specifier ++ q' :: rest)) (head ++ q :: (specifier ++ q' :: rest'))
  /-- An import declaration with no quote in the comments of its clause, and no comment directly
  before the specifier. -/
  | clause {head head' specifier rest rest' : Text} {q q' : Char}
      (hlength : head'.length = head.length) (hhead : NoQuote head) (hspecifier : NoQuote specifier)
      (hq : isSpecifierQuote q = true) (hq' : isSpecifierQuote q' = true)
      (hdeclares : declares head' = true)
      (hgap : head'.reverse.takeWhile isBlank = head.reverse.takeWhile isBlank) :
      Quiet (head ++ q :: (specifier ++ q' :: rest)) (head' ++ q :: (specifier ++ q' :: rest'))

/-! ## Marked stretches -/

theorem Marked.bare_eq_fst {x : Marked} (h : isBlank x.bare = false) : x.bare = x.1 :=
  Marked.bare_of_ne_comment (Marked.ne_comment_of_bare h)

theorem Marked.fst_eq_of_bare {x : Marked} {c : Char} (h : x.bare = c) (hc : isBlank c = false) :
    x.1 = c := by
  rw [← h] at hc ⊢
  exact (Marked.bare_eq_fst hc).symm

theorem map_fst_of_map_bare {xs : List Marked} {w : Text} (hw : ∀ c ∈ w, isBlank c = false)
    (h : xs.map Marked.bare = w) : xs.map Prod.fst = w := by
  rw [← h]
  refine List.map_congr_left fun x hx => (Marked.bare_eq_fst ?_).symm
  exact hw (Marked.bare x) (by rw [← h]; exact List.mem_map_of_mem hx)

/-- Where no comment widens the run of blanks at the head, what follows the run is the same. -/
theorem exists_after_gap {xs : List Marked} (h : (xs.map Marked.bare).takeWhile isBlank
      = (xs.map Prod.fst).takeWhile isBlank) :
    ∃ gap ys, xs = gap ++ ys ∧ (xs.map Marked.bare).dropWhile isBlank = ys.map Marked.bare
      ∧ (xs.map Prod.fst).dropWhile isBlank = ys.map Prod.fst := by
  induction xs with
  | nil => exact ⟨[], [], rfl, rfl, rfl⟩
  | cons x xs ih =>
      rw [List.map_cons, List.map_cons] at h ⊢
      by_cases hbare : isBlank x.bare = true
      · by_cases hfst : isBlank x.1 = true
        · rw [List.takeWhile_cons_of_pos hbare, List.takeWhile_cons_of_pos hfst] at h
          obtain ⟨gap, ys, rfl, hys, hys'⟩ := ih (List.cons.inj h).2
          refine ⟨x :: gap, ys, rfl, ?_, ?_⟩
          · rw [List.dropWhile_cons_of_pos hbare, hys]
          · rw [List.dropWhile_cons_of_pos hfst, hys']
        · rw [List.takeWhile_cons_of_pos hbare, List.takeWhile_cons_of_neg hfst] at h
          cases h
      · have hfst : ¬ isBlank x.1 = true := by
          rw [← Marked.bare_eq_fst (by simpa using hbare)]
          exact hbare
        exact ⟨[], x :: xs, rfl, List.dropWhile_cons_of_neg hbare, List.dropWhile_cons_of_neg hfst⟩

theorem closesCall_of_gap {xs : List Marked} (h : (xs.map Marked.bare).takeWhile isBlank
      = (xs.map Prod.fst).takeWhile isBlank) :
    closesCall (xs.map Marked.bare) = closesCall (xs.map Prod.fst) := by
  obtain ⟨gap, ys, -, hbare, hfst⟩ := exists_after_gap h
  have hcloses : ∀ s : Text, closesCall s = ((s.dropWhile isBlank).head? == some ')') := by
    intro s
    rw [closesCall, Text.skipBlanks]
    cases s.dropWhile isBlank with
    | nil => rfl
    | cons c cs => by_cases hc : c = ')' <;> simp [char?, hc]
  rw [hcloses, hcloses, hbare, hfst]
  cases ys with
  | nil => rfl
  | cons y ys =>
      -- the first character after the blanks is not of a comment
      have hhead := List.head?_dropWhile_not isBlank (xs.map Marked.bare)
      rw [hbare] at hhead
      have hy : isBlank y.bare = false := by simpa using hhead
      rw [List.map_cons, List.map_cons, List.head?_cons, List.head?_cons, Marked.bare_eq_fst hy]

/-! ## Clauses -/

theorem exists_parenthesis_of_callsRequire (h : callsRequire s = true) :
    ∃ before blanks, s = before ++ '(' :: blanks ∧ blanks.all isBlank = true := by
  obtain ⟨blanks, hcall, hblanks⟩ := (Option.any_eq_true _ _).1 h
  obtain ⟨t, hrequire, hopen⟩ := Option.bind_eq_some_iff.1 hcall
  have hsuffix : '(' :: blanks <:+ s := by
    rw [← char?_eq_some_iff.1 hopen]
    exact (List.dropWhile_suffix isBlank).trans (requireHead?_readsNoQuote.suffix hrequire)
  obtain ⟨before, rfl⟩ := hsuffix
  exact ⟨before, blanks, rfl, hblanks⟩

theorem leadsToSpecifier_of_parenthesis {before blanks : Text} (h : blanks.all isBlank = true) :
    leadsToSpecifier (before ++ '(' :: blanks) = false := by
  have hreverse : (before ++ '(' :: blanks).reverse.dropWhile isBlank = '(' :: before.reverse := by
    rw [List.reverse_append, List.reverse_cons, List.append_assoc, List.dropWhile_append_of_pos
      fun c hc => List.all_eq_true.1 h c (List.mem_reverse.1 hc)]
    rfl
  rw [leadsToSpecifier, hreverse]
  rfl

/-- An import that binds the result of `require` is no declaration. -/
theorem opensRequire_of_declares (h : declares s = true) : opensRequire s = false := by
  by_contra hopens
  have hopens : opensRequire s = true := by simpa using hopens
  obtain ⟨s₂, himport, hcalls⟩ := (Option.any_eq_true _ _).1 hopens
  obtain ⟨s₁, h₁, h₂⟩ := Option.bind_eq_some_iff.1 himport
  have hblanks := someBlanks?_readsNoQuote.suffix h₂
  obtain ⟨t, ht, hsuffix⟩ : ∃ t, callsRequire t = true ∧ t <:+ s₁ := by
    rcases Bool.or_eq_true_iff.1 hcalls with hcalls | hcalls
    · obtain ⟨t, htype, hcalls⟩ := (Option.any_eq_true _ _).1 hcalls
      exact ⟨t, hcalls, (typeHead?_readsNoQuote.suffix htype).trans hblanks⟩
    · exact ⟨s₂, hcalls, hblanks⟩
  obtain ⟨before, blanks, rfl, hblanks⟩ := exists_parenthesis_of_callsRequire ht
  obtain ⟨more, hmore⟩ := hsuffix
  have hleads : leadsToSpecifier s₁ = true := by
    rw [declares, h₁] at h
    exact h
  rw [← hmore, ← List.append_assoc, leadsToSpecifier_of_parenthesis hblanks] at hleads
  cases hleads

/-- A comment inside a stretch of a source ends with a slash or before a line break. -/
theorem comment_ends_of_infix {xs before after : List Marked} {x y : Marked}
    (hxs : xs <:+: marked source) (h : xs = before ++ x :: y :: after) (hx : x.2 = .comment)
    (hy : y.2 ≠ .comment) : x.1 = '/' ∨ y.1 = '\n' := by
  obtain ⟨front, back, hwhole⟩ := hxs
  have hmarked : marked source = (front ++ before) ++ x :: y :: (after ++ back) := by
    rw [← hwhole, h]
    simp
  exact comment_ends hmarked hx hy

/-- Where no word ends before code without the comments, none does with them: a comment before code
on the same line ends with a slash. -/
theorem isWord_before_code {xs before after : List Marked} {x y : Marked}
    (hxs : xs <:+: marked source) (h : xs = before ++ x :: y :: after)
    (hx : isWord x.bare = false) (hy : isBlank y.bare = false) : isWord x.1 = false := by
  by_cases hcomment : x.2 = .comment
  · rcases comment_ends_of_infix hxs h hcomment (Marked.ne_comment_of_bare hy) with
      hslash | hbreak
    · rw [hslash]
      decide
    · rw [Marked.bare_eq_fst hy, hbreak] at hy
      exact absurd hy (by decide)
  · rwa [Marked.bare_of_ne_comment hcomment] at hx

/-- What leads to a specifier without comments does so with them, if no comment stands directly
before it. -/
theorem leadsToSpecifier_of_gap {xs : List Marked} (hxs : xs <:+: marked source)
    (hgap : (xs.map Marked.bare).reverse.takeWhile isBlank
      = (xs.map Prod.fst).reverse.takeWhile isBlank)
    (h : leadsToSpecifier (xs.map Marked.bare) = true) :
    leadsToSpecifier (xs.map Prod.fst) = true := by
  rw [← List.map_reverse, ← List.map_reverse] at hgap
  obtain ⟨gap, ys, hreverse, hbare, hfst⟩ := exists_after_gap hgap
  unfold leadsToSpecifier at h ⊢
  rw [← List.map_reverse, hbare] at h
  rw [← List.map_reverse, hfst]
  split at h
  · next hnil =>
      rw [List.map_eq_nil_iff.1 hnil]
      rfl
  · next c _ hword =>
      -- the word `from` is code, letter by letter
      obtain ⟨m, ys, rfl, hm, hword⟩ := List.map_eq_cons_iff.1 hword
      obtain ⟨o, ys, rfl, ho, hword⟩ := List.map_eq_cons_iff.1 hword
      obtain ⟨r, ys, rfl, hr, hword⟩ := List.map_eq_cons_iff.1 hword
      obtain ⟨f, ys, rfl, hf, hword⟩ := List.map_eq_cons_iff.1 hword
      obtain ⟨x, ys, rfl, hx, -⟩ := List.map_eq_cons_iff.1 hword
      have hplace : xs = ys.reverse ++ x :: f :: (gap ++ [m, o, r]).reverse := by
        rw [← List.reverse_reverse xs, hreverse]
        simp
      have hbefore : isWord (Marked.bare x) = false := by
        rw [hx]
        simpa using h
      have hblank : isBlank (Marked.bare f) = false := by
        rw [hf]
        decide
      have hword : isWord x.1 = false := isWord_before_code hxs hplace hbefore hblank
      rw [List.map_cons, List.map_cons, List.map_cons, List.map_cons, List.map_cons,
        Marked.fst_eq_of_bare hm (by decide), Marked.fst_eq_of_bare ho (by decide),
        Marked.fst_eq_of_bare hr (by decide), Marked.fst_eq_of_bare hf (by decide)]
      show (!isWord x.1) = true
      rw [hword]
      rfl
  · cases h

/-- A clause that is one of a declaration without comments is one with them. -/
theorem declares_of_gap {xs : List Marked} (hxs : xs <:+: marked source)
    (hgap : (xs.map Marked.bare).reverse.takeWhile isBlank
      = (xs.map Prod.fst).reverse.takeWhile isBlank)
    (h : declares (xs.map Marked.bare) = true) : declares (xs.map Prod.fst) = true := by
  obtain ⟨clause, hclause, hleads⟩ := (Option.any_eq_true _ _).1 h
  obtain ⟨word, ys, rfl, hword, rfl⟩ :=
    List.map_eq_append_iff.1 (Text.stripPrefix?_eq_some_iff.1 hclause)
  have hblank : ∀ c ∈ importWord, isBlank c = false := by simp [importWord, isBlank]
  have hword' : word.map Prod.fst = importWord := map_fst_of_map_bare hblank hword
  -- the word is no blank, so the blanks at the end are those of the clause
  have hclause : ∀ s : Text, (importWord ++ s).reverse.takeWhile isBlank
      = s.reverse.takeWhile isBlank := by
    intro s
    have hreverse : (importWord ++ s).reverse = s.reverse ++ 't' :: ['r', 'o', 'p', 'm', 'i'] := by
      rw [List.reverse_append]
      rfl
    rw [hreverse, takeWhile_append_stop (by decide)]
  rw [List.map_append, List.map_append, hword, hword', hclause, hclause] at hgap
  have hwithin := (List.suffix_append word ys).isInfix.trans hxs
  have hleads' := leadsToSpecifier_of_gap hwithin hgap hleads
  have hstrip : Text.stripPrefix? importWord ((word ++ ys).map Prod.fst)
      = some (ys.map Prod.fst) := by
    rw [Text.stripPrefix?_eq_some_iff, List.map_append, hword']
  rw [declares, hstrip]
  exact hleads'

/-! ## Kinds -/

theorem Marked.bare_eq_of_isSpecifierQuote {x : Marked} (h : isSpecifierQuote x.bare = true) :
    x.bare = x.1 := by
  refine Marked.bare_eq_fst ?_
  exact quote_cases h (by decide) (by decide)

theorem countP_bare_le (xs : List Marked) :
    (xs.map Marked.bare).countP isSpecifierQuote ≤ (xs.map Prod.fst).countP isSpecifierQuote := by
  rw [List.countP_map, List.countP_map]
  refine List.countP_mono_left fun x _ hx => ?_
  show isSpecifierQuote x.1 = true
  rw [← Marked.bare_eq_of_isSpecifierQuote hx]
  exact hx

theorem NoQuote.bare {xs : List Marked} (h : NoQuote (xs.map Prod.fst)) :
    NoQuote (xs.map Marked.bare) := by
  intro c hc
  obtain ⟨x, hx, rfl⟩ := List.mem_map.1 hc
  by_contra hquote
  have hquote : isSpecifierQuote (Marked.bare x) = true := by simpa using hquote
  rw [Marked.bare_eq_of_isSpecifierQuote hquote, h x.1 (List.mem_map_of_mem hx)] at hquote
  cases hquote

theorem drop_parts (head specifier rest : Text) (q q' : Char) :
    (head ++ q :: (specifier ++ q' :: rest)).drop (head.length + specifier.length + 2) = rest := by
  have hparts : head ++ q :: (specifier ++ q' :: rest)
      = (head ++ q :: (specifier ++ [q'])) ++ rest := by simp
  rw [hparts]
  refine List.drop_left' ?_
  simp only [List.length_append, List.length_cons, List.length_nil]
  omega

/-- A text without the form of an import is of no import. -/
theorem kind_of_opensImport {span : Span} (h : opensImport span.text = false) :
    span.kind = .other := by
  by_cases hquotes : span.text.countP isSpecifierQuote < 2
  · exact kind_unquoted hquotes
  by_cases hcode : importWord.isPrefixOf span.code = true
  · obtain ⟨head, q, specifier, q', rest, htext, hhead, hspecifier, hq, hq'⟩ :=
      exists_quoted (s := span.text) (by omega)
    rw [opensImport, htext, takeWhile_noQuote hhead hq, Bool.or_eq_false_iff] at h
    rw [kind_quoted hcode htext hhead hspecifier hq hq', kindOfParts, h.1, h.2]
    simp
  · exact kind_of_not_import hcode

/-- Quiet comments leave the kind of a statement alone. -/
theorem kind_of_quiet {stretch : List Marked × Position} (hstretch : stretch.1 <:+: marked source)
    (h : Quiet (stretch.1.map Prod.fst) (stretch.1.map Marked.bare)) :
    (Span.ofItems Marked.bare Marked.shown stretch).kind
      = (Span.ofItems Prod.fst Marked.shown stretch).kind := by
  by_cases hcode : importWord.isPrefixOf (stretch.1.map Marked.shown) = true
  swap
  · rw [kind_of_not_import hcode, kind_of_not_import hcode]
  generalize htext : stretch.1.map Prod.fst = text at h
  generalize hbare : stretch.1.map Marked.bare = bare at h
  cases h with
  | unquoted hquotes =>
      rw [← htext] at hquotes
      have hfewer := countP_bare_le stretch.1
      rw [kind_unquoted (Nat.lt_of_le_of_lt hfewer hquotes), kind_unquoted hquotes]
  | formless hform hform' =>
      rw [kind_of_opensImport (by rwa [← hbare] at hform'),
        kind_of_opensImport (by rwa [← htext] at hform)]
  | @behind head specifier rest rest' q q' hhead hspecifier hq hq' hgap =>
      -- what follows the specifier begins at the same item with comments and without
      have hrest := congrArg (List.drop (head.length + specifier.length + 2)) htext
      have hrest' := congrArg (List.drop (head.length + specifier.length + 2)) hbare
      rw [drop_parts, ← List.map_drop] at hrest hrest'
      have hcloses : closesCall rest' = closesCall rest := by
        rw [← hrest, ← hrest'] at hgap ⊢
        exact closesCall_of_gap hgap
      rw [kind_quoted hcode hbare hhead hspecifier hq hq',
        kind_quoted hcode htext hhead hspecifier hq hq', kindOfParts, kindOfParts, hcloses]
  | @clause head head' specifier rest rest' q q' hlength hhead hspecifier hq hq' hdeclares hgap =>
      -- the clause ends at the same item with comments and without
      have hclause := congrArg (List.take head.length) htext
      have hclause' := congrArg (List.take head.length) hbare
      rw [List.take_left, ← List.map_take] at hclause
      rw [← hlength, List.take_left, hlength, ← List.map_take] at hclause'
      have hhead' : NoQuote head' := by
        rw [← hclause] at hhead
        rw [← hclause']
        exact NoQuote.bare hhead
      have hdeclares' : declares head = true := by
        rw [← hclause, ← hclause'] at hgap
        rw [← hclause'] at hdeclares
        rw [← hclause]
        have hwithin := (List.take_prefix head.length stretch.1).isInfix.trans hstretch
        exact declares_of_gap hwithin hgap hdeclares
      rw [kind_quoted hcode hbare hhead' hspecifier hq hq',
        kind_quoted hcode htext hhead hspecifier hq hq', kindOfParts, kindOfParts,
        opensRequire_of_declares hdeclares, opensRequire_of_declares hdeclares', hdeclares,
        hdeclares']
      rfl

/-- What the statements of a source keep without the comments of the source. -/
def Kept (s bare : Statement) : Prop :=
  bare.code = s.code ∧ bare.start = s.start
    ∧ (Quiet s.text bare.text → bare.kind = s.kind ∧ bare.specifier? = s.specifier?)

theorem kept_statements (source : Text) :
    List.Forall₂ Kept (SourceUnit.parse source).statements
      (SourceUnit.parse (withoutComments source)).statements := by
  obtain ⟨stretches, hwithin, hsplit⟩ := exists_split Marked.shown (marked source)
  have hwith : split source = stretches.map (Span.ofItems Prod.fst Marked.shown) := by
    have hmask : mask ((marked source).map Prod.fst) = (marked source).map Marked.shown := by
      rw [map_fst_marked, map_shown_marked]
    rw [← hsplit Prod.fst hmask, map_fst_marked]
  have hwithout : split (withoutComments source)
      = stretches.map (Span.ofItems Marked.bare Marked.shown) := by
    have hmask : mask ((marked source).map Marked.bare) = (marked source).map Marked.shown := by
      rw [map_shown_marked]
      exact mask_withoutComments source
    exact hsplit Marked.bare hmask
  unfold SourceUnit.parse
  dsimp only
  rw [hwith, hwithout, List.map_map, List.map_map, List.forall₂_map_left_iff,
    List.forall₂_map_right_iff, List.forall₂_same]
  intro stretch hstretch
  refine ⟨rfl, rfl, fun hquiet => ?_⟩
  have hkind := kind_of_quiet (hwithin stretch hstretch) hquiet
  exact ⟨hkind, congrArg StatementKind.specifier? hkind⟩

theorem filterMap_specifier? {ss bares : List Statement} (hkept : List.Forall₂ Kept ss bares)
    (hquiet : List.Forall₂ (fun s bare => Quiet s.text bare.text) ss bares) :
    bares.filterMap Statement.specifier? = ss.filterMap Statement.specifier? := by
  induction hkept with
  | nil => rfl
  | cons hkept _ ih =>
      obtain ⟨hquiet, hrest⟩ := List.forall₂_cons.1 hquiet
      rw [List.filterMap_cons, List.filterMap_cons, (hkept.2.2 hquiet).2, ih hrest]

/-- **Comments and statements.** A source and the same source without its comments have the same
number of statements, at the same places and with the same code. A statement whose comments are
quiet has the same kind and the same specifier, and a file whose comments are all quiet has the same
dependencies. -/
theorem parse_withoutComments (source : Text) :
    List.Forall₂ (fun s bare => bare.code = s.code ∧ bare.start = s.start
        ∧ (Quiet s.text bare.text → bare.kind = s.kind ∧ bare.specifier? = s.specifier?))
      (SourceUnit.parse source).statements (SourceUnit.parse (withoutComments source)).statements
    ∧ (List.Forall₂ (fun s bare => Quiet s.text bare.text) (SourceUnit.parse source).statements
        (SourceUnit.parse (withoutComments source)).statements →
      ∀ (r : Resolver) (file : Text),
        r.edgesOf file (SourceUnit.parse (withoutComments source))
          = r.edgesOf file (SourceUnit.parse source)) := by
  have hkept := kept_statements source
  refine ⟨hkept, fun hquiet r file => ?_⟩
  unfold Resolver.edgesOf
  rw [filterMap_specifier? hkept hquiet]

/-- An import whose comment is read as its clause. -/
def redirectedSource : Text := "import a /* from './x' */ from './b'".toList

/-- A comment redirects an import. -/
theorem comment_redirects :
    (SourceUnit.parse redirectedSource).statements.map Statement.specifier? = [some ['.', '/', 'x']]
      ∧ (SourceUnit.parse (withoutComments redirectedSource)).statements.map Statement.specifier?
        = [some ['.', '/', 'b']] := by
  decide +kernel

end TypeCoverage.Source
