import Mathlib.Data.List.TakeWhile
import Mathlib.Tactic.Common
import TypeCoverage.Source.Import

/-!
# Imports at their first two quotes

The specifier of an import stands between the first two quotes of its text. What the import is
depends on what stands before them, and, if that calls `require`, on whether a parenthesis follows.
A text with fewer than two quotes is no import.
-/

set_option autoImplicit false

namespace TypeCoverage.Source

variable {s rest head specifier : Text} {q q' : Char}

/-! ## Recognisers before a quote -/

/-- Whether a text holds no quote that delimits a specifier. -/
def NoQuote (s : Text) : Prop := ∀ c ∈ s, isSpecifierQuote c = false

theorem NoQuote.of_suffix {t : Text} (hs : NoQuote s) (h : t <:+ s) : NoQuote t :=
  fun c hc => hs c (h.subset hc)

/-- What holds of both quotes holds of a quote. -/
@[elab_as_elim]
theorem quote_cases {motive : Char → Prop} (h : isSpecifierQuote q = true)
    (hsingle : motive '\x27') (hdouble : motive '\x22') : motive q := by
  have heq : q = '\x27' ∨ q = '\x22' := by simpa [isSpecifierQuote] using h
  rcases heq with rfl | rfl
  · exact hsingle
  · exact hdouble

/-- A character that is not of a run stops it. -/
theorem dropWhile_append_stop {p : Char → Bool} (h : p q = false) :
    (s ++ q :: rest).dropWhile p = s.dropWhile p ++ q :: rest := by
  induction s with
  | nil => exact List.dropWhile_cons_of_neg (by simp [h])
  | cons c cs ih =>
      by_cases hc : p c = true
      · rw [List.cons_append, List.dropWhile_cons_of_pos hc, List.dropWhile_cons_of_pos hc, ih]
      · rw [List.cons_append, List.dropWhile_cons_of_neg hc, List.dropWhile_cons_of_neg hc,
          List.cons_append]

theorem takeWhile_append_stop {p : Char → Bool} (h : p q = false) :
    (s ++ q :: rest).takeWhile p = s.takeWhile p := by
  induction s with
  | nil => exact List.takeWhile_cons_of_neg (by simp [h])
  | cons c cs ih =>
      by_cases hc : p c = true
      · rw [List.cons_append, List.takeWhile_cons_of_pos hc, List.takeWhile_cons_of_pos hc, ih]
      · rw [List.cons_append, List.takeWhile_cons_of_neg hc, List.takeWhile_cons_of_neg hc]

theorem skipBlanks_append_quote (h : isSpecifierQuote q = true) :
    Text.skipBlanks (s ++ q :: rest) = Text.skipBlanks s ++ q :: rest := by
  have hblank : isBlank q = false := quote_cases h (by decide) (by decide)
  exact dropWhile_append_stop hblank

/-- A recogniser that reads no quote: on a text that goes on with a quote it does what it does on
the text before, and it leaves an end of the text. -/
structure ReadsNoQuote (recognise? : Text → Option Text) : Prop where
  append_quote : ∀ {q : Char}, isSpecifierQuote q = true → ∀ s rest : Text,
    recognise? (s ++ q :: rest) = (recognise? s).map fun s => s ++ q :: rest
  suffix : ∀ {s t : Text}, recognise? s = some t → t <:+ s

namespace ReadsNoQuote

variable {first? second? : Text → Option Text}

theorem bind (hfirst : ReadsNoQuote first?) (hsecond : ReadsNoQuote second?) :
    ReadsNoQuote fun s => (first? s).bind second? where
  append_quote := by
    intro q hq s rest
    show (first? (s ++ q :: rest)).bind second? = _
    rw [hfirst.append_quote hq]
    cases first? s with
    | none => rfl
    | some t => exact hsecond.append_quote hq t rest
  suffix := by
    intro s t h
    obtain ⟨u, hu, ht⟩ := Option.bind_eq_some_iff.1 h
    exact (hsecond.suffix ht).trans (hfirst.suffix hu)

theorem afterBlanks (hfirst : ReadsNoQuote first?) :
    ReadsNoQuote fun s => first? (Text.skipBlanks s) where
  append_quote := by
    intro q hq s rest
    show first? (Text.skipBlanks (s ++ q :: rest)) = _
    rw [skipBlanks_append_quote hq, hfirst.append_quote hq]
  suffix := fun h => (hfirst.suffix h).trans (List.dropWhile_suffix isBlank)

end ReadsNoQuote

theorem name?_readsNoQuote : ReadsNoQuote name? where
  append_quote := by
    intro q hq s rest
    have hstart : isNameStart q = false := quote_cases hq (by decide) (by decide)
    have hmore : isNameChar q = false := quote_cases hq (by decide) (by decide)
    cases s with
    | nil => simp [name?, hstart]
    | cons c cs =>
        rw [List.cons_append, name?, name?, dropWhile_append_stop hmore]
        split <;> rfl
  suffix := by
    intro s t h
    cases s with
    | nil => cases h
    | cons c cs =>
        rw [name?] at h
        split at h
        · obtain rfl := Option.some.inj h
          exact (List.dropWhile_suffix isNameChar).trans (List.suffix_cons c cs)
        · cases h

theorem char?_eq_some_iff {wanted : Char} {t : Text} :
    char? wanted s = some t ↔ s = wanted :: t := by
  cases s with
  | nil => simp [char?]
  | cons c cs => simp [char?]

theorem char?_readsNoQuote {wanted : Char} (hwanted : isSpecifierQuote wanted = false) :
    ReadsNoQuote (char? wanted) where
  append_quote := by
    intro q hq s rest
    have hne : q ≠ wanted := by
      rintro rfl
      rw [hq] at hwanted
      cases hwanted
    cases s with
    | nil => simp [char?, hne]
    | cons c cs =>
        rw [List.cons_append, char?, char?]
        split <;> rfl
  suffix := by
    intro s t h
    rw [char?_eq_some_iff.1 h]
    exact List.suffix_cons wanted t

theorem stripPrefix?_readsNoQuote {start : Text} (hstart : NoQuote start) :
    ReadsNoQuote (Text.stripPrefix? start) where
  append_quote := by
    intro q hq s rest
    induction start generalizing s with
    | nil => rfl
    | cons p ps ih =>
        have hne : p ≠ q := by
          rintro rfl
          have hno := hstart p (by simp)
          rw [hq] at hno
          cases hno
        cases s with
        | nil => exact if_neg hne
        | cons c cs =>
            rw [List.cons_append, Text.stripPrefix?, Text.stripPrefix?,
              ih fun d hd => hstart d (by simp [hd])]
            split <;> rfl
  suffix := by
    intro s t h
    rw [Text.stripPrefix?_eq_some_iff.1 h]
    exact List.suffix_append start t

theorem someBlanks?_readsNoQuote : ReadsNoQuote someBlanks? where
  append_quote := by
    intro q hq s rest
    have hblank : isBlank q = false := quote_cases hq (by decide) (by decide)
    cases s with
    | nil => simp [someBlanks?, hblank]
    | cons c cs =>
        rw [List.cons_append, someBlanks?, someBlanks?, skipBlanks_append_quote hq]
        split <;> rfl
  suffix := by
    intro s t h
    cases s with
    | nil => cases h
    | cons c cs =>
        rw [someBlanks?] at h
        split at h
        · obtain rfl := Option.some.inj h
          exact (List.dropWhile_suffix isBlank).trans (List.suffix_cons c cs)
        · cases h

/-! ## Specifiers -/

theorem takeWhile_noQuote (hs : NoQuote s) (hq : isSpecifierQuote q = true) :
    (s ++ q :: rest).takeWhile (fun c => !isSpecifierQuote c) = s := by
  rw [List.takeWhile_append_of_pos fun c hc => by simp [hs c hc],
    List.takeWhile_cons_of_neg (by simp [hq]), List.append_nil]

theorem dropWhile_noQuote (hs : NoQuote s) (hq : isSpecifierQuote q = true) :
    (s ++ q :: rest).dropWhile (fun c => !isSpecifierQuote c) = q :: rest := by
  rw [List.dropWhile_append_of_pos fun c hc => by simp [hs c hc],
    List.dropWhile_cons_of_neg (by simp [hq])]

theorem specifier?_quoted (hspecifier : NoQuote specifier) (hq : isSpecifierQuote q = true)
    (hq' : isSpecifierQuote q' = true) :
    specifier? (q :: (specifier ++ q' :: rest))
      = if specifier = [] then none else some (specifier, rest) := by
  rw [specifier?, if_pos hq, takeWhile_noQuote hspecifier hq', dropWhile_noQuote hspecifier hq']
  cases specifier <;> rfl

/-- A specifier is read only where a quote is. -/
theorem specifier?_skipBlanks (hhead : NoQuote head) (hspecifier : NoQuote specifier)
    (hq : isSpecifierQuote q = true) (hq' : isSpecifierQuote q' = true) :
    specifier? (Text.skipBlanks (head ++ q :: (specifier ++ q' :: rest)))
      = if head.all isBlank = true ∧ specifier ≠ [] then some (specifier, rest) else none := by
  rw [skipBlanks_append_quote hq]
  cases hdrop : Text.skipBlanks head with
  | nil =>
      have hall : head.all isBlank = true := List.all_eq_true.2 (List.dropWhile_eq_nil_iff.1 hdrop)
      rw [List.nil_append, specifier?_quoted hspecifier hq hq', hall]
      by_cases hnil : specifier = [] <;> simp [hnil]
  | cons c cs =>
      have hall : ¬ head.all isBlank = true := by
        intro hall
        have hnil : Text.skipBlanks head = [] :=
          List.dropWhile_eq_nil_iff.2 (List.all_eq_true.1 hall)
        rw [hdrop] at hnil
        cases hnil
      have hc : isSpecifierQuote c = false := by
        refine hhead c ((List.dropWhile_suffix isBlank).subset ?_)
        show c ∈ Text.skipBlanks head
        rw [hdrop]
        simp
      rw [if_neg fun h => hall h.1, List.cons_append, specifier?, if_neg (by simp [hc])]

/-! ## What stands before the first quote -/

/-- What follows the name, the equals sign and the word `require`. -/
def requireHead? (s : Text) : Option Text :=
  ((name? s).bind fun s => char? '=' (Text.skipBlanks s)).bind fun s =>
    Text.stripPrefix? requireWord (Text.skipBlanks s)

/-- What follows the name and the opened call of `require`. -/
def callHead? (s : Text) : Option Text :=
  (requireHead? s).bind fun s => char? '(' (Text.skipBlanks s)

/-- What follows the word `import` and blanks. -/
def importHead? (s : Text) : Option Text := (Text.stripPrefix? importWord s).bind someBlanks?

/-- What follows the word `type` and blanks. -/
def typeHead? (s : Text) : Option Text := (Text.stripPrefix? typeWord s).bind someBlanks?

theorem requireHead?_readsNoQuote : ReadsNoQuote requireHead? := by
  have hequals : ReadsNoQuote (char? '=') := char?_readsNoQuote (by decide)
  have hword : NoQuote requireWord := by simp [NoQuote, requireWord, isSpecifierQuote]
  exact (name?_readsNoQuote.bind hequals.afterBlanks).bind
    (stripPrefix?_readsNoQuote hword).afterBlanks

theorem callHead?_readsNoQuote : ReadsNoQuote callHead? := by
  have hopen : ReadsNoQuote (char? '(') := char?_readsNoQuote (by decide)
  exact requireHead?_readsNoQuote.bind hopen.afterBlanks

theorem importWord_readsNoQuote : ReadsNoQuote (Text.stripPrefix? importWord) := by
  apply stripPrefix?_readsNoQuote
  simp [NoQuote, importWord, isSpecifierQuote]

theorem importHead?_readsNoQuote : ReadsNoQuote importHead? :=
  importWord_readsNoQuote.bind someBlanks?_readsNoQuote

theorem typeHead?_readsNoQuote : ReadsNoQuote typeHead? := by
  have hword : NoQuote typeWord := by simp [NoQuote, typeWord, isSpecifierQuote]
  exact (stripPrefix?_readsNoQuote hword).bind someBlanks?_readsNoQuote

/-- Whether what stands before the first quote binds a name to a call of `require`. -/
def callsRequire (s : Text) : Bool := (callHead? s).any fun s => s.all isBlank

/-- Whether a parenthesis closes the call behind the specifier. -/
def closesCall (s : Text) : Bool := (char? ')' (Text.skipBlanks s)).isSome

/-- Whether what stands before the first quote is an import that binds the result of `require`. -/
def opensRequire (s : Text) : Bool :=
  (importHead? s).any fun s => (typeHead? s).any callsRequire || callsRequire s

/-- Whether what stands before the first quote is an import declaration. -/
def declares (s : Text) : Bool := (Text.stripPrefix? importWord s).any leadsToSpecifier

/-! ## The two forms at the first two quotes -/

theorem requireBinding?_eq (s : Text) :
    requireBinding? s = (callHead? s).bind fun s => (specifier? (Text.skipBlanks s)).bind fun p =>
      (char? ')' (Text.skipBlanks p.2)).map fun _ => p.1 := by
  simp only [requireBinding?, callHead?, requireHead?, Option.bind_eq_bind, Option.bind_assoc,
    Option.map_eq_bind]
  rfl

theorem importEquals?_eq (s : Text) :
    importEquals? s = (importHead? s).bind fun s =>
      ((typeHead? s).bind requireBinding?).orElse fun _ => requireBinding? s := by
  simp only [importEquals?, importHead?, typeHead?, Option.bind_eq_bind, Option.bind_assoc]

theorem requireBinding?_quoted (hhead : NoQuote head) (hspecifier : NoQuote specifier)
    (hq : isSpecifierQuote q = true) (hq' : isSpecifierQuote q' = true) :
    requireBinding? (head ++ q :: (specifier ++ q' :: rest))
      = if callsRequire head = true ∧ specifier ≠ [] ∧ closesCall rest = true then some specifier
        else none := by
  rw [requireBinding?_eq, callHead?_readsNoQuote.append_quote hq, callsRequire]
  cases hcall : callHead? head with
  | none => simp
  | some s =>
      have hs : NoQuote s := hhead.of_suffix (callHead?_readsNoQuote.suffix hcall)
      rw [Option.map_some, Option.bind_some, specifier?_skipBlanks hs hspecifier hq hq',
        Option.any_some]
      by_cases hread : s.all isBlank = true ∧ specifier ≠ []
      · rw [if_pos hread, Option.bind_some]
        dsimp only
        by_cases hcloses : closesCall rest = true
        · obtain ⟨t, ht⟩ := Option.isSome_iff_exists.1 hcloses
          rw [ht, if_pos ⟨hread.1, hread.2, hcloses⟩]
          rfl
        · have hnone : char? ')' (Text.skipBlanks rest) = none := by
            simpa [closesCall] using hcloses
          rw [hnone, if_neg fun h => hcloses h.2.2]
          rfl
      · rw [if_neg hread, if_neg fun h => hread ⟨h.1, h.2.1⟩]
        rfl

theorem importEquals?_quoted (hhead : NoQuote head) (hspecifier : NoQuote specifier)
    (hq : isSpecifierQuote q = true) (hq' : isSpecifierQuote q' = true) :
    importEquals? (head ++ q :: (specifier ++ q' :: rest))
      = if opensRequire head = true ∧ specifier ≠ [] ∧ closesCall rest = true then some specifier
        else none := by
  rw [importEquals?_eq, importHead?_readsNoQuote.append_quote hq, opensRequire]
  cases himport : importHead? head with
  | none => simp
  | some s =>
      have hs : NoQuote s := hhead.of_suffix (importHead?_readsNoQuote.suffix himport)
      rw [Option.map_some, Option.bind_some, typeHead?_readsNoQuote.append_quote hq,
        requireBinding?_quoted hs hspecifier hq hq', Option.any_some]
      cases htype : typeHead? s with
      | none => simp
      | some t =>
          have ht : NoQuote t := hs.of_suffix (typeHead?_readsNoQuote.suffix htype)
          rw [Option.map_some, Option.bind_some, requireBinding?_quoted ht hspecifier hq hq',
            Option.any_some]
          -- the form with `type` is tried first, and both give the same specifier
          by_cases hrest : specifier ≠ [] ∧ closesCall rest = true
          · by_cases htyped : callsRequire t = true <;> simp [htyped, hrest]
          · simp [hrest]

theorem importDeclaration?_quoted (hhead : NoQuote head) (hspecifier : NoQuote specifier)
    (hq : isSpecifierQuote q = true) (hq' : isSpecifierQuote q' = true) :
    importDeclaration? (head ++ q :: (specifier ++ q' :: rest))
      = if declares head = true ∧ specifier ≠ [] then some specifier else none := by
  unfold importDeclaration?
  simp only [Option.bind_eq_bind]
  rw [importWord_readsNoQuote.append_quote hq]
  cases himport : Text.stripPrefix? importWord head with
  | none =>
      have hdeclares : declares head = false := by simp [declares, himport]
      simp [hdeclares]
  | some s₁ =>
      have hs₁ := hhead.of_suffix (importWord_readsNoQuote.suffix himport)
      have hdeclares : declares head = leadsToSpecifier s₁ := by simp [declares, himport]
      simp only [Option.map_some, Option.bind_some]
      rw [takeWhile_noQuote hs₁ hq, dropWhile_noQuote hs₁ hq, specifier?_quoted hspecifier hq hq',
        hdeclares]
      by_cases hleads : leadsToSpecifier s₁ = true
      · by_cases hnil : specifier = [] <;> simp [hleads, hnil]
      · simp [hleads]

/-! ## Texts with fewer quotes -/

theorem two_le_of_specifier? {t : Text × Text} (h : specifier? s = some t) :
    2 ≤ s.countP isSpecifierQuote := by
  cases s with
  | nil => cases h
  | cons c cs =>
      rw [specifier?] at h
      split at h
      · next hc =>
          split at h
          · next q' rest _ hdrop =>
              have hq' : isSpecifierQuote q' = true := by
                have hhead := List.head?_dropWhile_not (fun c => !isSpecifierQuote c) cs
                rw [hdrop] at hhead
                simpa using hhead
              have hmem : q' ∈ cs :=
                (List.dropWhile_suffix _).subset (by rw [hdrop]; simp)
              have hpos : 0 < cs.countP isSpecifierQuote := List.countP_pos_iff.2 ⟨q', hmem, hq'⟩
              rw [List.countP_cons_of_pos hc]
              omega
          · cases h
      · cases h

theorem two_le_of_requireBinding? {specifier : Text} (h : requireBinding? s = some specifier) :
    2 ≤ s.countP isSpecifierQuote := by
  rw [requireBinding?_eq] at h
  obtain ⟨t, hcall, h⟩ := Option.bind_eq_some_iff.1 h
  obtain ⟨p, hspecifier, -⟩ := Option.bind_eq_some_iff.1 h
  have hsuffix : Text.skipBlanks t <:+ s :=
    (List.dropWhile_suffix isBlank).trans (callHead?_readsNoQuote.suffix hcall)
  exact (two_le_of_specifier? hspecifier).trans hsuffix.sublist.countP_le

theorem two_le_of_importEquals? {specifier : Text} (h : importEquals? s = some specifier) :
    2 ≤ s.countP isSpecifierQuote := by
  rw [importEquals?_eq] at h
  obtain ⟨t, himport, h⟩ := Option.bind_eq_some_iff.1 h
  have hsuffix := importHead?_readsNoQuote.suffix himport
  refine Nat.le_trans ?_ hsuffix.sublist.countP_le
  cases htyped : (typeHead? t).bind requireBinding? with
  | some found =>
      obtain ⟨u, htype, hfound⟩ := Option.bind_eq_some_iff.1 htyped
      have hmore := typeHead?_readsNoQuote.suffix htype
      exact (two_le_of_requireBinding? hfound).trans hmore.sublist.countP_le
  | none =>
      rw [htyped] at h
      exact two_le_of_requireBinding? h

theorem two_le_of_importDeclaration? {specifier : Text}
    (h : importDeclaration? s = some specifier) : 2 ≤ s.countP isSpecifierQuote := by
  unfold importDeclaration? at h
  simp only [Option.bind_eq_bind, Option.bind_eq_some_iff] at h
  obtain ⟨t, himport, h⟩ := h
  split at h
  · obtain ⟨p, hspecifier, -⟩ := Option.bind_eq_some_iff.1 h
    have hsuffix := (List.dropWhile_suffix (l := t) fun c => !isSpecifierQuote c).trans
      (importWord_readsNoQuote.suffix himport)
    exact (two_le_of_specifier? hspecifier).trans hsuffix.sublist.countP_le
  · cases h

/-! ## What a statement is -/

/-- A text with two quotes has first two quotes. -/
theorem exists_quoted (h : 2 ≤ s.countP isSpecifierQuote) :
    ∃ head q specifier q' rest, s = head ++ q :: (specifier ++ q' :: rest) ∧ NoQuote head
      ∧ NoQuote specifier ∧ isSpecifierQuote q = true ∧ isSpecifierQuote q' = true := by
  have hfirst : ∀ s : Text, 0 < s.countP isSpecifierQuote →
      ∃ head q rest, s = head ++ q :: rest ∧ NoQuote head ∧ isSpecifierQuote q = true := by
    intro s hs
    induction s with
    | nil => cases hs
    | cons c cs ih =>
        by_cases hc : isSpecifierQuote c = true
        · exact ⟨[], c, cs, rfl, by simp [NoQuote], hc⟩
        · rw [List.countP_cons_of_neg hc] at hs
          obtain ⟨head, q, rest, rfl, hhead, hq⟩ := ih hs
          refine ⟨c :: head, q, rest, rfl, fun d hd => ?_, hq⟩
          rcases List.mem_cons.1 hd with rfl | hd
          · simpa using hc
          · exact hhead d hd
  obtain ⟨head, q, rest, rfl, hhead, hq⟩ := hfirst s (by omega)
  have hnone : head.countP isSpecifierQuote = 0 :=
    List.countP_eq_zero.2 fun c hc => by simp [hhead c hc]
  rw [List.countP_append, hnone, List.countP_cons_of_pos hq] at h
  obtain ⟨specifier, q', rest, rfl, hspecifier, hq'⟩ := hfirst rest (by omega)
  exact ⟨head, q, specifier, q', rest, rfl, hhead, hspecifier, hq, hq'⟩

/-- What an import with these parts is. -/
def kindOfParts (head specifier rest : Text) : StatementKind :=
  if specifier = [] then .other
  else if opensRequire head = true ∧ closesCall rest = true then .importEquals specifier
  else if declares head = true then .importDeclaration specifier
  else .other

theorem kind_of_not_import {span : Span} (h : ¬ importWord.isPrefixOf span.code = true) :
    span.kind = .other := by
  rw [Span.kind, if_neg h]

/-- A statement with fewer than two quotes is no import. -/
theorem kind_unquoted {span : Span} (h : span.text.countP isSpecifierQuote < 2) :
    span.kind = .other := by
  unfold Span.kind
  split
  · cases hequals : importEquals? span.text with
    | some specifier => exact absurd (two_le_of_importEquals? hequals) (by omega)
    | none =>
        cases hdeclaration : importDeclaration? span.text with
        | some specifier => exact absurd (two_le_of_importDeclaration? hdeclaration) (by omega)
        | none => rfl
  · rfl

/-- An import is known from its parts around the first two quotes. -/
theorem kind_quoted {span : Span} (hcode : importWord.isPrefixOf span.code = true)
    (htext : span.text = head ++ q :: (specifier ++ q' :: rest)) (hhead : NoQuote head)
    (hspecifier : NoQuote specifier) (hq : isSpecifierQuote q = true)
    (hq' : isSpecifierQuote q' = true) : span.kind = kindOfParts head specifier rest := by
  rw [Span.kind, if_pos hcode, htext, importEquals?_quoted hhead hspecifier hq hq',
    importDeclaration?_quoted hhead hspecifier hq hq', kindOfParts]
  by_cases hnil : specifier = []
  · simp [hnil]
  · by_cases hrequire : opensRequire head = true ∧ closesCall rest = true
    · simp [hnil, hrequire]
    · by_cases hdeclares : declares head = true
      · simp [hnil, hrequire, hdeclares]
      · simp [hnil, hrequire, hdeclares]

end TypeCoverage.Source
