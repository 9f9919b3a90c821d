import Mathlib.Data.List.DropRight
import TypeCoverage.Json.Parser
import TypeCoverage.Proofs.Json.Token
import TypeCoverage.Proofs.Result

/-!
# Indented documents are read back

`ReadsAs` says what an indented value is read as, wherever it stands in a document. Strings and
counts have it by themselves, arrays and objects from their items and members, so the shape of
a document gives what the whole of it is read as.
-/

set_option autoImplicit false

namespace TypeCoverage.Json

/-- The value that is printed at `level` is read as `r`, with nothing of what follows it, by a
reader that nests `depth` deep; it is refused if `r` is `none`. -/
structure ReadsAs (level depth : Nat) (v : Json) (r : Option Json) : Prop where
  starts : ∃ b bs, Utf8.encode (pretty level v) = b :: bs ∧ isSpace b = false ∧ b ≠ ascii ']'
  reads : ∀ rest, endsNumeral rest = true →
    (readValue depth (Utf8.encode (pretty level v) ++ rest)).toOption = r.map fun w => (w, rest)

/-! ## Blanks -/

theorem skipSpace_cons {b : UInt8} (h : isSpace b = false) (bs : Bytes) :
    skipSpace (b :: bs) = b :: bs := by
  simp [skipSpace, h]

theorem skipSpace_indent (level : Nat) (bs : Bytes) :
    skipSpace (Utf8.encode (indent level) ++ bs) = skipSpace bs := by
  have h : ∀ n, skipSpace (Utf8.encode (List.replicate n ' ') ++ bs) = skipSpace bs := by
    intro n
    induction n with
    | zero => rfl
    | succ n ih => exact ih
  exact h _

theorem skipSpace_newline (bs : Bytes) :
    skipSpace (Utf8.encodeChar '\n' ++ bs) = skipSpace bs := rfl

theorem skipSpace_idem (bs : Bytes) : skipSpace (skipSpace bs) = skipSpace bs :=
  List.dropWhile_idempotent isSpace bs

theorem readValue_skipSpace (depth : Nat) (bs : Bytes) :
    readValue depth (skipSpace bs) = readValue depth bs := by
  rw [readValue, readValue, skipSpace_idem]

theorem ReadsAs.skipSpace_eq {level depth : Nat} {v : Json} {r : Option Json}
    (h : ReadsAs level depth v r) (bs : Bytes) :
    skipSpace (Utf8.encode (pretty level v) ++ bs) = Utf8.encode (pretty level v) ++ bs := by
  obtain ⟨b, cs, hb, hspace, -⟩ := h.starts
  rw [hb, List.cons_append, skipSpace_cons hspace]

/-! ## Strings and counts -/

theorem readsAs_string (level depth : Nat) (s : Text) :
    ReadsAs level depth (.string s) (some (.string s)) := by
  have hbytes : Utf8.encode (pretty level (.string s)) = _ := encode_quote s
  refine ⟨⟨_, _, hbytes, by decide, by decide⟩, fun rest _ => ?_⟩
  rw [hbytes, List.cons_append, List.append_assoc, readValue, skipSpace_cons (by decide)]
  dsimp only
  rw [if_neg (by decide), if_neg (by decide), readScalar, if_neg (by decide), if_neg (by decide),
    if_neg (by decide), if_neg (by decide), if_neg (by decide), if_pos rfl]
  show (readString (_ ++ ascii '\x22' :: rest) >>= _).toOption = _
  rw [readString_escaped]
  rfl

theorem isDigit_ne {d : UInt8} (h : isDigit d = true) {c : UInt8} (hc : isDigit c = false) :
    d ≠ c := by
  rintro rfl
  rw [h] at hc
  exact absurd hc (by decide)

/-- A number whose text begins with a digit is read as what its text is read as. -/
theorem readsAs_number {n : Number} {r : Option Number}
    (hstarts : ∃ d ds, Utf8.encode n.text = d :: ds ∧ isDigit d = true)
    (hreads : ∀ rest, endsNumeral rest = true →
      (readNumber 1 false (Utf8.encode n.text ++ rest)).toOption = r.map fun m => (m, rest))
    (level depth : Nat) : ReadsAs level depth (.number n) (r.map .number) := by
  have hbytes : Utf8.encode (pretty level (.number n)) = Utf8.encode n.text := rfl
  obtain ⟨d, ds, hds, hd⟩ := hstarts
  have hspace : isSpace d = false := by
    cases hs : isSpace d with
    | false => rfl
    | true =>
        simp only [isSpace, Bool.or_eq_true, beq_iff_eq] at hs
        rcases hs with ((rfl | rfl) | rfl) | rfl <;> exact absurd hd (by decide)
  refine ⟨⟨d, ds, by rw [hbytes, hds], hspace, isDigit_ne hd (by decide)⟩, fun rest hrest => ?_⟩
  have hread := hreads rest hrest
  rw [hbytes]
  rw [hds, List.cons_append] at hread ⊢
  rw [readValue, skipSpace_cons hspace]
  dsimp only
  rw [if_neg (isDigit_ne hd (by decide)), if_neg (isDigit_ne hd (by decide)), readScalar,
    if_neg (isDigit_ne hd (by decide)), if_neg (isDigit_ne hd (by decide)),
    if_neg (isDigit_ne hd (by decide)), if_neg (isDigit_ne hd (by decide)), if_pos hd,
    toOption_bind, hread]
  cases r <;> rfl

theorem readsAs_nat (level depth n : Nat) :
    ReadsAs level depth (.nat n) ((rereadCount? n).map .number) := by
  obtain ⟨d, ds, hds, hd, -⟩ := digits_eq_cons n
  have hreads := fun rest (hrest : endsNumeral rest = true) => readNumber_digits 1 n hrest
  exact readsAs_number (n := .natural n) ⟨d, ds, hds, hd⟩ hreads level depth

/-! ## Lengths

The readers of lists and objects bound their steps by the bytes ahead. -/

theorem length_le_length_encode (s : Text) : s.length ≤ (Utf8.encode s).length := by
  induction s with
  | nil => exact Nat.le_refl 0
  | cons c s ih =>
      have hc := List.length_pos_of_ne_nil (Utf8.encodeChar_ne_nil c)
      rw [Utf8.encode_cons, List.length_append, List.length_cons]
      omega

/-! ## Arrays -/

section Arrays

variable {ι : Type} {level depth : Nat} {g : ι → Json} {f : ι → Option Json}

theorem length_le_prettyItems (level : Nat) (g : ι → Json) (x : ι) (xs : List ι) :
    xs.length ≤ (prettyItems level ((x :: xs).map g)).length := by
  induction xs generalizing x with
  | nil => exact Nat.zero_le _
  | cons y ys ih =>
      have h := ih y
      simp only [List.map_cons, prettyItems, List.length_append, List.length_cons] at h ⊢
      omega

/-- What stands before and after the first item of a printed list. -/
theorem encode_prettyItems_cons (x y : ι) (ys : List ι) (more : Bytes) :
    Utf8.encode (prettyItems level ((x :: y :: ys).map g)) ++ more
      = Utf8.encode (indent level) ++ (Utf8.encode (pretty level (g x)) ++ (ascii ','
        :: ascii '\n' :: (Utf8.encode (prettyItems level ((y :: ys).map g)) ++ more))) := by
  simp only [List.map_cons, prettyItems, Utf8.encode_append, List.append_assoc]
  rfl

theorem encode_prettyItems_singleton (x : ι) (more : Bytes) :
    Utf8.encode (prettyItems level ([x].map g)) ++ more
      = Utf8.encode (indent level) ++ (Utf8.encode (pretty level (g x)) ++ more) := by
  simp only [List.map_cons, List.map_nil, prettyItems, Utf8.encode_append, List.append_assoc]

/-- A printed list does not begin with a closing bracket, and has a byte for each item. -/
theorem prettyItems_starts {x : ι} (hx : ReadsAs level depth (g x) (f x)) (xs : List ι)
    (more : Bytes) : ∃ b cs, b ≠ ascii ']' ∧ xs.length ≤ cs.length ∧
      skipSpace (Utf8.encode (prettyItems level ((x :: xs).map g)) ++ more) = b :: cs := by
  obtain ⟨b, bs, hb, -, hbracket⟩ := hx.starts
  cases xs with
  | nil =>
      rw [encode_prettyItems_singleton, skipSpace_indent, hx.skipSpace_eq, hb]
      exact ⟨b, _, hbracket, Nat.zero_le _, rfl⟩
  | cons y ys =>
      rw [encode_prettyItems_cons, skipSpace_indent, hx.skipSpace_eq, hb, List.cons_append]
      refine ⟨b, _, hbracket, ?_, rfl⟩
      have h1 := length_le_prettyItems level g y ys
      have h2 := length_le_length_encode (prettyItems level ((y :: ys).map g))
      simp only [List.length_append, List.length_cons]
      omega

/-- The items of a printed list are read from the first one on, up to the closing bracket. -/
theorem readItems_pretty {close rest : Bytes} (hclose : skipSpace close = ascii ']' :: rest)
    (hends : endsNumeral close = true) (x : ι) (xs : List ι)
    (h : ∀ y ∈ x :: xs, ReadsAs level depth (g y) (f y)) (fuel : Nat) (hfuel : xs.length < fuel) :
    (readItems (readValue depth) fuel
        (skipSpace (Utf8.encode (prettyItems level ((x :: xs).map g)) ++ close))).toOption
      = ((x :: xs).mapM f).map fun vs => (vs, rest) := by
  induction xs generalizing x fuel with
  | nil =>
      have hx := h x (by simp)
      obtain ⟨fuel, rfl⟩ : ∃ k, fuel = k + 1 := ⟨fuel - 1, by simp at hfuel; omega⟩
      rw [encode_prettyItems_singleton, skipSpace_indent, hx.skipSpace_eq, readItems,
        toOption_bind, hx.reads _ hends, List.mapM_cons, List.mapM_nil]
      cases f x with
      | none => rfl
      | some v =>
          simp only [Option.map_some, Option.bind_eq_bind, Option.bind_some, hclose]
          rfl
  | cons y ys ih =>
      have hx := h x (by simp)
      obtain ⟨fuel, rfl⟩ : ∃ k, fuel = k + 1 := ⟨fuel - 1, by simp at hfuel; omega⟩
      have ih' := ih y (fun z hz => h z (by simp [hz])) fuel (by simpa using hfuel)
      -- after a comma the reader looks at the byte that the next item begins with
      obtain ⟨b, cs, hbracket, -, hcs⟩ := prettyItems_starts (h y (by simp)) ys close
      rw [hcs] at ih'
      have hcomma : skipSpace (ascii ',' :: ascii '\n' ::
            (Utf8.encode (prettyItems level ((y :: ys).map g)) ++ close))
          = ascii ',' :: ascii '\n' ::
            (Utf8.encode (prettyItems level ((y :: ys).map g)) ++ close) :=
        skipSpace_cons (by decide) _
      have hline : skipSpace (ascii '\n' ::
            (Utf8.encode (prettyItems level ((y :: ys).map g)) ++ close)) = b :: cs := hcs
      rw [encode_prettyItems_cons, skipSpace_indent, hx.skipSpace_eq, readItems, toOption_bind,
        hx.reads _ (by rfl), List.mapM_cons]
      cases f x with
      | none => rfl
      | some v =>
          simp only [Option.map_some, Option.bind_eq_bind, Option.bind_some, hcomma]
          rw [if_neg (by decide), if_pos trivial, hline]
          dsimp only
          rw [if_neg hbracket, toOption_bind, ih']
          cases (y :: ys).mapM f <;> rfl

theorem skipSpace_closing (level : Nat) (c : Char) (hc : Utf8.encodeChar c = [ascii c])
    (hspace : isSpace (ascii c) = false) (rest : Bytes) :
    skipSpace (Utf8.encode ('\n' :: (indent level ++ [c])) ++ rest) = ascii c :: rest := by
  rw [Utf8.encode_cons, Utf8.encode_append, List.append_assoc, List.append_assoc]
  rw [skipSpace_newline, skipSpace_indent]
  show skipSpace ((Utf8.encodeChar c ++ []) ++ rest) = _
  rw [hc]
  exact skipSpace_cons hspace rest

/-- An array is read as the array of what its items are read as. -/
theorem readsAs_array (xs : List ι) (h : ∀ x ∈ xs, ReadsAs (level + 1) depth (g x) (f x)) :
    ReadsAs level (depth + 1) (.array (xs.map g)) ((xs.mapM f).map .array) := by
  cases xs with
  | nil =>
      refine ⟨⟨ascii '[', [ascii ']'], rfl, by decide, by decide⟩, fun rest _ => ?_⟩
      rfl
  | cons x xs =>
      have hbytes : ∀ rest, Utf8.encode (pretty level (.array ((x :: xs).map g))) ++ rest
          = ascii '[' :: ascii '\n' :: (Utf8.encode (prettyItems (level + 1) ((x :: xs).map g))
            ++ (Utf8.encode ('\n' :: (indent level ++ [']'])) ++ rest)) := by
        intro rest
        simp only [List.map_cons, pretty, Utf8.encode_cons, Utf8.encode_append,
          List.append_assoc]
        rfl
      refine ⟨?_, fun rest _ => ?_⟩
      · have h0 := hbytes []
        rw [List.append_nil] at h0
        exact ⟨_, _, h0, by decide, by decide⟩
      -- the reader may take as many steps as there are bytes, and each item has one
      · have hclose := skipSpace_closing level ']' rfl (by decide) rest
        obtain ⟨b, cs, hbracket, hlength, hcs⟩ := prettyItems_starts (h x (by simp)) xs
          (Utf8.encode ('\n' :: (indent level ++ [']'])) ++ rest)
        have hitems := readItems_pretty hclose rfl x xs h (b :: cs).length
          (Nat.lt_succ_of_le hlength)
        have hline : skipSpace (ascii '\n' :: (Utf8.encode (prettyItems (level + 1)
            ((x :: xs).map g)) ++ (Utf8.encode ('\n' :: (indent level ++ [']'])) ++ rest)))
            = b :: cs := hcs
        rw [hcs] at hitems
        rw [hbytes, readValue, skipSpace_cons (by decide)]
        dsimp only
        rw [if_pos rfl, hline]
        dsimp only
        rw [if_neg hbracket, toOption_bind, hitems]
        cases (x :: xs).mapM f <;> rfl

end Arrays

/-! ## Objects -/

section Objects

variable {ι : Type} {level depth : Nat} {key : ι → Text} {g : ι → Json} {f : ι → Option Json}

/-- The text of a member, without what stands around it. -/
def memberText (level : Nat) (k : Text) (v : Json) : Text := quote k ++ ':' :: ' ' :: pretty level v

theorem encode_memberText (k : Text) (v : Json) (more : Bytes) :
    Utf8.encode (memberText level k v) ++ more
      = ascii '\x22' :: (Utf8.encode (k.flatMap escapeChar) ++ ascii '\x22' :: ascii ':'
        :: ascii ' ' :: (Utf8.encode (pretty level v) ++ more)) := by
  rw [memberText, Utf8.encode_append, encode_quote, Utf8.encode_cons, Utf8.encode_cons]
  simp only [List.cons_append, List.append_assoc, List.nil_append]
  rfl

theorem readMember_memberText {k : Text} {v : Json} {r : Option Json}
    (h : ReadsAs level depth v r) {more : Bytes} (hends : endsNumeral more = true) :
    (readMember (readValue depth) (Utf8.encode (memberText level k v) ++ more)).toOption
      = r.map fun w => ((k, w), more) := by
  have hcolon : skipSpace (ascii ':' :: ascii ' ' :: (Utf8.encode (pretty level v) ++ more))
      = ascii ':' :: ascii ' ' :: (Utf8.encode (pretty level v) ++ more) :=
    skipSpace_cons (by decide) _
  have hspace : readValue depth (ascii ' ' :: (Utf8.encode (pretty level v) ++ more))
      = readValue depth (Utf8.encode (pretty level v) ++ more) := by
    rw [← readValue_skipSpace, ← readValue_skipSpace depth (Utf8.encode (pretty level v) ++ more)]
    rfl
  rw [encode_memberText]
  unfold readMember
  dsimp only
  rw [if_neg (by decide), readString_escaped, ok_bind]
  dsimp only
  rw [hcolon]
  dsimp only
  rw [if_neg (by decide), hspace, toOption_bind, h.reads more hends]
  cases r <;> rfl

theorem encode_prettyMembers_singleton (x : ι) (more : Bytes) :
    Utf8.encode (prettyMembers level ([x].map fun x => (key x, g x))) ++ more
      = Utf8.encode (indent level) ++ (Utf8.encode (memberText level (key x) (g x)) ++ more) := by
  simp only [List.map_cons, List.map_nil, prettyMembers, Utf8.encode_append, List.append_assoc,
    memberText]

/-- What stands before and after the first member of a printed object. -/
theorem encode_prettyMembers_cons (x y : ι) (ys : List ι) (more : Bytes) :
    Utf8.encode (prettyMembers level ((x :: y :: ys).map fun x => (key x, g x))) ++ more
      = Utf8.encode (indent level) ++ (Utf8.encode (memberText level (key x) (g x)) ++ (ascii ','
        :: ascii '\n' :: (Utf8.encode (prettyMembers level ((y :: ys).map fun x => (key x, g x)))
          ++ more))) := by
  simp only [List.map_cons, prettyMembers, Utf8.encode_append, Utf8.encode_cons,
    List.append_assoc, memberText]
  rfl

theorem length_le_prettyMembers (level : Nat) (key : ι → Text) (g : ι → Json) (x : ι)
    (xs : List ι) :
    xs.length ≤ (prettyMembers level ((x :: xs).map fun x => (key x, g x))).length := by
  induction xs generalizing x with
  | nil => exact Nat.zero_le _
  | cons y ys ih =>
      have h := ih y
      simp only [List.map_cons, prettyMembers, List.length_append, List.length_cons] at h ⊢
      omega

/-- Printed members begin with a quote, and have a byte for each member. -/
theorem prettyMembers_starts (level : Nat) (key : ι → Text) (g : ι → Json) (x : ι) (xs : List ι)
    (more : Bytes) : ∃ cs, xs.length ≤ cs.length ∧
    skipSpace (Utf8.encode (prettyMembers level ((x :: xs).map fun x => (key x, g x))) ++ more)
      = ascii '\x22' :: cs := by
  cases xs with
  | nil =>
      rw [encode_prettyMembers_singleton, skipSpace_indent, encode_memberText,
        skipSpace_cons (by decide)]
      exact ⟨_, Nat.zero_le _, rfl⟩
  | cons y ys =>
      rw [encode_prettyMembers_cons, skipSpace_indent, encode_memberText,
        skipSpace_cons (by decide)]
      refine ⟨_, ?_, rfl⟩
      have h1 := length_le_prettyMembers level key g y ys
      have h2 := length_le_length_encode
        (prettyMembers level ((y :: ys).map fun x => (key x, g x)))
      simp only [List.length_append, List.length_cons]
      omega

/-- The members of a printed object are read from the first one on, up to the closing brace. -/
theorem readMembers_pretty (key : ι → Text) {close rest : Bytes}
    (hclose : skipSpace close = ascii '\x7d' :: rest)
    (hends : endsNumeral close = true) (x : ι) (xs : List ι)
    (h : ∀ y ∈ x :: xs, ReadsAs level depth (g y) (f y)) (fuel : Nat) (hfuel : xs.length < fuel) :
    (readMembers (readValue depth) fuel
        (skipSpace (Utf8.encode (prettyMembers level ((x :: xs).map fun x => (key x, g x)))
          ++ close))).toOption
      = ((x :: xs).mapM fun x => (f x).map fun v => (key x, v)).map fun ms => (ms, rest) := by
  induction xs generalizing x fuel with
  | nil =>
      have hx := h x (by simp)
      obtain ⟨fuel, rfl⟩ : ∃ k, fuel = k + 1 := ⟨fuel - 1, by simp at hfuel; omega⟩
      rw [encode_prettyMembers_singleton, skipSpace_indent, encode_memberText,
        skipSpace_cons (by decide), ← encode_memberText, readMembers, toOption_bind,
        readMember_memberText hx hends, List.mapM_cons, List.mapM_nil]
      cases f x with
      | none => rfl
      | some v =>
          simp only [Option.map_some, Option.bind_eq_bind, Option.bind_some, hclose]
          rfl
  | cons y ys ih =>
      have hx := h x (by simp)
      obtain ⟨fuel, rfl⟩ : ∃ k, fuel = k + 1 := ⟨fuel - 1, by simp at hfuel; omega⟩
      have ih' := ih y (fun z hz => h z (by simp [hz])) fuel (by simpa using hfuel)
      obtain ⟨cs, -, hcs⟩ := prettyMembers_starts level key g y ys close
      rw [hcs] at ih'
      have hcomma : skipSpace (ascii ',' :: ascii '\n' :: (Utf8.encode
            (prettyMembers level ((y :: ys).map fun x => (key x, g x))) ++ close))
          = ascii ',' :: ascii '\n' :: (Utf8.encode
            (prettyMembers level ((y :: ys).map fun x => (key x, g x))) ++ close) :=
        skipSpace_cons (by decide) _
      have hline : skipSpace (ascii '\n' :: (Utf8.encode
            (prettyMembers level ((y :: ys).map fun x => (key x, g x))) ++ close))
          = ascii '\x22' :: cs := hcs
      rw [encode_prettyMembers_cons, skipSpace_indent, encode_memberText,
        skipSpace_cons (by decide), ← encode_memberText, readMembers, toOption_bind,
        readMember_memberText hx (by rfl), List.mapM_cons]
      cases f x with
      | none => rfl
      | some v =>
          simp only [Option.map_some, Option.bind_eq_bind, Option.bind_some, hcomma]
          rw [if_neg (by decide), if_pos trivial, hline]
          dsimp only
          rw [if_neg (by decide), toOption_bind, ih']
          cases (y :: ys).mapM fun x => (f x).map fun v => (key x, v) <;> rfl

/-- An object is read as the object of what its members are read as. -/
theorem readsAs_object (xs : List ι) (h : ∀ x ∈ xs, ReadsAs (level + 1) depth (g x) (f x)) :
    ReadsAs level (depth + 1) (.object (xs.map fun x => (key x, g x)))
      ((xs.mapM fun x => (f x).map fun v => (key x, v)).map ofMembers) := by
  cases xs with
  | nil =>
      refine ⟨⟨ascii '\x7b', [ascii '\x7d'], rfl, by decide, by decide⟩, fun rest _ => ?_⟩
      rfl
  | cons x xs =>
      have hbytes : ∀ rest,
          Utf8.encode (pretty level (.object ((x :: xs).map fun x => (key x, g x)))) ++ rest
          = ascii '\x7b' :: ascii '\n' :: (Utf8.encode
            (prettyMembers (level + 1) ((x :: xs).map fun x => (key x, g x)))
            ++ (Utf8.encode ('\n' :: (indent level ++ ['\x7d'])) ++ rest)) := by
        intro rest
        simp only [List.map_cons, pretty, Utf8.encode_cons, Utf8.encode_append,
          List.append_assoc]
        rfl
      refine ⟨?_, fun rest _ => ?_⟩
      · have h0 := hbytes []
        rw [List.append_nil] at h0
        exact ⟨_, _, h0, by decide, by decide⟩
      · have hclose := skipSpace_closing level '\x7d' rfl (by decide) rest
        obtain ⟨cs, hlength, hcs⟩ := prettyMembers_starts (level + 1) key g x xs
          (Utf8.encode ('\n' :: (indent level ++ ['\x7d'])) ++ rest)
        have hmembers := readMembers_pretty key hclose rfl x xs h
          (ascii '\x22' :: cs).length (Nat.lt_succ_of_le hlength)
        have hline : skipSpace (ascii '\n' :: (Utf8.encode (prettyMembers (level + 1)
            ((x :: xs).map fun x => (key x, g x)))
              ++ (Utf8.encode ('\n' :: (indent level ++ ['\x7d'])) ++ rest)))
            = ascii '\x22' :: cs := hcs
        rw [hcs] at hmembers
        rw [hbytes, readValue, skipSpace_cons (by decide)]
        dsimp only
        rw [if_neg (by decide), if_pos rfl, hline]
        dsimp only
        rw [if_neg (by decide), toOption_bind, hmembers]
        cases (x :: xs).mapM fun x => (f x).map fun v => (key x, v) <;> rfl

end Objects

/-! ## Documents -/

/-- A printed document is read as what its value is read as, with or without a line break after
it. -/
theorem toOption_parse_append {v : Json} {r : Option Json} (h : ReadsAs 0 maxDepth v r)
    {ending : Text} (hending : ending = [] ∨ ending = ['\n']) :
    (parse (Utf8.encode (pretty 0 v ++ ending))).toOption = r := by
  have hends : endsNumeral (Utf8.encode ending) = true ∧ finish (Utf8.encode ending) = .ok () := by
    rcases hending with rfl | rfl <;> exact ⟨rfl, rfl⟩
  have hread := h.reads _ hends.1
  unfold parse
  rw [Utf8.encode_append]
  cases r with
  | none =>
      obtain ⟨stop, hstop⟩ := toOption_eq_none_iff.1 hread
      rw [hstop]
      rfl
  | some w =>
      rw [toOption_eq_some_iff.1 hread, ok_bind]
      dsimp only
      rw [hends.2]
      rfl

theorem toOption_parse {v : Json} {r : Option Json} (h : ReadsAs 0 maxDepth v r) :
    (parse (Utf8.encode (pretty 0 v))).toOption = r := by
  have hread := toOption_parse_append h (Or.inl rfl)
  rwa [List.append_nil] at hread

end TypeCoverage.Json
