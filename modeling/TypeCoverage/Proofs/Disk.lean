import Mathlib.Data.List.TakeWhile
import TypeCoverage.Disk
import TypeCoverage.Proofs.Path.Normal
import TypeCoverage.Proofs.Result

/-!
# Files and directories of a disk

What a path leads to after a write and after an attempt to make directories. A path to a file
goes through directories only, so where directories cannot be made there is no file below them.
-/

set_option autoImplicit false

namespace TypeCoverage.Disk

open TypeCoverage.Path (isAbsolute_append isAbsolute_join)
open Text (pieces)

variable {d d' : Disk} {l l' m : Location} {path : Text}

/-- The content of the file a path leads to, if it leads to one. -/
def content? (d : Disk) (path : Text) : Option Bytes :=
  match d.at? path with
  | some (.file content) => some content
  | _ => none

theorem read_eq_ok_iff {content : Bytes} :
    d.read path = .ok content ↔ d.content? path = some content := by
  unfold read content? at?
  rw [bind_eq_ok_iff]
  cases d.locate path with
  | error fault => simp
  | ok l =>
      cases hn : d.node? l with
      | none => simp [hn]
      | some n => cases n <;> simp [hn]

theorem isFile_eq (d : Disk) (path : Text) : d.isFile path = (d.content? path).isSome := by
  unfold isFile content?
  cases d.at? path with
  | none => rfl
  | some n => cases n <;> rfl

/-! ## Steps -/

theorem node?_of_step {part : Text} (h : d.step l part = .ok l') :
    d.node? l = some .directory := by
  unfold step at h
  cases hn : d.node? l with
  | none => simp [hn] at h
  | some n =>
      cases n with
      | directory => rfl
      | file content => simp [hn] at h

/-- A step needs nothing of a disk but the directory it starts from. -/
theorem step_congr {part : Text} (h : d.step l part = .ok l')
    (hdir : d'.node? l = some .directory) : d'.step l part = .ok l' := by
  have hnode := node?_of_step h
  unfold step at h ⊢
  rw [hnode] at h
  rw [hdir]
  exact h

theorem foldlM_step_congr {parts : List Text} (h : parts.foldlM d.step l = .ok l')
    (hdir : ∀ m, d.node? m = some .directory → d'.node? m = some .directory) :
    parts.foldlM d'.step l = .ok l' := by
  induction parts generalizing l with
  | nil => exact h
  | cons part parts ih =>
      rw [List.foldlM_cons, bind_eq_ok_iff] at h ⊢
      obtain ⟨m, hstep, hrest⟩ := h
      exact ⟨m, step_congr hstep (hdir l (node?_of_step hstep)), ih hrest⟩

/-- What stands before a step is a directory. -/
theorem node?_of_foldlM_step {parts more : List Text} {part : Text}
    (h : (parts ++ part :: more).foldlM d.step l = .ok l') :
    ∃ m, parts.foldlM d.step l = .ok m ∧ d.node? m = some .directory := by
  rw [List.foldlM_append, bind_eq_ok_iff] at h
  obtain ⟨m, hm, hmore⟩ := h
  rw [List.foldlM_cons, bind_eq_ok_iff] at hmore
  obtain ⟨m', hstep, -⟩ := hmore
  exact ⟨m, hm, node?_of_step hstep⟩

theorem eq_of_step_stay {part : Text} (hpart : part = [] ∨ part = Path.here)
    (h : d.step l part = .ok l') : l' = l := by
  unfold step at h
  rw [node?_of_step h] at h
  simp only [hpart, if_true, Except.ok.injEq] at h
  exact h.symm

/-- Whether a component leads somewhere else. -/
def isNamed (part : Text) : Bool := !(part = [] ∨ part = Path.here)

/-- Components that stay in place may be left out. -/
theorem foldlM_step_filter {parts : List Text} (h : parts.foldlM d.step l = .ok l') :
    (parts.filter isNamed).foldlM d.step l = .ok l' := by
  induction parts generalizing l with
  | nil => exact h
  | cons part parts ih =>
      rw [List.foldlM_cons, bind_eq_ok_iff] at h
      obtain ⟨m, hstep, hrest⟩ := h
      by_cases hpart : part = [] ∨ part = Path.here
      · obtain rfl := eq_of_step_stay hpart hstep
        rw [List.filter_cons_of_neg (by simp [isNamed, hpart])]
        exact ih hrest
      · rw [List.filter_cons_of_pos (by simpa [isNamed] using hpart),
          List.foldlM_cons, bind_eq_ok_iff]
        exact ⟨m, hstep, ih hrest⟩

theorem eq_of_foldlM_replicate_nil {k : Nat}
    (h : (List.replicate k ([] : Text)).foldlM d.step l = .ok l') : l' = l := by
  induction k generalizing l with
  | zero => exact (Except.ok.inj h).symm
  | succ k ih =>
      rw [List.replicate_succ, List.foldlM_cons, bind_eq_ok_iff] at h
      obtain ⟨m, hstep, hrest⟩ := h
      obtain rfl := eq_of_step_stay (Or.inl rfl) hstep
      exact ih hrest

/-! ## Writing -/

theorem node?_put (d : Disk) (l l' : Location) (n : Node) (hl : l ≠ []) :
    (d.put l n).node? l' = if l' = l then some n else d.node? l' := by
  unfold node? put
  -- the root has no entry of its own
  by_cases h0 : l' = []
  · subst h0
    rw [if_pos rfl, if_neg (Ne.symm hl), if_pos rfl]
  · rw [if_neg h0, if_neg h0]
    by_cases h : l' = l
    · subst h
      simp
    · rw [if_neg h, List.find?_cons_of_neg (by simpa using Ne.symm h)]
      congr 1
      rw [List.find?_filter]
      congr 1
      funext m
      by_cases hm : m.1 = l'
      · simp [hm, h]
      · simp [hm]

theorem locate_congr {l : Location} (h : d.locate path = .ok l) (hcurrent : d'.current = d.current)
    (hdir : ∀ m, d.node? m = some .directory → d'.node? m = some .directory) :
    d'.locate path = .ok l := by
  have horigin : d'.origin path = d.origin path := by rw [origin, origin, hcurrent]
  unfold locate at h ⊢
  split at h
  · cases h
  · split at h
    · cases h
    · split at h
      · cases h
      · next h1 h2 h3 =>
          rw [if_neg h1, if_neg h2, if_neg h3, horigin]
          exact foldlM_step_congr h hdir

/-- Whether a disk has everything that another one has, at the same places. -/
structure Extends (d d' : Disk) : Prop where
  current : d'.current = d.current
  node? : ∀ l n, d.node? l = some n → d'.node? l = some n

theorem Extends.refl (d : Disk) : d.Extends d := ⟨rfl, fun _ _ h => h⟩

theorem Extends.trans {d₁ d₂ d₃ : Disk} (h : d₁.Extends d₂) (h' : d₂.Extends d₃) :
    d₁.Extends d₃ :=
  ⟨h'.current.trans h.current, fun l n hn => h'.node? l n (h.node? l n hn)⟩

theorem Extends.locate (h : d.Extends d') (hl : d.locate path = .ok l) :
    d'.locate path = .ok l :=
  locate_congr hl h.current fun m hm => h.node? m .directory hm

theorem Extends.content? {content : Bytes} (h : d.Extends d')
    (hcontent : d.content? path = some content) : d'.content? path = some content := by
  unfold Disk.content? at? at hcontent ⊢
  cases hl : d.locate path with
  | error fault =>
      rw [hl] at hcontent
      cases hcontent
  | ok l =>
      rw [hl] at hcontent
      rw [h.locate hl]
      dsimp only at hcontent ⊢
      cases hn : d.node? l with
      | none =>
          rw [hn] at hcontent
          cases hcontent
      | some n =>
          rw [hn] at hcontent
          rw [h.node? l n hn]
          exact hcontent

/-- Something new at a free location takes nothing away. -/
theorem extends_put {n : Node} (hfree : d.node? l = none) : d.Extends (d.put l n) := by
  have hl : l ≠ [] := by
    rintro rfl
    cases hfree
  refine ⟨rfl, fun m k hm => ?_⟩
  have hne : m ≠ l := by
    rintro rfl
    rw [hfree] at hm
    cases hm
  rw [node?_put d l m n hl, if_neg hne, hm]

/-- Whether a disk differs from another one in new directories alone: it has the same files with
the same contents. -/
structure AddsDirectories (d d' : Disk) : Prop extends Extends d d' where
  file : ∀ l content, d'.node? l = some (.file content) → d.node? l = some (.file content)

theorem AddsDirectories.refl (d : Disk) : d.AddsDirectories d :=
  ⟨Extends.refl d, fun _ _ h => h⟩

theorem AddsDirectories.trans {d₁ d₂ d₃ : Disk} (h : d₁.AddsDirectories d₂)
    (h' : d₂.AddsDirectories d₃) : d₁.AddsDirectories d₃ :=
  ⟨h.toExtends.trans h'.toExtends, fun l content hn => h.file l content (h'.file l content hn)⟩

theorem addsDirectories_put (hfree : d.node? l = none) :
    d.AddsDirectories (d.put l .directory) := by
  refine ⟨extends_put hfree, fun m content hm => ?_⟩
  have hl : l ≠ [] := by
    rintro rfl
    cases hfree
  rw [node?_put d l m _ hl] at hm
  split at hm
  · cases hm
  · exact hm

/-- What a write does: it puts the file where the path leads, which is no directory. -/
theorem write_eq_ok_iff {content : Bytes} : d.write path content = .ok d' ↔
    ∃ l, d.locate path = .ok l ∧ d.node? l ≠ some .directory
      ∧ d' = d.put l (.file content) := by
  unfold write
  rw [bind_eq_ok_iff]
  constructor
  · rintro ⟨l, hl, hput⟩
    split at hput
    · cases hput
    · next hnode => exact ⟨l, hl, hnode, (Except.ok.inj hput).symm⟩
  · rintro ⟨l, hl, hnode, rfl⟩
    exact ⟨l, hl, if_neg hnode⟩

theorem ne_nil_of_node? (h : d.node? l ≠ some .directory) : l ≠ [] := by
  rintro rfl
  exact h (if_pos rfl)

/-- No directory is overwritten, so paths lead where they did. -/
theorem locate_put_file {content : Bytes} (hnode : d.node? l ≠ some .directory)
    (h : d.locate path = .ok m) : (d.put l (.file content)).locate path = .ok m := by
  refine locate_congr h rfl fun k hk => ?_
  have hne : k ≠ l := by
    rintro rfl
    exact hnode hk
  rw [node?_put d l k _ (ne_nil_of_node? hnode), if_neg hne, hk]

/-- A file that was written has its content. -/
theorem content?_of_write {content : Bytes} (h : d.write path content = .ok d') :
    d'.content? path = some content := by
  obtain ⟨l, hl, hnode, rfl⟩ := write_eq_ok_iff.1 h
  unfold content? at?
  rw [locate_put_file hnode hl]
  dsimp only
  rw [node?_put d l l _ (ne_nil_of_node? hnode), if_pos rfl]

/-- A write leaves alone what stands elsewhere. -/
theorem content?_of_write_of_ne {content found : Bytes} {other : Text}
    (h : d.write path content = .ok d') (hfound : d.content? other = some found)
    (hne : d'.locate other ≠ d'.locate path) : d'.content? other = some found := by
  obtain ⟨l, hl, hnode, rfl⟩ := write_eq_ok_iff.1 h
  unfold content? at? at hfound
  cases hm : d.locate other with
  | error fault =>
      rw [hm] at hfound
      cases hfound
  | ok m =>
      rw [hm] at hfound
      rw [locate_put_file hnode hm, locate_put_file hnode hl] at hne
      have hml : m ≠ l := fun heq => hne (congrArg Except.ok heq)
      unfold content? at?
      rw [locate_put_file hnode hm]
      dsimp only at hfound ⊢
      rw [node?_put d l m _ (ne_nil_of_node? hnode), if_neg hml]
      exact hfound

/-- Writing the same once more changes nothing. -/
theorem write_again {content : Bytes} (h : d.write path content = .ok d') :
    d'.write path content = .ok d' := by
  obtain ⟨l, hl, hnode, rfl⟩ := write_eq_ok_iff.1 h
  have hput : (d.put l (.file content)).put l (.file content) = d.put l (.file content) := by
    simp [put, List.filter_filter]
  refine write_eq_ok_iff.2 ⟨l, locate_put_file hnode hl, ?_, hput.symm⟩
  rw [node?_put d l l _ (ne_nil_of_node? hnode), if_pos rfl]
  simp

/-- Where a file cannot be written there is no file. -/
theorem content?_of_write_error {content : Bytes} {fault : SystemFault}
    (h : d.write path content = .error fault) : d.content? path = none := by
  unfold write at h
  unfold content? at?
  cases hl : d.locate path with
  | error fault => rfl
  | ok l =>
      rw [hl] at h
      by_cases hnode : d.node? l = some .directory
      · dsimp only
        rw [hnode]
      · simp [bind, Except.bind, hnode] at h

/-! ## Paths to directories -/

/-- What it takes for a path to lead to a location. -/
theorem locate_eq_ok_iff : d.locate path = .ok l ↔ path.contains '\x00' = false ∧ path ≠ []
    ∧ exceeds maxPath path = false ∧ (pieces '/' path).foldlM d.step (d.origin path) = .ok l := by
  unfold locate
  split
  · simp_all
  · split
    · simp_all
    · split <;> simp_all

theorem isDirectory_iff :
    d.isDirectory path = true ↔ ∃ l, d.locate path = .ok l ∧ d.node? l = some .directory := by
  unfold isDirectory at?
  cases d.locate path <;> simp

theorem hasPath_of_isDirectory (h : d.isDirectory path = true) : d.hasPath path = true := by
  rw [isDirectory, decide_eq_true_eq] at h
  rw [hasPath, h]
  rfl

theorem pieces_replicate_slash (k : Nat) :
    pieces '/' (List.replicate k '/') = List.replicate (k + 1) [] := by
  induction k with
  | zero => rfl
  | succ k ih =>
      rw [List.replicate_succ, Text.pieces_sep, ih]
      rfl

/-- Slashes at the end of a path stay where they are. -/
theorem foldlM_step_of_slashes {base : Text} {k : Nat} {o : Location}
    (h : (pieces '/' (base ++ List.replicate k '/')).foldlM d.step o = .ok l) :
    (pieces '/' base).foldlM d.step o = .ok l := by
  cases k with
  | zero => simpa using h
  | succ k =>
      rw [List.replicate_succ, Text.pieces_append_sep, pieces_replicate_slash, List.foldlM_append,
        bind_eq_ok_iff] at h
      obtain ⟨m, hm, hstay⟩ := h
      obtain rfl := eq_of_foldlM_replicate_nil hstay
      exact hm

theorem exceeds_append_left {limit : Nat} {s t : Text} (h : exceeds limit (s ++ t) = false) :
    exceeds limit s = false := by
  simp only [exceeds, Utf8.encode_append, List.length_append, decide_eq_false_iff_not] at h ⊢
  omega

theorem contains_append_left {c : Char} {s t : Text} (h : (s ++ t).contains c = false) :
    s.contains c = false := by
  simp_all

/-- The slashes at the end of a path may be left out. -/
theorem locate_of_slashes {base : Text} {k : Nat} (hbase : base ≠ [])
    (h : d.locate (base ++ List.replicate k '/') = .ok l) : d.locate base = .ok l := by
  obtain ⟨hnul, -, hlong, hsteps⟩ := locate_eq_ok_iff.1 h
  refine locate_eq_ok_iff.2
    ⟨contains_append_left hnul, hbase, exceeds_append_left hlong, ?_⟩
  rw [origin, isAbsolute_append hbase] at hsteps
  exact foldlM_step_of_slashes hsteps

theorem eq_append_slashes (path : Text) : ∃ k,
    path = (path.reverse.dropWhile fun c => c == '/').reverse ++ List.replicate k '/' := by
  refine ⟨(path.reverse.takeWhile fun c => c == '/').length, ?_⟩
  have hall : path.reverse.takeWhile (fun c => c == '/')
      = List.replicate (path.reverse.takeWhile fun c => c == '/').length '/' :=
    List.eq_replicate_of_mem fun c hc => by simpa using List.mem_takeWhile_imp hc
  rw [← List.reverse_replicate, ← hall, ← List.reverse_append, List.takeWhile_append_dropWhile,
    List.reverse_reverse]

/-- A directory cannot be made where there is one. -/
theorem makeDirectory_of_isDirectory (h : d.isDirectory path = true) :
    d.makeDirectory path = .error .alreadyThere := by
  obtain ⟨l, hl, hnode⟩ := isDirectory_iff.1 h
  have htrim : d.locate (if path.all (· == '/') then path
      else (path.reverse.dropWhile fun c => c == '/').reverse) = .ok l := by
    split
    · exact hl
    · next hall =>
        obtain ⟨k, hk⟩ := eq_append_slashes path
        rw [hk] at hl
        refine locate_of_slashes ?_ hl
        intro hnil
        rw [hnil, List.nil_append] at hk
        exact hall (by rw [hk]; simp)
  unfold makeDirectory
  rw [htrim]
  simp [bind, Except.bind, hnode]

theorem ensureDirectory_of_isDirectory (h : d.isDirectory path = true) :
    d.ensureDirectory path = (d, .ok ()) := by
  unfold ensureDirectory
  rw [makeDirectory_of_isDirectory h]
  simp [h]

/-! ## Making directories -/

theorem ensureDirectory_error {fault : SystemFault}
    (h : d.ensureDirectory path = (d', .error fault)) : d' = d := by
  unfold ensureDirectory at h
  split at h
  · cases h
  · split at h
    · cases h
    · exact (Prod.mk.inj h).1.symm

/-- The directory that could not be made is not there. -/
theorem ensureAll_error {paths : List Text} {fault : SystemFault}
    (h : d.ensureAll paths = (d', .error fault)) : ∃ p ∈ paths, ¬ d'.isDirectory p = true := by
  induction paths generalizing d' fault with
  | nil => cases h
  | cons path below ih =>
      rw [ensureAll] at h
      split at h
      · next d₁ fault₁ hbelow =>
          obtain ⟨rfl, -⟩ := Prod.mk.inj h
          obtain ⟨p, hp, hnot⟩ := ih hbelow
          exact ⟨p, by simp [hp], hnot⟩
      · next d₁ u hbelow =>
          -- the directory itself failed, and it would not have failed if it were there
          obtain rfl := ensureDirectory_error h
          refine ⟨path, by simp, fun hdir => ?_⟩
          rw [ensureDirectory_of_isDirectory hdir] at h
          cases h

theorem missing_subset {paths ps : List Text} (h : d.missing paths = .ok ps) :
    ∀ p ∈ ps, p ∈ paths := by
  induction paths generalizing ps with
  | nil =>
      obtain rfl := Except.ok.inj h
      simp
  | cons path above ih =>
      rw [missing] at h
      split at h
      · obtain rfl := Except.ok.inj h
        simp
      · cases hm : d.missing above with
        | error fault =>
            rw [hm] at h
            cases h
        | ok qs =>
            rw [hm] at h
            obtain rfl : path :: qs = ps := Except.ok.inj h
            intro p hp
            rcases List.mem_cons.1 hp with rfl | hp
            · simp
            · simp [ih hm p hp]
      · cases h

theorem makeDirectories_error {fault : SystemFault}
    (h : d.makeDirectories path = (d', .error fault)) :
    d' = d ∨ ∃ p ∈ path :: ancestors path, ¬ d'.isDirectory p = true := by
  unfold makeDirectories at h
  split at h
  · cases h
  · split at h
    · exact Or.inl (Prod.mk.inj h).1.symm
    · next ps hps =>
        obtain ⟨p, hp, hnot⟩ := ensureAll_error h
        exact Or.inr ⟨p, missing_subset hps p hp, hnot⟩

theorem addsDirectories_ensureDirectory (d : Disk) (path : Text) :
    d.AddsDirectories (d.ensureDirectory path).1 := by
  unfold ensureDirectory
  split
  · next d₁ hmade =>
      unfold makeDirectory at hmade
      obtain ⟨l, -, hput⟩ := bind_eq_ok_iff.1 hmade
      split at hput
      · cases hput
      · next hfree =>
          obtain rfl := Except.ok.inj hput
          exact addsDirectories_put hfree
  · split <;> exact AddsDirectories.refl d

theorem addsDirectories_ensureAll (d : Disk) (paths : List Text) :
    d.AddsDirectories (d.ensureAll paths).1 := by
  induction paths with
  | nil => exact AddsDirectories.refl d
  | cons path below ih =>
      rw [ensureAll]
      split
      · next d₁ fault hbelow =>
          rw [hbelow] at ih
          exact ih
      · next d₁ u hbelow =>
          rw [hbelow] at ih
          exact ih.trans (addsDirectories_ensureDirectory d₁ path)

/-- An attempt to make directories adds directories at most, whether or not it succeeds. -/
theorem addsDirectories_makeDirectories (d : Disk) (path : Text) :
    d.AddsDirectories (d.makeDirectories path).1 := by
  unfold makeDirectories
  split
  · exact AddsDirectories.refl d
  · split
    · exact AddsDirectories.refl d
    · exact addsDirectories_ensureAll d _

/-! ## What is above a file -/

/-- The ancestors of a path are joined from fewer of its pieces, with the first among them. -/
theorem exists_pieces_of_mem_ancestors {first : Text} {rest : List Text} {q : Text}
    (hpieces : pieces '/' path = first :: rest) (hpath : path ≠ []) (hq : q ∈ ancestors path) :
    ∃ j < (rest.filter isNamed).length, (first = [] → 0 < j)
      ∧ q = Text.join ['/'] (first :: (rest.filter isNamed).take j) := by
  have hjoin : path = Text.join ['/'] (first :: rest) := by
    rw [← hpieces, Text.join_pieces]
  have hfirst : '/' ∉ first := Text.not_mem_of_mem_pieces (s := path) (by simp [hpieces])
  have hparts : namedParts path = (if first = [] then [] else [first]) ++ rest.filter isNamed := by
    unfold namedParts
    rw [hpieces]
    rfl
  unfold ancestors at hq
  rw [hparts] at hq
  generalize rest.filter isNamed = fs at hq ⊢
  -- with a named first piece one component fewer is taken from the rest
  obtain ⟨n, hn, rfl⟩ := List.mem_map.1 hq
  rw [List.mem_reverse, List.range_eq_range', List.drop_range', List.mem_range'_1] at hn
  obtain ⟨hpos, hlt⟩ := hn
  by_cases hnil : first = []
  · subst hnil
    have hrest : rest ≠ [] := by
      rintro rfl
      exact hpath hjoin
    simp only [if_true, List.nil_append] at hlt ⊢
    have habsolute : Path.isAbsolute path = true := by
      rw [hjoin, isAbsolute_join rest hfirst]
      simpa using hrest
    refine ⟨n, by omega, fun _ => by omega, ?_⟩
    have hne : fs.take n ≠ [] := by
      intro htake
      have hlength := congrArg List.length htake
      rw [List.length_take, List.length_nil] at hlength
      omega
    obtain ⟨p, ps, hps⟩ := List.exists_cons_of_ne_nil hne
    rw [habsolute, Path.ofComponents, if_pos rfl, hps]
    rfl
  · simp only [if_neg hnil, List.singleton_append, List.length_cons] at hlt ⊢
    have hrelative : Path.isAbsolute path = false := by
      rw [hjoin, isAbsolute_join rest hfirst]
      simp [hnil]
    refine ⟨n - 1, by omega, fun h => absurd h hnil, ?_⟩
    obtain ⟨k, rfl⟩ : ∃ k, n = k + 1 := ⟨n - 1, by omega⟩
    rw [hrelative]
    rfl

/-! ### Paths from fewer pieces -/

theorem not_contains_join {ps : List Text} (hsub : ps.Sublist (pieces '/' path))
    (hnul : path.contains '\x00' = false) : (Text.join ['/'] ps).contains '\x00' = false := by
  by_contra hc
  have hmem : '\x00' ∈ Text.join ['/'] ps := by simpa using hc
  rcases Text.mem_join hmem with hc | ⟨p, hp, hc⟩
  · exact absurd hc (by decide)
  · have hpath : '\x00' ∈ path := Text.mem_of_mem_pieces (hsub.subset hp) hc
    simp_all

theorem exceeds_join {ps : List Text} (hsub : ps.Sublist (pieces '/' path))
    (hlong : exceeds maxPath path = false) : exceeds maxPath (Text.join ['/'] ps) = false := by
  have hle := Text.length_encode_join_le '/' hsub
  rw [Text.join_pieces] at hle
  simp only [exceeds, decide_eq_false_iff_not] at hlong ⊢
  omega

theorem join_ne_nil {first : Text} {ps : List Text} (h : first = [] → ps ≠ []) :
    Text.join ['/'] (first :: ps) ≠ [] := by
  intro hnil
  cases ps with
  | nil => exact h hnil rfl
  | cons p ps =>
      have hlength := congrArg List.length hnil
      simp [Text.join] at hlength

/-- Whether a path is absolute is seen at its first piece, if that is not the only one. -/
theorem isAbsolute_join_congr {first : Text} {ps qs : List Text} (hfirst : '/' ∉ first)
    (hps : first = [] → ps ≠ []) (hqs : first = [] → qs ≠ []) :
    Path.isAbsolute (Text.join ['/'] (first :: ps))
      = Path.isAbsolute (Text.join ['/'] (first :: qs)) := by
  rw [isAbsolute_join ps hfirst, isAbsolute_join qs hfirst]
  cases first with
  | nil => rw [List.isEmpty_eq_false_iff.2 (hps rfl), List.isEmpty_eq_false_iff.2 (hqs rfl)]
  | cons c cs => rfl

/-- A path that is joined from some of the pieces of another leads to a directory on the way. -/
theorem exists_locate_of_fewer {first : Text} {rest : List Text} {j : Nat}
    (hpieces : pieces '/' path = first :: rest)
    (hpath : path.contains '\x00' = false ∧ path ≠ [] ∧ exceeds maxPath path = false)
    (hsteps : (first :: rest).foldlM d.step (d.origin path) = .ok l)
    (hj : j < (rest.filter isNamed).length) (hpos : first = [] → 0 < j) :
    ∃ m, d.locate (Text.join ['/'] (first :: (rest.filter isNamed).take j)) = .ok m
      ∧ d.node? m = some .directory := by
  obtain ⟨hnul, -, hlong⟩ := hpath
  have hsub : (first :: (rest.filter isNamed).take j).Sublist (pieces '/' path) := by
    rw [hpieces]
    exact ((List.take_sublist _ _).trans List.filter_sublist).cons_cons first
  have hsep : ∀ p ∈ first :: (rest.filter isNamed).take j, '/' ∉ p :=
    fun p hp => Text.not_mem_of_mem_pieces (hsub.subset hp)
  have hrest : rest ≠ [] := by
    rintro rfl
    exact absurd hj (Nat.not_lt_zero j)
  -- the walk along the whole path passes through the place where the shorter path ends
  rw [List.foldlM_cons, bind_eq_ok_iff] at hsteps
  obtain ⟨m₁, hfirst, hmore⟩ := hsteps
  have hfilter := foldlM_step_filter hmore
  generalize hfs : rest.filter isNamed = fs at hj hsub hsep hfilter ⊢
  have hcut : first :: fs = (first :: fs.take j) ++ fs[j] :: fs.drop (j + 1) := by
    simp
  have hall : (first :: fs).foldlM d.step (d.origin path) = .ok l := by
    rw [List.foldlM_cons, bind_eq_ok_iff]
    exact ⟨m₁, hfirst, hfilter⟩
  rw [hcut] at hall
  obtain ⟨m, hm, hnode⟩ := node?_of_foldlM_step hall
  have htake : first = [] → fs.take j ≠ [] := by
    intro hnil htake
    have hlength := congrArg List.length htake
    rw [List.length_take, List.length_nil] at hlength
    have hj0 := hpos hnil
    omega
  have habsolute : Path.isAbsolute (Text.join ['/'] (first :: fs.take j))
      = Path.isAbsolute path := by
    conv => rhs; rw [← Text.join_pieces '/' path, hpieces]
    exact isAbsolute_join_congr (hsep first (by simp)) htake fun _ => hrest
  refine ⟨m, locate_eq_ok_iff.2 ⟨not_contains_join hsub hnul, join_ne_nil htake,
    exceeds_join hsub hlong, ?_⟩, hnode⟩
  rw [Text.pieces_join (by simp) hsep, origin, habsolute]
  exact hm

/-- A path to something has directories above it: the part before its last slash, with or
without that slash, and all ancestors of that part. -/
theorem isDirectory_above {base name dir : Text} (h : d.locate (base ++ '/' :: name) = .ok l)
    (hdir : dir = base ∨ dir = base ++ ['/']) (hne : dir ≠ []) :
    ∀ q ∈ dir :: ancestors dir, d.isDirectory q = true := by
  obtain ⟨hnul, -, hlong, hsteps⟩ := locate_eq_ok_iff.1 h
  obtain ⟨tail, htail⟩ : ∃ tail, base ++ '/' :: name = dir ++ tail := by
    rcases hdir with rfl | rfl
    · exact ⟨_, rfl⟩
    · exact ⟨name, by simp⟩
  rw [htail] at hnul hlong
  have hnul' := contains_append_left hnul
  have hlong' := exceeds_append_left hlong
  rw [origin, htail, isAbsolute_append hne, ← origin, ← htail, Text.pieces_append_sep] at hsteps
  obtain ⟨n, ns, hname⟩ := Text.exists_pieces_eq_cons '/' name
  rw [hname] at hsteps
  obtain ⟨m, hm, hnode⟩ := node?_of_foldlM_step hsteps
  obtain ⟨first, mids, hbase⟩ := Text.exists_pieces_eq_cons '/' base
  rw [hbase] at hm
  -- the pieces of the directory are those of `base`, and one more after a final slash
  obtain ⟨rest, hrest, hsteps'⟩ : ∃ rest, pieces '/' dir = first :: rest
      ∧ (first :: rest).foldlM d.step (d.origin dir) = .ok m := by
    rcases hdir with rfl | rfl
    · exact ⟨mids, hbase, hm⟩
    · refine ⟨mids ++ [[]], ?_, ?_⟩
      · rw [Text.pieces_append_sep, hbase]
        rfl
      · rw [← List.cons_append, List.foldlM_append, bind_eq_ok_iff]
        refine ⟨m, hm, ?_⟩
        rw [List.foldlM_cons, bind_eq_ok_iff]
        refine ⟨m, ?_, rfl⟩
        rw [step, hnode]
        simp
  intro q hq
  rw [isDirectory_iff]
  rcases List.mem_cons.1 hq with rfl | hq
  · exact ⟨m, locate_eq_ok_iff.2 ⟨hnul', hne, hlong', by rw [hrest]; exact hsteps'⟩, hnode⟩
  · obtain ⟨j, hj, hpos, rfl⟩ := exists_pieces_of_mem_ancestors hrest hne hq
    exact exists_locate_of_fewer hrest ⟨hnul', hne, hlong'⟩ hsteps' hj hpos

end TypeCoverage.Disk
