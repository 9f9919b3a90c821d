import Mathlib.Data.List.Basic
import TypeCoverage.Proofs.Imports.Modes

/-!
# When an import resolves alike in both modes

Relative and absolute mode resolve an import to the same file, whatever files are selected, unless
its module path strays: relative mode looks for it outside of the working directory, and absolute
mode inside, or the other way round. The specifier of the working directory itself strays, and so
does one that climbs above the working directory and comes back.
-/

set_option autoImplicit false

namespace TypeCoverage.Resolver

open TypeCoverage.Path
open Text (pieces)

variable {directory importer specifier path : Text} {names files : List Text}

/-! ## Candidates -/

/-- A result is the module path with one of the suffixes, or with none. -/
theorem exists_suffix (r : Resolver) (importer specifier : Text) :
    ∃ suffix ∈ [] :: suffixes,
      r.resolve importer specifier = r.modulePath importer specifier ++ suffix := by
  rw [resolve]
  cases hfind : (suffixes.map fun suffix => r.modulePath importer specifier ++ suffix).find?
      r.known.contains with
  | none => exact ⟨[], by simp, by simp⟩
  | some candidate =>
      obtain ⟨suffix, hsuffix, rfl⟩ := List.mem_map.1 (List.mem_of_find?_eq_some hfind)
      exact ⟨suffix, by simp [hsuffix], rfl⟩

/-- Where a candidate is a known file, so is the result. -/
theorem resolve_mem {r : Resolver} {suffix : Text} (hsuffix : suffix ∈ suffixes)
    (h : r.modulePath importer specifier ++ suffix ∈ r.known) :
    r.resolve importer specifier ∈ r.known := by
  rw [resolve]
  cases hfind : (suffixes.map fun suffix => r.modulePath importer specifier ++ suffix).find?
      r.known.contains with
  | none =>
      have hno := List.find?_eq_none.1 hfind _ (List.mem_map.2 ⟨suffix, hsuffix, rfl⟩)
      exact absurd (List.contains_iff_mem.2 h) hno
  | some candidate => exact List.contains_iff_mem.1 (List.find?_some hfind)

/-- Every suffix has its slash in front, if it has one. -/
theorem eq_nil_of_suffix {suffix before after : Text} (hmem : suffix ∈ [] :: suffixes)
    (h : suffix = before ++ '/' :: after) : before = [] := by
  have htail : ∀ s ∈ [] :: suffixes, '/' ∉ s.tail := by decide
  cases before with
  | nil => rfl
  | cons c cs =>
      refine absurd ?_ (htail suffix hmem)
      rw [h]
      simp

/-- No suffix is a slash and then a suffix. -/
theorem slash_not_mem : ∀ suffix ∈ [] :: suffixes, '/' :: suffix ∉ [] :: suffixes := by decide

theorem mem_map_within {file : Text} :
    within directory file ∈ files.map (within directory) ↔ file ∈ files :=
  List.mem_map_of_injective fun _ _ h => within_injective h

/-- The same module path in both modes leads to the same file. -/
theorem resolve_within
    (h : wholePath directory importer specifier
      = within directory (insidePath directory importer specifier)) :
    (absolute directory files).resolve (within directory importer) specifier
      = within directory ((relative directory files).resolve importer specifier) := by
  have hknown : (absolute directory files).known.contains ∘ within directory
      = (relative directory files).known.contains := by
    funext file
    rw [Bool.eq_iff_iff, Function.comp_apply, List.contains_iff_mem, List.contains_iff_mem]
    exact mem_map_within
  have hcandidates : (suffixes.map fun suffix =>
        wholePath directory importer specifier ++ suffix)
      = (suffixes.map fun suffix => insidePath directory importer specifier ++ suffix).map
        (within directory) := by
    rw [List.map_map, h]
    refine List.map_congr_left fun suffix _ => ?_
    exact (within_append directory _ suffix).symm
  show ((suffixes.map fun suffix => wholePath directory importer specifier ++ suffix).find?
    (absolute directory files).known.contains).getD (wholePath directory importer specifier) = _
  rw [hcandidates, List.find?_map, hknown, h, Option.getD_map]
  rfl

/-! ## Where the module path leads -/

/-- The module path of absolute mode is written from names. -/
theorem exists_names_wholePath (hnames : ∀ p ∈ names, IsName p) (importer specifier : Text) :
    ∃ more, (∀ p ∈ more, IsName p)
      ∧ wholePath (ofComponents true names) importer specifier = ofComponents true more := by
  have habsolute : isAbsolute (spelled (within (ofComponents true names) importer) specifier)
      = true := by
    by_cases hspecifier : isAbsolute specifier = true
    · rw [spelled, if_pos hspecifier, hspecifier]
    · rw [isAbsolute_spelled (by simpa using hspecifier), isAbsolute_within hnames]
  refine ⟨_, fun p hp => isName_of_mem_components habsolute hp, ?_⟩
  show Path.normalize _ = _
  rw [Path.normalize, habsolute]

/-- What a path that begins with no name leads to is never below the working directory. -/
theorem not_descends_append {p q : Text} {ps : List Text} (h : pieces '/' path = p :: q :: ps)
    (hp : ¬ IsName p) (suffix : Text) : ¬ Descends (path ++ suffix) := by
  intro hdescends
  obtain ⟨front, last, hlast⟩ : ∃ front last, q :: ps = front ++ [last] :=
    ⟨_, _, (List.dropLast_concat_getLast (List.cons_ne_nil q ps)).symm⟩
  obtain ⟨r, rs, hr⟩ := Text.exists_pieces_eq_cons '/' suffix
  have hpieces := Text.pieces_append (show pieces '/' path = (p :: front) ++ [last] by
    rw [h, hlast]
    rfl) hr
  exact hp (hdescends p (by rw [hpieces]; simp))

/-- Where the module paths of relative and of absolute mode lead: to the same place, to the working
directory itself, to the directory above it, or, in relative mode, to where no key is. -/
inductive Leads (names : List Text) (inside whole : Text) : Prop
  | same (h : whole = within (ofComponents true names) inside) : Leads names inside whole
  | directory (hinside : inside = []) (hne : names ≠ [])
      (hwhole : whole = ofComponents true names) : Leads names inside whole
  | above (hinside : inside = up) (hwhole : whole = ofComponents true names.dropLast) :
      Leads names inside whole
  | outside (h : ∀ suffix, ¬ Descends (inside ++ suffix)) : Leads names inside whole

/-- An absolute specifier leads to the same place, or is not below the working directory. -/
theorem leads_of_absolute (names : List Text) (importer : Text)
    (hspecifier : isAbsolute specifier = true) :
    Leads names (insidePath (ofComponents true names) importer specifier)
      (wholePath (ofComponents true names) importer specifier) := by
  have hspelled : ∀ start, spelled start specifier = specifier := by
    intro start
    rw [spelled, if_pos hspecifier]
  have hnormal : isAbsolute (Path.normalize specifier) = true := by
    rw [Path.normalize, hspecifier]
    rfl
  have hwhole : wholePath (ofComponents true names) importer specifier
      = Path.normalize specifier := by
    show Path.normalize (spelled _ specifier) = _
    rw [hspelled]
  have hinside : insidePath (ofComponents true names) importer specifier
      = (below? (trimSlashes (ofComponents true names)) (Path.normalize specifier)).getD
          (Path.normalize specifier) := by
    show relativize (some (ofComponents true names)) (Path.normalize (spelled _ specifier)) = _
    rw [hspelled]
    unfold relativize
    exact if_pos hnormal
  rw [hwhole, hinside]
  cases hbelow : below? (trimSlashes (ofComponents true names)) (Path.normalize specifier) with
  | some rest =>
      apply Leads.same
      rw [Option.getD_some, Text.stripPrefix?_eq_some_iff.1 hbelow, within, under]
      simp
  | none =>
      apply Leads.outside
      intro suffix hdescends
      obtain ⟨rest, hrest⟩ := isAbsolute_iff.1 hnormal
      have hfalse := hdescends.isAbsolute_eq
      rw [Option.getD_none, hrest] at hfalse
      cases hfalse

/-- Without steps up, names lead to the same place, and no names to the working directory. -/
theorem leads_down {found : List Text} (hnames : ∀ p ∈ names, IsName p)
    (hfound : ∀ p ∈ found, IsName p) :
    Leads names (Text.join ['/'] found) (ofComponents true (names ++ found)) := by
  by_cases hnil : found = []
  · subst hnil
    rw [List.append_nil]
    by_cases hroot : names = []
    · subst hroot
      exact Leads.same rfl
    · exact Leads.directory rfl hroot rfl
  · apply Leads.same
    apply eq_of_pieces
    have hall : ∀ p ∈ names ++ found, IsName p := List.forall_mem_append.2 ⟨hnames, hfound⟩
    rw [pieces_within hnames, pieces_join_names fun p hp => (hfound p hp).2,
      pieces_ofComponents hall, if_neg hnil, if_neg (by simp [hnil])]

/-- Steps up lead to the directory above, or to where no key is. -/
theorem leads_up {found : List Text} (n : Nat) (hfound : ∀ p ∈ found, IsName p) :
    Leads names (Text.join ['/'] (List.replicate (n + 1) up ++ found))
      (ofComponents true (names.take (names.length - (n + 1)) ++ found)) := by
  have hsteps := plain_of_mem_steps (n := n + 1) hfound
  rw [List.replicate_succ, List.cons_append] at hsteps ⊢
  -- one step up alone names the directory above; with more the path begins with no name
  cases hrest : List.replicate n up ++ found with
  | nil =>
      obtain ⟨hn, rfl⟩ := List.append_eq_nil_iff.1 hrest
      obtain rfl : n = 0 := by simpa using hn
      refine Leads.above rfl ?_
      rw [List.append_nil, List.dropLast_eq_take]
  | cons q ps =>
      rw [hrest] at hsteps
      have hpieces : pieces '/' (Text.join ['/'] (up :: q :: ps)) = up :: q :: ps := by
        rw [pieces_join_names fun p hp => (hsteps p hp).2, if_neg (List.cons_ne_nil _ _)]
      exact Leads.outside (not_descends_append hpieces fun h => h.1.2.2 rfl)

theorem leads (hnames : ∀ p ∈ names, IsName p) (himporter : Descends importer)
    (specifier : Text) :
    Leads names (insidePath (ofComponents true names) importer specifier)
      (wholePath (ofComponents true names) importer specifier) := by
  by_cases hspecifier : isAbsolute specifier = true
  · exact leads_of_absolute names importer hspecifier
  obtain ⟨n, found, hfound, hinside, hwhole⟩ :=
    exists_paths_of_relative hnames himporter (by simpa using hspecifier)
  rw [hinside, hwhole]
  cases n with
  | zero =>
      rw [Nat.sub_zero, List.take_length]
      exact leads_down hnames hfound
  | succ n => exact leads_up n hfound

/-! ## Straying -/

/-- Whether the two modes look for the module of an import in different places, one of which has
room for a file of the working directory. -/
def Strays (directory importer specifier : Text) : Prop :=
  let inside := insidePath directory importer specifier
  let whole := wholePath directory importer specifier
  whole ≠ within directory inside
    ∧ (inside = up ∨ whole = directory ∨ ∃ rest, whole = within directory rest)

/-- Whether an import resolves to the same file in both modes, whatever files are selected. -/
def ResolvesAlike (directory importer specifier : Text) : Prop :=
  ∀ files : List Text,
    (∀ file ∈ files, ∃ candidate, Selection.key? directory false candidate = some file) →
    importer ∈ files → ∀ file ∈ files,
      ((relative directory files).resolve importer specifier = file ↔
        (absolute directory files).resolve (within directory importer) specifier
          = within directory file)

variable {more : List Text} {rest suffix : Text}

theorem descends_of_within (hnames : ∀ p ∈ names, IsName p) (hmore : ∀ p ∈ more, IsName p)
    (h : ofComponents true more = within (ofComponents true names) rest) :
    rest = [] ∨ Descends rest := by
  have hpieces := congrArg (pieces '/') h
  rw [pieces_ofComponents hmore, pieces_within hnames] at hpieces
  have hpieces := (List.cons.inj hpieces).2
  split at hpieces
  · -- the root has one piece, so the names are none
    left
    cases names with
    | nil => exact eq_of_pieces (hpieces.symm.trans rfl)
    | cons p ps =>
        have hlength := congrArg List.length hpieces
        simp [Text.pieces_ne_nil] at hlength
  · exact Or.inr fun p hp => hmore p (by rw [hpieces]; simp [hp])

/-- A module below the working directory can be a file there. -/
theorem descends_append_ts (h : rest = [] ∨ Descends rest) :
    Descends (rest ++ ['.', 't', 's']) := by
  obtain ⟨front, last, hlast⟩ : ∃ front last, pieces '/' rest = front ++ [last] :=
    ⟨_, _, (List.dropLast_concat_getLast (Text.pieces_ne_nil '/' rest)).symm⟩
  have hsep : '/' ∉ last := Text.not_mem_of_mem_pieces (s := rest) (by rw [hlast]; simp)
  have hname : IsName (last ++ ['.', 't', 's']) := by
    refine ⟨⟨by simp, fun hhere => ?_, fun hup => ?_⟩, by simp [hsep]⟩
    · have hlength := congrArg List.length hhere
      simp [here] at hlength
    · have hlength := congrArg List.length hup
      simp [up] at hlength
  intro p hp
  rw [Text.pieces_append hlast (show pieces '/' ['.', 't', 's'] = ['.', 't', 's'] :: [] from rfl)]
    at hp
  rcases List.mem_append.1 hp with hp | hp
  · rcases h with rfl | h
    · obtain ⟨rfl, -⟩ := List.append_inj' (show [] ++ [[]] = front ++ [last] from hlast) rfl
      cases hp
    · exact h p (by rw [hlast]; simp [hp])
  · obtain rfl := List.mem_singleton.1 hp
    exact hname

/-- In absolute mode, a candidate that is a file of the working directory comes from a module path
below it, or from that of the working directory itself. -/
theorem eq_or_within_of_candidate {whole file : Text} (hnames : ∀ p ∈ names, IsName p)
    (hwhole : isAbsolute whole = true) (hsuffix : suffix ∈ [] :: suffixes)
    (h : whole ++ suffix = within (ofComponents true names) file) :
    whole = ofComponents true names ∨ ∃ rest, whole = within (ofComponents true names) rest := by
  have hne : whole ≠ [] := by
    obtain ⟨rest, rfl⟩ := isAbsolute_iff.1 hwhole
    exact List.cons_ne_nil _ _
  rw [within, under, trimSlashes_ofComponents hnames] at h
  rcases List.append_eq_append_iff.1 h with ⟨x, hx, hsuffix'⟩ | ⟨x, hx, hrest⟩
  · -- the slash after the working directory is the one of the suffix
    obtain rfl := eq_nil_of_suffix hsuffix hsuffix'
    rw [List.append_nil] at hx
    split at hx
    · exact absurd hx.symm hne
    · exact Or.inl hx.symm
  · cases x with
    | nil =>
        rw [List.append_nil] at hx
        split at hx
        · exact absurd hx hne
        · exact Or.inl hx
    | cons c rest =>
        obtain rfl : '/' = c := (List.cons.inj hrest).1
        exact Or.inr ⟨rest, by rw [hx, within, under, trimSlashes_ofComponents hnames]⟩

/-- A module path below the working directory, or that of the working directory itself, has a
candidate that can be a file there. -/
theorem exists_candidate (hnames : ∀ p ∈ names, IsName p) (hmore : ∀ p ∈ more, IsName p)
    (h : ofComponents true more = ofComponents true names
      ∨ ∃ rest, ofComponents true more = within (ofComponents true names) rest) :
    ∃ suffix ∈ suffixes, ∃ file, Descends file
      ∧ ofComponents true more ++ suffix = within (ofComponents true names) file := by
  have hbelow : ∀ rest, ofComponents true more = within (ofComponents true names) rest →
      ∃ suffix ∈ suffixes, ∃ file, Descends file
        ∧ ofComponents true more ++ suffix = within (ofComponents true names) file := by
    intro rest hrest
    refine ⟨['.', 't', 's'], by decide, rest ++ ['.', 't', 's'], ?_, ?_⟩
    · exact descends_append_ts (descends_of_within hnames hmore hrest)
    · rw [hrest, within_append]
  rcases h with hdirectory | ⟨rest, hrest⟩
  · by_cases hroot : names = []
    · subst hroot
      exact hbelow [] hdirectory
    · have hindex : Descends ['i', 'n', 'd', 'e', 'x', '.', 't', 's'] := by
        unfold Descends IsName
        decide
      refine ⟨['/', 'i', 'n', 'd', 'e', 'x', '.', 't', 's'], by decide, _, hindex, ?_⟩
      rw [hdirectory, within, trimSlashes_ofComponents hnames, if_neg hroot, under]
  · exact hbelow rest hrest

/-- The directory above the working directory is neither it nor below it. -/
theorem parent_not_within (hnames : ∀ p ∈ names, IsName p) (hne : names ≠ []) :
    ¬ (ofComponents true names.dropLast = ofComponents true names
      ∨ ∃ rest, ofComponents true names.dropLast = within (ofComponents true names) rest) := by
  have hparent : ∀ p ∈ names.dropLast, IsName p := fun p hp => hnames p (List.dropLast_subset _ hp)
  have hpos : 0 < names.length := List.length_pos_iff.2 hne
  rintro (hsame | ⟨rest, hrest⟩)
  · have hlength := congrArg List.length (ofComponents_injective hparent hnames hsame)
    rw [List.length_dropLast] at hlength
    omega
  · have hlength := congrArg (fun path => (pieces '/' path).length) hrest
    have hpos' : 0 < (pieces '/' rest).length := List.length_pos_iff.2 (Text.pieces_ne_nil '/' rest)
    simp only [pieces_ofComponents hparent, pieces_within hnames, List.length_cons,
      List.length_append] at hlength
    split at hlength
    · rw [List.length_singleton] at hlength
      omega
    · rw [List.length_dropLast] at hlength
      omega

/-- An import that does not stray resolves alike. -/
theorem resolvesAlike_of_not_strays (hnames : ∀ p ∈ names, IsName p)
    (hkey : ∀ file, (∃ candidate,
      Selection.key? (ofComponents true names) false candidate = some file) → Descends file)
    (himporter : Descends importer) (h : ¬ Strays (ofComponents true names) importer specifier) :
    ResolvesAlike (ofComponents true names) importer specifier := by
  intro files hfiles _ file hfile
  have hdescends : Descends file := hkey file (hfiles file hfile)
  by_cases hsame : wholePath (ofComponents true names) importer specifier
      = within (ofComponents true names) (insidePath (ofComponents true names) importer specifier)
  · rw [resolve_within hsame]
    exact ⟨fun heq => by rw [heq], fun heq => within_injective heq⟩
  -- otherwise no candidate of either mode is a file
  have hno := fun hroom => h ⟨hsame, hroom⟩
  refine iff_of_false (fun heq => ?_) fun heq => ?_
  · obtain ⟨suffix, -, hsuffix⟩ := exists_suffix (relative (ofComponents true names) files)
      importer specifier
    cases leads hnames himporter specifier with
    | same hcase => exact hsame hcase
    | directory _ _ hwhole => exact hno (Or.inr (Or.inl hwhole))
    | above hinside => exact hno (Or.inl hinside)
    | outside houtside =>
        have hfile : insidePath (ofComponents true names) importer specifier ++ suffix = file :=
          hsuffix.symm.trans heq
        exact houtside suffix (by rwa [hfile])
  · obtain ⟨suffix, hmem, hsuffix⟩ := exists_suffix (absolute (ofComponents true names) files)
      (within (ofComponents true names) importer) specifier
    obtain ⟨more, -, hmore⟩ := exists_names_wholePath hnames importer specifier
    have habsolute : isAbsolute (wholePath (ofComponents true names) importer specifier)
        = true := by
      rw [hmore]
      rfl
    exact hno (Or.inr (eq_or_within_of_candidate hnames habsolute hmem (hsuffix.symm.trans heq)))

/-- Whether some file of the working directory is a candidate of both modes. -/
def HasCommon (directory importer specifier : Text) : Prop :=
  ∃ file, Descends file
    ∧ (∃ suffix ∈ [] :: suffixes, insidePath directory importer specifier ++ suffix = file)
    ∧ ∃ suffix ∈ [] :: suffixes,
        wholePath directory importer specifier ++ suffix = within directory file

theorem hasCommon_of_resolve {file : Text} (hfile : Descends file)
    (hinside : (relative directory files).resolve importer specifier = file)
    (hwhole : (absolute directory files).resolve (within directory importer) specifier
      = within directory file) : HasCommon directory importer specifier := by
  obtain ⟨s, hs, hs'⟩ := exists_suffix (relative directory files) importer specifier
  obtain ⟨t, ht, ht'⟩ :=
    exists_suffix (absolute directory files) (within directory importer) specifier
  exact ⟨file, hfile, ⟨s, hs, hs'.symm.trans hinside⟩, t, ht, ht'.symm.trans hwhole⟩

/-- Where one mode finds a file, resolving alike makes the other mode find it too. -/
theorem ResolvesAlike.hasCommon {other : Text}
    (hkey : ∀ file, (∃ candidate, Selection.key? directory false candidate = some file)
      ↔ Descends file)
    (h : ResolvesAlike directory importer specifier) (himporter : Descends importer)
    (hother : Descends other) (hsuffix : suffix ∈ suffixes)
    (hfound : insidePath directory importer specifier ++ suffix = other
      ∨ wholePath directory importer specifier ++ suffix = within directory other) :
    HasCommon directory importer specifier := by
  have hall : ∀ file ∈ [importer, other], Descends file := by
    intro file hfile
    rcases List.mem_cons.1 hfile with rfl | hfile
    · exact himporter
    · obtain rfl := List.mem_singleton.1 hfile
      exact hother
  -- it is enough to select the importer and the file that is found
  have hiff := h [importer, other] (fun file hfile => (hkey file).2 (hall file hfile)) (by simp)
  rcases hfound with hfound | hfound
  · have hmem : (relative directory [importer, other]).resolve importer specifier
        ∈ [importer, other] := by
      apply resolve_mem hsuffix
      show insidePath directory importer specifier ++ suffix ∈ _
      rw [hfound]
      simp [relative]
    exact hasCommon_of_resolve (hall _ hmem) rfl ((hiff _ hmem).1 rfl)
  · have hmem : (absolute directory [importer, other]).resolve (within directory importer)
        specifier ∈ [importer, other].map (within directory) := by
      apply resolve_mem hsuffix
      show wholePath directory importer specifier ++ suffix ∈ _
      rw [hfound]
      exact mem_map_within.2 (by simp)
    obtain ⟨file, hfile, heq⟩ := List.mem_map.1 hmem
    exact hasCommon_of_resolve (hall file hfile) ((hiff file hfile).2 heq.symm) heq.symm

/-- Different module paths have no file of the working directory in common. -/
theorem not_hasCommon (hnames : ∀ p ∈ names, IsName p) (himporter : Descends importer)
    (hdiffer : wholePath (ofComponents true names) importer specifier
      ≠ within (ofComponents true names)
        (insidePath (ofComponents true names) importer specifier)) :
    ¬ HasCommon (ofComponents true names) importer specifier := by
  rintro ⟨file, hfile, ⟨s, hs, hinside⟩, t, ht, hwhole⟩
  cases leads hnames himporter specifier with
  | same hsame => exact hdiffer hsame
  | directory hnil hne hdirectory =>
      rw [hnil, List.nil_append] at hinside
      rw [hdirectory, within, trimSlashes_ofComponents hnames, if_neg hne, under, ← hinside]
        at hwhole
      obtain rfl := List.append_cancel_left hwhole
      exact slash_not_mem s hs ht
  | above hup habove =>
      by_cases hroot : names = []
      · subst hroot
        have hdots : ∀ suffix ∈ [] :: suffixes, up ++ suffix ∉ [] :: suffixes := by decide
        rw [hup] at hinside
        rw [habove, ← hinside] at hwhole
        obtain rfl : t = up ++ s := (List.cons.inj hwhole).2
        exact hdots s hs ht
      · have habsolute : isAbsolute (ofComponents true names.dropLast) = true := rfl
        rw [habove] at hwhole
        exact parent_not_within hnames hroot
          (eq_or_within_of_candidate hnames habsolute ht hwhole)
  | outside houtside => exact houtside s (by rwa [hinside])

/-- An import that strays resolves differently with some files. -/
theorem not_resolvesAlike_of_strays (hnames : ∀ p ∈ names, IsName p)
    (hkey : ∀ file, (∃ candidate,
      Selection.key? (ofComponents true names) false candidate = some file) ↔ Descends file)
    (himporter : Descends importer) (h : Strays (ofComponents true names) importer specifier) :
    ¬ ResolvesAlike (ofComponents true names) importer specifier := by
  intro halike
  obtain ⟨hdiffer, hroom⟩ := h
  refine not_hasCommon hnames himporter hdiffer ?_
  rcases hroom with hup | hroom
  · -- in relative mode a file has two dots before its extension
    have hdots : Descends (up ++ ['.', 't', 's']) := by
      unfold Descends IsName
      decide
    have hts : ['.', 't', 's'] ∈ suffixes := by decide
    exact halike.hasCommon hkey himporter hdots hts (Or.inl (by rw [hup]))
  · obtain ⟨more, hmore, hwhole⟩ := exists_names_wholePath hnames importer specifier
    rw [hwhole] at hroom
    obtain ⟨suffix, hsuffix, other, hother, hfound⟩ := exists_candidate hnames hmore hroom
    rw [← hwhole] at hfound
    exact halike.hasCommon hkey himporter hother hsuffix (Or.inr hfound)

/-- An import resolves to the same file in relative and in absolute
mode, whatever files are selected, exactly if its module path does not stray. -/
theorem resolvesAlike_iff (habsolute : isAbsolute directory = true)
    (hnormal : Path.normalize directory = directory)
    (himporter : ∃ candidate, Selection.key? directory false candidate = some importer) :
    ResolvesAlike directory importer specifier ↔ ¬ Strays directory importer specifier := by
  have hkey : ∀ file, (∃ candidate, Selection.key? directory false candidate = some file)
      ↔ Descends file := fun file => Selection.exists_key_iff habsolute hnormal
  have hdescends : Descends importer := (hkey importer).1 himporter
  obtain ⟨names, hnames, rfl⟩ := exists_names_of_normal habsolute hnormal
  constructor
  · intro halike hstrays
    exact not_resolvesAlike_of_strays hnames hkey hdescends hstrays halike
  · exact resolvesAlike_of_not_strays hnames (fun file => (hkey file).1) hdescends

/-- The specifier of the working directory itself resolves to its index in absolute mode only. -/
theorem directory_resolves_differently :
    let files : List Text := [['a', '.', 't', 's'], ['i', 'n', 'd', 'e', 'x', '.', 't', 's']]
    isAbsolute ['/', 'w'] = true ∧ Path.normalize ['/', 'w'] = ['/', 'w']
      ∧ (∀ file ∈ files, Selection.key? ['/', 'w'] false file = some file)
      ∧ isLocal ['.'] = true
      ∧ (relative ['/', 'w'] files).resolve ['a', '.', 't', 's'] ['.'] = []
      ∧ (absolute ['/', 'w'] files).resolve (within ['/', 'w'] ['a', '.', 't', 's']) ['.']
        = within ['/', 'w'] ['i', 'n', 'd', 'e', 'x', '.', 't', 's']
      ∧ ¬ ResolvesAlike ['/', 'w'] ['a', '.', 't', 's'] ['.'] := by
  intro files
  have hkeys : ∀ file ∈ files, Selection.key? ['/', 'w'] false file = some file := by decide
  have hinside : (relative ['/', 'w'] files).resolve ['a', '.', 't', 's'] ['.'] = [] := by decide
  have hwhole : (absolute ['/', 'w'] files).resolve (within ['/', 'w'] ['a', '.', 't', 's']) ['.']
      = within ['/', 'w'] ['i', 'n', 'd', 'e', 'x', '.', 't', 's'] := by decide
  refine ⟨rfl, by decide, hkeys, by decide, hinside, hwhole, fun halike => ?_⟩
  have hiff := halike files (fun file hfile => ⟨file, hkeys file hfile⟩) (by decide)
    ['i', 'n', 'd', 'e', 'x', '.', 't', 's'] (by decide)
  rw [hinside] at hiff
  cases hiff.2 hwhole

end TypeCoverage.Resolver
