import Mathlib.Tactic.Common
import TypeCoverage.Proofs.Text.Utf8
import TypeCoverage.Text.Basic

/-!
# Pieces of a text

The pieces of a text hold no separator, and every list of such pieces is the pieces of the text
that it joins to.
-/

set_option autoImplicit false

namespace TypeCoverage.Text

variable {sep : Char}

theorem pieces_sep (s : Text) : pieces sep (sep :: s) = [] :: pieces sep s := by
  rw [pieces, if_pos rfl]

theorem pieces_cons {c : Char} {s p : Text} {ps : List Text} (hc : c ≠ sep)
    (h : pieces sep s = p :: ps) : pieces sep (c :: s) = (c :: p) :: ps := by
  rw [pieces, if_neg hc, h]

theorem exists_pieces_eq_cons (sep : Char) (s : Text) : ∃ p ps, pieces sep s = p :: ps :=
  List.exists_cons_of_ne_nil (pieces_ne_nil sep s)

theorem not_mem_of_mem_pieces {s p : Text} (h : p ∈ pieces sep s) : sep ∉ p := by
  induction s generalizing p with
  | nil => simp_all [pieces]
  | cons c cs ih =>
      obtain ⟨q, qs, hq⟩ := exists_pieces_eq_cons sep cs
      by_cases hc : c = sep
      · subst hc
        rw [pieces_sep] at h
        rcases List.mem_cons.1 h with rfl | h
        · simp
        · exact ih h
      · rw [pieces_cons hc hq] at h
        rcases List.mem_cons.1 h with rfl | h
        · have hmem := ih (p := q) (by simp [hq])
          simp [hmem, Ne.symm hc]
        · exact ih (by simp [hq, h])

/-- Cutting at a separator cuts the pieces. -/
theorem pieces_append_sep (s t : Text) :
    pieces sep (s ++ sep :: t) = pieces sep s ++ pieces sep t := by
  induction s with
  | nil => exact pieces_sep t
  | cons c cs ih =>
      obtain ⟨p, ps, hp⟩ := exists_pieces_eq_cons sep cs
      by_cases hc : c = sep
      · subst hc
        rw [List.cons_append, pieces_sep, pieces_sep, ih, List.cons_append]
      · rw [hp] at ih
        rw [List.cons_append, pieces_cons hc ih, pieces_cons hc hp]
        rfl

theorem pieces_of_not_mem {s : Text} (h : sep ∉ s) : pieces sep s = [s] := by
  induction s with
  | nil => rfl
  | cons c cs ih =>
      have hc : c ≠ sep := fun hc => h (by simp [hc])
      exact pieces_cons hc (ih fun hmem => h (by simp [hmem]))

theorem pieces_join {ps : List Text} (hne : ps ≠ []) (h : ∀ p ∈ ps, sep ∉ p) :
    pieces sep (join [sep] ps) = ps := by
  induction ps with
  | nil => exact absurd rfl hne
  | cons p ps ih =>
      cases ps with
      | nil => exact pieces_of_not_mem (h p (by simp))
      | cons q qs =>
          rw [join, List.append_assoc]
          show pieces sep (p ++ sep :: join [sep] (q :: qs)) = _
          rw [pieces_append_sep, pieces_of_not_mem (h p (by simp)),
            ih (by simp) fun r hr => h r (by simp [hr])]
          rfl

/-- Where two texts meet, the last piece of the one and the first of the other are one piece. -/
theorem pieces_append {s t p q : Text} {ps qs : List Text} (hs : pieces sep s = ps ++ [p])
    (ht : pieces sep t = q :: qs) : pieces sep (s ++ t) = ps ++ (p ++ q) :: qs := by
  induction s generalizing ps p with
  | nil =>
      obtain ⟨rfl, hp⟩ := List.append_inj' (show [] ++ [[]] = ps ++ [p] from hs) rfl
      obtain rfl := List.singleton_inj.1 hp
      exact ht
  | cons c cs ih =>
      obtain ⟨rs, r, hr⟩ : ∃ rs r, pieces sep cs = rs ++ [r] :=
        ⟨_, _, (List.dropLast_concat_getLast (pieces_ne_nil sep cs)).symm⟩
      by_cases hc : c = sep
      · subst hc
        rw [pieces_sep, hr] at hs
        obtain ⟨rfl, hp⟩ := List.append_inj' (show ([] :: rs) ++ [r] = ps ++ [p] from hs) rfl
        obtain rfl := List.singleton_inj.1 hp
        rw [List.cons_append, pieces_sep, ih hr]
        rfl
      · cases rs with
        | nil =>
            rw [pieces_cons hc hr] at hs
            obtain ⟨rfl, hp⟩ := List.append_inj' (show [] ++ [c :: r] = ps ++ [p] from hs) rfl
            obtain rfl := List.singleton_inj.1 hp
            exact pieces_cons hc (ih hr)
        | cons r' rs =>
            rw [pieces_cons hc hr] at hs
            obtain ⟨rfl, hp⟩ :=
              List.append_inj' (show ((c :: r') :: rs) ++ [r] = ps ++ [p] from hs) rfl
            obtain rfl := List.singleton_inj.1 hp
            exact pieces_cons hc (ih hr)

/-! ## Fewer pieces -/

theorem encode_join_cons (p q : Text) (ps : List Text) :
    (Utf8.encode (join [sep] (p :: q :: ps))).length
      = (Utf8.encode p).length + (Utf8.encodeChar sep).length
        + (Utf8.encode (join [sep] (q :: ps))).length := by
  have hsep : Utf8.encode [sep] = Utf8.encodeChar sep := List.append_nil _
  rw [join, Utf8.encode_append, Utf8.encode_append, hsep, List.length_append, List.length_append]

/-- Leaving out pieces does not make a text longer. -/
theorem length_encode_join_le (sep : Char) {ps qs : List Text} (h : ps.Sublist qs) :
    (Utf8.encode (join [sep] ps)).length ≤ (Utf8.encode (join [sep] qs)).length := by
  induction h with
  | slnil => exact Nat.le_refl _
  | @cons ps qs q hsub ih =>
      cases qs with
      | nil =>
          cases hsub
          exact Nat.zero_le _
      | cons r rs =>
          rw [encode_join_cons]
          omega
  | @cons_cons ps qs q hsub ih =>
      cases ps with
      | nil =>
          cases qs with
          | nil => exact Nat.le_refl _
          | cons r rs =>
              rw [encode_join_cons]
              show (Utf8.encode q).length ≤ _
              omega
      | cons p ps =>
          cases qs with
          | nil => cases hsub
          | cons r rs =>
              rw [encode_join_cons, encode_join_cons]
              omega

/-- A joined text has the characters of its pieces and separators. -/
theorem mem_join {c : Char} {ps : List Text} (h : c ∈ join [sep] ps) :
    c = sep ∨ ∃ p ∈ ps, c ∈ p := by
  induction ps with
  | nil => simp [join] at h
  | cons p ps ih =>
      cases ps with
      | nil => exact Or.inr ⟨p, by simp, h⟩
      | cons q qs =>
          rw [join, List.append_assoc, List.mem_append, List.mem_append] at h
          rcases h with h | h | h
          · exact Or.inr ⟨p, by simp, h⟩
          · exact Or.inl (by simpa using h)
          · rcases ih h with h | ⟨r, hr, hc⟩
            · exact Or.inl h
            · exact Or.inr ⟨r, by simp [List.mem_cons.1 hr], hc⟩

/-- A joined text has each of its pieces as a run of neighbours. -/
theorem infix_join_of_mem {p : Text} {ps : List Text} (h : p ∈ ps) : p <:+: join [sep] ps := by
  induction ps with
  | nil => cases h
  | cons q qs ih =>
      cases qs with
      | nil =>
          obtain rfl := List.mem_singleton.1 h
          exact List.infix_refl p
      | cons r rs =>
          rw [join]
          rcases List.mem_cons.1 h with rfl | h
          · rw [List.append_assoc]
            exact (List.prefix_append p _).isInfix
          · exact (ih h).trans (List.suffix_append _ _).isInfix

theorem infix_of_mem_pieces {s p : Text} (h : p ∈ pieces sep s) : p <:+: s := by
  rw [← join_pieces sep s]
  exact infix_join_of_mem h

theorem mem_of_mem_pieces {c : Char} {s p : Text} (h : p ∈ pieces sep s) (hc : c ∈ p) : c ∈ s :=
  (infix_of_mem_pieces h).subset hc

end TypeCoverage.Text
