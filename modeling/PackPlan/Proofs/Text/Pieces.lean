import Mathlib.Data.List.DropRight
import PackPlan.Text.Pieces

/-!
# PackPlan.Proofs.Text.Pieces

Cutting and trimming, said without the functions that do it. A text is cut into the only pieces
without the mark that the mark joins to this text (`eq_pieces_iff`), and lines that each end in a
mark are cut into these lines (`pieces_ended`). A piece is trimmed to the one part of it that has
blanks on both sides and none at its own ends (`isTrimmed_iff`).
-/

namespace PackPlan
namespace Text

/-! ## Cutting -/

theorem pieces_eq_splitOn (mark : Char) (cs : List Char) : pieces mark cs = cs.splitOn mark := by
  induction cs with
  | nil => rfl
  | cons c rest ih =>
    simp only [pieces, List.splitOn_cons_eq_if_modifyHead, beq_iff_eq, ← ih]
    split
    · rfl
    · cases hp : pieces mark rest with
      | nil => exact absurd hp (pieces_ne_nil mark rest)
      | cons piece others => rfl

theorem pieces_intercalate {mark : Char} {ps : List (List Char)} (hne : ps ≠ [])
    (h : ∀ piece ∈ ps, mark ∉ piece) : pieces mark ([mark].intercalate ps) = ps := by
  rw [pieces_eq_splitOn, List.splitOn_intercalate mark h hne]

theorem intercalate_pieces (mark : Char) (cs : List Char) :
    [mark].intercalate (pieces mark cs) = cs := by
  rw [pieces_eq_splitOn, List.intercalate_splitOn]

theorem eq_pieces_iff {mark : Char} {cs : List Char} {ps : List (List Char)} :
    ps = pieces mark cs ↔ ps ≠ [] ∧ (∀ piece ∈ ps, mark ∉ piece) ∧ [mark].intercalate ps = cs := by
  constructor
  · rintro rfl
    exact ⟨pieces_ne_nil mark cs, fun piece hm => not_mem_of_mem_pieces hm,
      intercalate_pieces mark cs⟩
  · rintro ⟨hne, hmark, rfl⟩
    exact (pieces_intercalate hne hmark).symm

/-- Pieces with the mark after each of them are cut there, and nothing is left after the last. -/
theorem pieces_ended {mark : Char} {ps : List (List Char)} (h : ∀ piece ∈ ps, mark ∉ piece) :
    pieces mark (ps.flatMap fun piece => piece ++ [mark]) = ps ++ [[]] := by
  have hjoin : [mark].intercalate (ps ++ [[]]) = ps.flatMap fun piece => piece ++ [mark] := by
    clear h
    induction ps with
    | nil => rfl
    | cons piece others ih =>
      rw [List.flatMap_cons, ← ih]
      cases others <;> simp [List.intercalate_cons_cons]
  rw [← hjoin]
  refine pieces_intercalate (by simp) ?_
  simp only [List.mem_append, List.mem_singleton]
  rintro piece (hp | rfl)
  · exact h piece hp
  · exact List.not_mem_nil

theorem not_mem_intercalate {c : Char} {between : List Char} {ps : List (List Char)}
    (hbetween : c ∉ between) (h : ∀ piece ∈ ps, c ∉ piece) : c ∉ between.intercalate ps := by
  induction ps with
  | nil => exact List.not_mem_nil
  | cons piece others ih =>
    obtain ⟨hpiece, hothers⟩ := List.forall_mem_cons.1 h
    cases others with
    | nil => rwa [List.intercalate_singleton]
    | cons next rest =>
      rw [List.intercalate_cons_cons]
      simp only [List.mem_append, not_or]
      exact ⟨⟨hpiece, hbetween⟩, ih hothers⟩

/-! ## Trimming -/

theorem not_isBlank_of_isDigit {c : Char} (h : c.isDigit = true) : isBlank c = false := by
  have hrange := Char.isDigit_iff_toNat.1 h
  simp only [Char.reduceToNat] at hrange
  simp only [isBlank, Bool.or_eq_false_iff, Bool.and_eq_false_iff, decide_eq_false_iff_not,
    beq_eq_false_iff_ne]
  omega

def AllBlank (cs : List Char) : Prop := ∀ c ∈ cs, isBlank c = true

/-- The part of a piece without the blanks around it. -/
structure IsTrimmed (piece part : List Char) : Prop where
  within : ∃ left right, piece = left ++ part ++ right ∧ AllBlank left ∧ AllBlank right
  first : ∀ c ∈ part.head?, isBlank c = false
  last : ∀ c ∈ part.getLast?, isBlank c = false

theorem isTrimmed_trim (piece : List Char) : IsTrimmed piece (trim piece) := by
  -- what is left at the front loses its end
  have hfront := List.takeWhile_append_dropWhile (p := isBlank) (l := piece)
  have htrim : trim piece = (piece.dropWhile isBlank).rdropWhile isBlank := rfl
  refine ⟨⟨piece.takeWhile isBlank, (piece.dropWhile isBlank).rtakeWhile isBlank, ?_, ?_, ?_⟩,
    ?_, ?_⟩
  · rw [htrim, List.append_assoc, List.rdropWhile_append_rtakeWhile, hfront]
  · exact fun c hc => List.mem_takeWhile_imp hc
  · exact fun c hc => List.mem_rtakeWhile_imp hc
  · intro c hc
    obtain ⟨tail, htail⟩ := List.rdropWhile_prefix isBlank (l := piece.dropWhile isBlank)
    have hhead := List.head?_dropWhile_not isBlank piece
    rw [← htail, List.head?_append, ← htrim, Option.mem_def.1 hc] at hhead
    simpa using hhead
  · intro c hc
    obtain ⟨hne, rfl⟩ := List.mem_getLast?_eq_getLast hc
    exact Bool.eq_false_iff.2 (List.rdropWhile_last_not isBlank (piece.dropWhile isBlank) hne)

theorem IsTrimmed.eq_trim {piece part : List Char} (h : IsTrimmed piece part) :
    part = trim piece := by
  obtain ⟨⟨left, right, rfl, hleft, hright⟩, hfirst, hlast⟩ := h
  have hrest : (left ++ part ++ right).dropWhile isBlank = (part ++ right).dropWhile isBlank := by
    rw [List.append_assoc, List.dropWhile_append_of_pos hleft]
  rw [trim, hrest]
  cases part with
  | nil =>
    rw [List.nil_append, List.dropWhile_eq_nil_iff.2 hright]
    rfl
  | cons c others =>
    have hc : ¬isBlank c = true := by simp [hfirst c rfl]
    have hend : (right.reverse ++ (c :: others).reverse).dropWhile isBlank =
        (c :: others).reverse.dropWhile isBlank :=
      List.dropWhile_append_of_pos fun a ha => hright a (List.mem_reverse.1 ha)
    have hself : (c :: others).rdropWhile isBlank = c :: others :=
      List.rdropWhile_eq_self_iff.2 fun hne => by
        simp [hlast _ (List.getLast?_eq_some_getLast hne)]
    rw [List.cons_append, List.dropWhile_cons_of_neg hc, ← List.cons_append, List.reverse_append,
      hend]
    exact hself.symm

theorem isTrimmed_iff {piece part : List Char} : IsTrimmed piece part ↔ part = trim piece :=
  ⟨IsTrimmed.eq_trim, fun h => h ▸ isTrimmed_trim piece⟩

theorem isTrimmed_of_blanks {left part right : List Char} (hleft : AllBlank left)
    (hright : AllBlank right) (h : ∀ c ∈ part, isBlank c = false) :
    IsTrimmed (left ++ part ++ right) part :=
  ⟨⟨left, right, rfl, hleft, hright⟩, fun c hc => h c (List.mem_of_mem_head? hc),
    fun c hc => h c (List.mem_of_mem_getLast? hc)⟩

theorem isTrimmed_of_allBlank {piece : List Char} (h : AllBlank piece) : IsTrimmed piece [] :=
  ⟨⟨piece, [], by simp, h, by simp [AllBlank]⟩, by simp, by simp⟩

end Text
end PackPlan
