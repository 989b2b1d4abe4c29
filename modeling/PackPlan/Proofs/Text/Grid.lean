import Mathlib
import PackPlan.Proofs.Text.Pieces
import PackPlan.Text.Grid

/-!
# PackPlan.Proofs.Text.Grid

What a grid looks like. Every cell fits its column (`fits_header`, `fits_row`), so all lines of a grid
are equally long (`length_of_mem_gridLines`). A row is cut at its marks into its cells, each of them
set to the right of its column (`pieces_rowLine`), and trimming a cell gives its text back
(`IsSetRight.trim_eq`).
-/

namespace PackPlan
namespace Text

/-! ## Columns -/

/-- Each cell fits the column that it stands in. -/
def Fits (widths : List Nat) (cells : List (List Char)) : Prop :=
  List.Forall₂ (fun width cell => cell.length ≤ width) widths cells

section Columns

variable {widths others : List Nat} {header cells : List (List Char)} {row : List (List Char)}
  {rows : List (List (List Char))}

/-- Columns only get wider. -/
theorem Fits.widen (h : Fits widths cells) (hlen : others.length = widths.length) :
    Fits (List.zipWith max widths others) cells := by
  induction h generalizing others with
  | nil => exact .nil
  | cons hcell _ ih =>
    cases others with
    | nil => cases hlen
    | cons other others =>
      exact .cons (Nat.le_trans hcell (Nat.le_max_left ..)) (ih (Nat.succ_injective hlen))

theorem fits_lengths (cells : List (List Char)) : Fits (cells.map List.length) cells := by
  rw [Fits, List.forall₂_map_left_iff, List.forall₂_same]
  exact fun _ _ => Nat.le_refl _

theorem fits_zipWith (hlen : widths.length = row.length) :
    Fits (List.zipWith max widths (row.map List.length)) row := by
  induction row generalizing widths with
  | nil => rw [List.map_nil, List.zipWith_nil_right]; exact .nil
  | cons cell rest ih =>
    cases widths with
    | nil => cases hlen
    | cons width widths => exact .cons (Nat.le_max_right ..) (ih (Nat.succ_injective hlen))

/-- The widths that rows make of widths to start with hold what fitted these, and all the rows. -/
theorem fits_foldl (hrows : ∀ row ∈ rows, row.length = widths.length) :
    let last := rows.foldl (fun widths row => List.zipWith max widths (row.map List.length)) widths
    (∀ cells, Fits widths cells → Fits last cells) ∧ ∀ row ∈ rows, Fits last row := by
  induction rows generalizing widths with
  | nil => exact ⟨fun _ h => h, List.forall_mem_nil _⟩
  | cons row others ih =>
    obtain ⟨hrow, hothers⟩ := List.forall_mem_cons.1 hrows
    have hlen : (List.zipWith max widths (row.map List.length)).length = widths.length := by
      simp [hrow]
    obtain ⟨hkept, hfit⟩ := ih fun r hr => (hothers r hr).trans hlen.symm
    refine ⟨fun cells h => hkept _ (h.widen (by simp [hrow])), ?_⟩
    exact List.forall_mem_cons.2 ⟨hkept _ (fits_zipWith hrow.symm), hfit⟩

theorem fits_header (hrows : ∀ row ∈ rows, row.length = header.length) :
    Fits (columnWidths header rows) header :=
  (fits_foldl (by simpa using hrows)).1 _ (fits_lengths header)

theorem fits_row (hrows : ∀ row ∈ rows, row.length = header.length) (h : row ∈ rows) :
    Fits (columnWidths header rows) row :=
  (fits_foldl (by simpa using hrows)).2 _ h

end Columns

/-! ## Lines -/

section Lines

variable {mark : Char} {widths : List Nat} {header cells : List (List Char)}
  {rows : List (List (List Char))}

theorem length_between (mark : Char) (stretches : List (List Char)) :
    (between mark stretches).length = (stretches.map List.length).sum + (stretches.length - 1) := by
  rw [between]
  induction stretches with
  | nil => rfl
  | cons first rest ih =>
    cases rest with
    | nil => simp
    | cons next more =>
      rw [List.intercalate_cons_cons, List.length_append, ih]
      simp only [List.length_append, List.map_cons, List.sum_cons, List.length_cons, List.length_nil]
      omega

/-- The length of all lines of a grid with such columns. -/
def lineLength (widths : List Nat) : Nat :=
  (widths.map (· + 2)).sum + (widths.length - 1) + 2

theorem length_ruleLine (first crossing last : Char) (widths : List Nat) :
    (ruleLine first crossing last widths).length = lineLength widths := by
  have hwidths : widths.map (List.length ∘ fun width => List.replicate (width + 2) '─') =
      widths.map (· + 2) := List.map_congr_left fun _ _ => List.length_replicate
  simp only [ruleLine, List.length_cons, List.length_append, List.length_nil, length_between,
    List.map_map, hwidths, List.length_map, lineLength]

theorem length_padCell {width : Nat} {cell : List Char} (h : cell.length ≤ width) :
    (padCell width cell).length = width + 2 := by
  simp only [padCell, List.length_append, List.length_cons, List.length_nil, List.length_leftpad]
  omega

theorem Fits.lengths (h : Fits widths cells) :
    (List.zipWith padCell widths cells).map List.length = widths.map (· + 2) := by
  induction h with
  | nil => rfl
  | cons hcell _ ih =>
    rw [List.zipWith_cons_cons, List.map_cons, List.map_cons, length_padCell hcell, ih]

theorem length_rowLine (h : Fits widths cells) :
    (rowLine widths cells).length = lineLength widths := by
  have hlen := congrArg List.length h.lengths
  simp only [List.length_map] at hlen
  simp only [rowLine, List.length_cons, List.length_append, List.length_nil, length_between,
    h.lengths, hlen, lineLength]

/-- All lines of a grid are equally long. -/
theorem length_of_mem_gridLines (hrows : ∀ row ∈ rows, row.length = header.length) :
    ∀ line ∈ gridLines header rows, line.length = lineLength (columnWidths header rows) := by
  simp only [gridLines, List.forall_mem_append, List.forall_mem_cons, List.forall_mem_map,
    length_ruleLine, length_rowLine (fits_header hrows), true_and, List.not_mem_nil,
    false_implies, implies_true, and_true]
  exact fun row hrow => length_rowLine (fits_row hrows hrow)

end Lines

/-! ## Cells -/

/-- The text is set to the right of a column that has room for it, with a blank on either side. -/
structure IsSetRight (width : Nat) (text cell : List Char) : Prop where
  room : text.length ≤ width
  cell : cell = ' ' :: (List.replicate (width - text.length) ' ' ++ text) ++ [' ']

section Cells

variable {width : Nat} {widths : List Nat} {text cell : List Char} {cells : List (List Char)}

theorem isSetRight_padCell (h : text.length ≤ width) : IsSetRight width text (padCell width text) :=
  ⟨h, rfl⟩

theorem IsSetRight.length_eq (h : IsSetRight width text cell) : cell.length = width + 2 := by
  rw [h.cell]
  exact length_padCell h.room

/-- The blanks around a text go when the cell is trimmed, and no others. -/
theorem IsSetRight.trim_eq (h : IsSetRight width text cell)
    (hfirst : ∀ c ∈ text.head?, isBlank c = false) (hlast : ∀ c ∈ text.getLast?, isBlank c = false) :
    trim cell = text := by
  refine (IsTrimmed.eq_trim ⟨⟨' ' :: List.replicate (width - text.length) ' ', [' '], ?_, ?_, ?_⟩,
    hfirst, hlast⟩).symm
  · rw [h.cell]; rfl
  · refine List.forall_mem_cons.2 ⟨rfl, fun c hc => ?_⟩
    rw [List.eq_of_mem_replicate hc]; rfl
  · exact List.forall_mem_singleton.2 rfl

theorem intercalate_concat {mark : Char} {ps : List (List Char)} (hne : ps ≠ [])
    (last : List Char) : [mark].intercalate (ps ++ [last]) = [mark].intercalate ps ++ mark :: last := by
  induction ps with
  | nil => exact absurd rfl hne
  | cons piece others ih =>
    cases others with
    | nil => simp [List.intercalate_cons_cons]
    | cons next rest =>
      have hrest := ih (List.cons_ne_nil _ _)
      rw [List.cons_append] at hrest
      simp only [List.cons_append, List.intercalate_cons_cons, hrest, List.append_assoc]

theorem not_mem_padCell {mark : Char} (hmark : mark ≠ ' ') (h : mark ∉ text) :
    mark ∉ padCell width text := by
  simp [padCell, List.leftpad, hmark, h]

/-- A row is cut at the marks of the frame into its cells, with nothing before and after them. -/
theorem pieces_rowLine (hcells : ∀ cell ∈ cells, '│' ∉ cell)
    (hne : List.zipWith padCell widths cells ≠ []) :
    pieces '│' (rowLine widths cells) = [] :: List.zipWith padCell widths cells ++ [[]] := by
  have hpieces : ∀ piece ∈ [] :: List.zipWith padCell widths cells ++ [[]], '│' ∉ piece := by
    intro piece hp
    simp only [List.mem_append, List.mem_cons, List.not_mem_nil, or_false] at hp
    rcases hp with (rfl | hp) | rfl
    · exact List.not_mem_nil
    · obtain ⟨i, hi, rfl⟩ := List.getElem_of_mem hp
      rw [List.getElem_zipWith]
      exact not_mem_padCell (by decide) (hcells _ (List.getElem_mem _))
    · exact List.not_mem_nil
  refine (eq_pieces_iff.2 ⟨by simp, hpieces, ?_⟩).symm
  rw [intercalate_concat (List.cons_ne_nil _ _), rowLine, between]
  cases hstretches : List.zipWith padCell widths cells with
  | nil => exact absurd hstretches hne
  | cons first rest => rw [List.intercalate_cons_cons]; rfl

/-- Cells of one line each make lines of one line each. -/
theorem newline_not_mem_gridLines {header : List (List Char)} {rows : List (List (List Char))}
    (hheader : ∀ cell ∈ header, '\n' ∉ cell) (hrows : ∀ row ∈ rows, ∀ cell ∈ row, '\n' ∉ cell) :
    ∀ line ∈ gridLines header rows, '\n' ∉ line := by
  have hrule : ∀ {first crossing last : Char} {widths}, '\n' ≠ first → '\n' ≠ crossing →
      '\n' ≠ last → '\n' ∉ ruleLine first crossing last widths := by
    intro first crossing last widths hfirst hcrossing hlast
    have hdashes : ∀ stretch ∈ widths.map fun width => List.replicate (width + 2) '─',
        '\n' ∉ stretch := List.forall_mem_map.2 fun width _ => by simp
    have hbetween : '\n' ∉ between crossing _ :=
      not_mem_intercalate (by simpa using hcrossing) hdashes
    simp [ruleLine, hfirst, hlast, hbetween]
  have hrow : ∀ {widths : List Nat} {cells : List (List Char)}, (∀ cell ∈ cells, '\n' ∉ cell) →
      '\n' ∉ rowLine widths cells := by
    intro widths cells hcells
    have hpadded : ∀ piece ∈ List.zipWith padCell widths cells, '\n' ∉ piece := by
      intro piece hp
      obtain ⟨i, hi, rfl⟩ := List.getElem_of_mem hp
      rw [List.getElem_zipWith]
      exact not_mem_padCell (by decide) (hcells _ (List.getElem_mem _))
    have hbetween : '\n' ∉ between '│' _ := not_mem_intercalate (by decide) hpadded
    simp [rowLine, hbetween]
  simp only [gridLines, List.forall_mem_append, List.forall_mem_cons, List.forall_mem_map]
  refine ⟨⟨⟨?_, ?_, ?_, List.forall_mem_nil _⟩, ?_⟩, ?_, List.forall_mem_nil _⟩
  · exact hrule (by decide) (by decide) (by decide)
  · exact hrow hheader
  · exact hrule (by decide) (by decide) (by decide)
  · exact fun row h => hrow (hrows row h)
  · exact hrule (by decide) (by decide) (by decide)

end Cells
end Text
end PackPlan
