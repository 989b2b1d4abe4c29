import PackPlan.Proofs.Numeral
import PackPlan.Proofs.Text.Grid
import PackPlan.Report

/-!
# PackPlan.Proofs.Report.Table

The report for a reader. Its lines are those of the grid, or of what stands for it, and those of the
summary (`pieces_table`). `IsBody` says what the grid has to be: lines of one length, and for each pack
a row that is cut at the frame into its numbers, each set to the right of its column. `IsSummary` says
it of the four lines of the summary. Nothing of a shipment is lost in its report, so a report belongs
to one shipment (`table_read_back`).
-/

namespace PackPlan
namespace Report

open Numeral Text

/-! ## What a report has to say -/

/-- The lines are equally long. -/
def Aligned (lines : List (List Char)) : Prop := ∃ n, ∀ line ∈ lines, line.length = n

/-- The line is cut at the marks of the frame into cells, which hold these texts, each set to the
right of its column. -/
structure IsRow (widths : List Nat) (texts : List (List Char)) (line : List Char) : Prop where
  columns : widths.length = texts.length
  cells : ∃ cells, pieces '│' line = [] :: cells ++ [[]] ∧ cells.map trim = texts ∧
    List.Forall₂ (fun column cell => IsSetRight column.1 column.2 cell) (widths.zip texts) cells

/-- The row tells of a pack: its size, its count and the units in it, or the largest count if there
are more. -/
def IsPackRow (widths : List Nat) (line : List Char) (a : Allocation) : Prop :=
  ∃ texts, IsRow widths texts line ∧
    texts.map (natural? 10) = [some a.size, some a.count, some (min (a.size * a.count) maxCount)]

/-- The lines above the summary. -/
inductive IsBody (s : Shipment) : List (List Char) → Prop where
  | nothing : s.packs = [] → IsBody s [" Nothing to ship.".toList]
  | grid {widths : List Nat} {top header rule bottom : List Char} {rows : List (List Char)} :
      s.packs ≠ [] → Aligned (top :: header :: rule :: rows ++ [bottom]) →
      IsRow widths ["Pack Size".toList, "Count".toList, "Units".toList] header →
      List.Forall₂ (IsPackRow widths) rows s.packs →
      IsBody s (top :: header :: rule :: rows ++ [bottom])

/-- The line has this label and this number. -/
def Labels (line : List Char) (entry : String × Int) : Prop :=
  ∃ value, pieces ':' line = [' ' :: entry.1.toList, value] ∧ integer? 10 (trim value) = some entry.2

structure IsSummary (s : Shipment) (lines : List (List Char)) : Prop where
  aligned : Aligned lines
  told : List.Forall₂ Labels lines [("Requested", s.requested), ("Shipped", (s.total : Int)),
    ("Surplus", (s.surplus : Int)), ("Packs", (s.packCount : Int))]

/-! ## Numbers -/

section Numbers

variable {x : Int} {n : Nat} {c : Char}

theorem isBlank_of_mem_int (h : c ∈ (toString x).toList) : isBlank c = false := by
  rcases mem_toString_int h with rfl | hd
  · rfl
  · exact not_isBlank_of_isDigit hd

theorem isBlank_of_mem_nat (h : c ∈ (toString n).toList) : isBlank c = false :=
  isBlank_of_mem_int (show c ∈ (toString (n : Int)).toList from h)

end Numbers

/-! ## The grid -/

theorem forall₂_zip {α β γ : Type} {R : α → β → Prop} {f : α → β → γ} {as : List α} {bs : List β}
    {S : α × β → γ → Prop} (h : List.Forall₂ R as bs) (hf : ∀ a b, R a b → S (a, b) (f a b)) :
    List.Forall₂ S (as.zip bs) (List.zipWith f as bs) := by
  induction h with
  | nil => exact .nil
  | cons hab _ ih => exact .cons (hf _ _ hab) ih

section Grid

variable {widths : List Nat} {cells : List (List Char)} {s : Shipment} {line : List Char}
  {a b : Allocation}

/-- A text that starts and ends with a character of its own, which is no mark of the frame. -/
structure IsCell (text : List Char) : Prop where
  first : ∀ c ∈ text.head?, isBlank c = false
  last : ∀ c ∈ text.getLast?, isBlank c = false
  mark : '│' ∉ text

theorem isRow_rowLine (h : Fits widths cells) (hne : cells ≠ []) (hcells : ∀ cell ∈ cells, IsCell cell) :
    IsRow widths cells (rowLine widths cells) := by
  have hzip : List.zipWith padCell widths cells ≠ [] := by
    cases h with
    | nil => exact absurd rfl hne
    | cons => exact List.cons_ne_nil _ _
  refine ⟨h.length_eq, _, pieces_rowLine (fun cell hc => (hcells cell hc).mark) hzip, ?_, ?_⟩
  · clear hne hzip
    induction h with
    | nil => rfl
    | @cons width cell widths cells hroom _ ih =>
      obtain ⟨hcell, hothers⟩ := List.forall_mem_cons.1 hcells
      rw [List.zipWith_cons_cons, List.map_cons, ih hothers,
        (isSetRight_padCell hroom).trim_eq hcell.first hcell.last]
  · exact forall₂_zip h fun _ _ => isSetRight_padCell

theorem isCell_toString (n : Nat) : IsCell (toString n).toList where
  first := fun _ hc => isBlank_of_mem_nat (List.mem_of_mem_head? hc)
  last := fun _ hc => isBlank_of_mem_nat (List.mem_of_mem_getLast? hc)
  mark := not_mem_toString_nat n (by decide)

theorem isCell_header : ∀ cell ∈ header, IsCell cell := by
  simp only [header, List.forall_mem_cons]
  refine ⟨⟨?_, ?_, ?_⟩, ⟨?_, ?_, ?_⟩, ⟨?_, ?_, ?_⟩, List.forall_mem_nil _⟩ <;> simp [isBlank]

theorem isPackRow_rowLine (h : Fits widths (row a)) : IsPackRow widths (rowLine widths (row a)) a := by
  refine ⟨row a, isRow_rowLine h (List.cons_ne_nil _ _) ?_, ?_⟩
  · simp only [row, List.forall_mem_cons]
    exact ⟨isCell_toString _, isCell_toString _, isCell_toString _, List.forall_mem_nil _⟩
  · simp only [row, List.map_cons, List.map_nil, natural?_toString]
    rfl

/-- A row tells of one pack, whatever the widths of its columns. -/
theorem rightUnique_isPackRow :
    Relator.RightUnique fun line a => ∃ widths, IsPackRow widths line a := by
  rintro line a b ⟨_, texts, ⟨-, cells, hcells, htrim, -⟩, hread⟩
    ⟨_, texts', ⟨-, cells', hcells', htrim', -⟩, hread'⟩
  rw [hcells] at hcells'
  obtain rfl : cells = cells' := (List.cons.inj (List.append_cancel_right hcells')).2
  rw [← htrim', htrim, hread] at hread'
  obtain ⟨hsize, hcount, -⟩ := by simpa using hread'
  cases a
  cases b
  simp_all

theorem isBody_bodyLines (s : Shipment) : IsBody s (ofShipment s).bodyLines := by
  rw [bodyLines]
  by_cases hs : s.packs = []
  · have hempty : (ofShipment s).packs.isEmpty = true := by simp [ofShipment, hs]
    rw [if_pos hempty]
    exact .nothing hs
  · have hne : ¬(ofShipment s).packs.isEmpty = true := by simp [ofShipment, hs]
    have hrows : ∀ cells ∈ s.packs.map row, cells.length = header.length := by
      simp [row, header]
    rw [if_neg hne]
    have hpacks : List.Forall₂ (IsPackRow (columnWidths header (s.packs.map row)))
        ((s.packs.map row).map (rowLine (columnWidths header (s.packs.map row)))) s.packs := by
      rw [List.map_map, List.forall₂_map_left_iff, List.forall₂_same]
      exact fun a ha => isPackRow_rowLine (fits_row hrows (List.mem_map_of_mem ha))
    exact .grid hs ⟨_, length_of_mem_gridLines hrows⟩
      (isRow_rowLine (fits_header hrows) (List.cons_ne_nil _ _) isCell_header) hpacks

end Grid

/-! ## The summary -/

section Summary

variable {s : Shipment}

theorem le_foldl_max {ns : List Nat} {start : Nat} :
    start ≤ ns.foldl max start ∧ ∀ n ∈ ns, n ≤ ns.foldl max start := by
  induction ns generalizing start with
  | nil => exact ⟨Nat.le_refl _, List.forall_mem_nil _⟩
  | cons n rest ih =>
    obtain ⟨hstart, hrest⟩ := @ih (max start n)
    rw [List.foldl_cons, List.forall_mem_cons]
    exact ⟨Nat.le_trans (Nat.le_max_left ..) hstart, Nat.le_trans (Nat.le_max_right ..) hstart, hrest⟩

theorem le_widest {text : List Char} {texts : List (List Char)} (h : text ∈ texts) :
    text.length ≤ widest texts :=
  le_foldl_max.2 _ (List.mem_map_of_mem h)

theorem aligned_summaryLines (r : Report) : Aligned r.summaryLines := by
  refine ⟨widest (r.summary.map Prod.fst) + 1 + widest (r.summary.map Prod.snd), ?_⟩
  refine List.forall_mem_map.2 fun entry he => ?_
  have hlabel := le_widest (List.mem_map_of_mem (f := Prod.fst) he)
  have hvalue := le_widest (List.mem_map_of_mem (f := Prod.snd) he)
  simp only [List.length_append, List.length_cons, List.length_rightpad, List.length_leftpad]
  omega

/-- A label with a colon, and a number to the right of its column. -/
theorem labels_padded (name : String) (x : Int) {label : List Char} {labelWidth valueWidth : Nat}
    (hlabel : label = ' ' :: name.toList ++ [':']) (hname : ':' ∉ name.toList) :
    Labels (label.rightpad labelWidth ' ' ++ ' ' :: (toString x).toList.leftpad valueWidth ' ')
      (name, x) := by
  let blanks := List.replicate (labelWidth - label.length) ' ' ++
    ' ' :: List.replicate (valueWidth - (toString x).toList.length) ' '
  have hblanks : AllBlank blanks := by
    intro c hc
    have hspace : c = ' ' := by
      simp only [blanks, List.mem_append, List.mem_cons, List.mem_replicate] at hc
      rcases hc with h | h | h <;> simp_all
    rw [hspace]
    rfl
  have htrim : trim (blanks ++ (toString x).toList) = (toString x).toList := by
    have h : IsTrimmed (blanks ++ (toString x).toList ++ []) (toString x).toList :=
      isTrimmed_of_blanks hblanks (List.forall_mem_nil _) fun _ => isBlank_of_mem_int
    rw [List.append_nil] at h
    exact h.eq_trim.symm
  refine ⟨blanks ++ (toString x).toList, (eq_pieces_iff.2 ⟨by simp, ?_, ?_⟩).symm, ?_⟩
  · simp only [List.forall_mem_cons]
    refine ⟨by simpa using hname, ?_, List.forall_mem_nil _⟩
    rw [List.mem_append, not_or]
    constructor
    · exact fun h => absurd (hblanks _ h) (by decide)
    · exact not_mem_toString_int x (by decide) (by decide)
  · simp [hlabel, blanks, List.rightpad, List.leftpad, List.intercalate_cons_cons]
  · rw [htrim, integer?_toString]

theorem isSummary_summaryLines (s : Shipment) : IsSummary s (ofShipment s).summaryLines where
  aligned := aligned_summaryLines _
  told := by
    refine .cons (labels_padded "Requested" s.requested (by decide) (by decide)) ?_
    refine .cons (labels_padded "Shipped" s.total (by decide) (by decide)) ?_
    refine .cons (labels_padded "Surplus" s.surplus (by decide) (by decide)) ?_
    exact .cons (labels_padded "Packs" s.packCount (by decide) (by decide)) .nil

/-- A line has one label and one number. -/
theorem rightUnique_labels : Relator.RightUnique Labels := by
  rintro line entry other ⟨value, hcut, hread⟩ ⟨value', hcut', hread'⟩
  rw [hcut] at hcut'
  obtain ⟨hname, rfl⟩ : entry.1.toList = other.1.toList ∧ value = value' := by simpa using hcut'
  rw [hread] at hread'
  exact Prod.ext (String.toList_injective hname) (Option.some.inj hread')

end Summary

/-! ## Reports -/

section Reports

variable {s other : Shipment}

theorem newline_not_mem_bodyLines (s : Shipment) :
    ∀ line ∈ (ofShipment s).bodyLines, '\n' ∉ line := by
  rw [bodyLines]
  split
  · exact List.forall_mem_singleton.2 (by decide)
  · refine newline_not_mem_gridLines (by decide) (List.forall_mem_map.2 fun a _ => ?_)
    have hnumber : ∀ n : Nat, '\n' ∉ (toString n).toList := fun n =>
      not_mem_toString_nat n (by decide)
    simp only [row, List.forall_mem_cons]
    exact ⟨hnumber _, hnumber _, hnumber _, List.forall_mem_nil _⟩

theorem newline_not_mem_summaryLines (r : Report) : ∀ line ∈ r.summaryLines, '\n' ∉ line := by
  refine List.forall_mem_map.2 fun entry he => ?_
  have hnumber : ∀ x : Int, '\n' ∉ (toString x).toList := fun x =>
    not_mem_toString_int x (by decide) (by decide)
  have hentry : '\n' ∉ entry.1 ∧ '\n' ∉ entry.2 := by
    simp only [summary, List.mem_cons, List.not_mem_nil, or_false] at he
    rcases he with rfl | rfl | rfl | rfl
    · exact ⟨show '\n' ∉ " Requested:".toList by decide, hnumber r.requested⟩
    · exact ⟨show '\n' ∉ " Shipped:".toList by decide, hnumber r.shipped⟩
    · exact ⟨show '\n' ∉ " Surplus:".toList by decide, hnumber r.surplus⟩
    · exact ⟨show '\n' ∉ " Packs:".toList by decide, hnumber r.packCount⟩
  simp [List.rightpad, List.leftpad, hentry]

theorem pieces_table (s : Shipment) :
    pieces '\n' ((ofShipment s).render .table).toList =
      [] :: ((ofShipment s).bodyLines ++ (ofShipment s).summaryLines) ++ [[]] := by
  rw [render, table, String.toList_ofList, List.cons_append, pieces_ended]
  rw [List.forall_mem_cons, List.forall_mem_append]
  exact ⟨List.not_mem_nil, newline_not_mem_bodyLines s, newline_not_mem_summaryLines _⟩

theorem IsBody.packs_eq {lines : List (List Char)} (h : IsBody s lines) (ho : IsBody other lines) :
    s.packs = other.packs := by
  cases h with
  | nothing hs =>
    cases ho with
    | nothing ho => rw [hs, ho]
  | @grid widths _ _ _ _ rows hs _ _ hrows =>
    generalize hlines : _ :: _ :: _ :: rows ++ [_] = lines at ho
    cases ho with
    | nothing => simp at hlines
    | grid ho _ _ hrows' =>
      simp only [List.cons_append, List.cons.injEq] at hlines
      obtain ⟨rfl, -⟩ := List.append_inj' hlines.2.2.2 rfl
      exact List.right_unique_forall₂' rightUnique_isPackRow (hrows.imp fun _ _ h => ⟨_, h⟩)
        (hrows'.imp fun _ _ h => ⟨_, h⟩)

theorem IsSummary.eq {lines : List (List Char)} (h : IsSummary s lines) (ho : IsSummary other lines) :
    s.requested = other.requested ∧ s.total = other.total := by
  have hentries := List.right_unique_forall₂' rightUnique_labels h.told ho.told
  simp only [List.cons.injEq, Prod.mk.injEq, true_and, Int.ofNat_inj] at hentries
  exact ⟨hentries.1, hentries.2.1⟩

theorem length_summaryLines (r : Report) : r.summaryLines.length = 4 := by
  simp [summaryLines, summary]

theorem table_injective : Function.Injective fun s : Shipment => (ofShipment s).render .table := by
  intro s other h
  have hlines := pieces_table s
  rw [show (ofShipment s).render .table = (ofShipment other).render .table from h,
    pieces_table other] at hlines
  have hall := (List.cons.inj (List.append_cancel_right hlines)).2
  have hlength : (ofShipment other).summaryLines.length = (ofShipment s).summaryLines.length := by
    rw [length_summaryLines, length_summaryLines]
  obtain ⟨hbody, hsummary⟩ := List.append_inj' hall hlength
  have hpacks := (isBody_bodyLines s).packs_eq (hbody ▸ isBody_bodyLines other)
  have hnumbers := (isSummary_summaryLines s).eq (hsummary ▸ isSummary_summaryLines other)
  cases s
  cases other
  simp_all

/-- **The report of a shipment loses nothing.** After an empty line it has the lines of the grid, or of
what stands for it, and those of the summary; all numbers can be read off them again. So a report is
that of one shipment only. -/
theorem table_read_back :
    (∀ s : Shipment, ∃ body summary,
      pieces '\n' ((ofShipment s).render .table).toList = [] :: (body ++ summary) ++ [[]] ∧
        IsBody s body ∧ IsSummary s summary) ∧
    Function.Injective fun s : Shipment => (ofShipment s).render .table :=
  ⟨fun s => ⟨_, _, pieces_table s, isBody_bodyLines s, isSummary_summaryLines s⟩, table_injective⟩

end Reports

end Report
end PackPlan
