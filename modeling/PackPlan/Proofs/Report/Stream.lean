import PackPlan.Proofs.Shipment.RoundTrip
import PackPlan.Proofs.Text.Pieces
import PackPlan.Report

/-!
# PackPlan.Proofs.Report.Stream

Reports for a program, one after another. A document holds no line break (`newline_not_mem_document`),
so a stream of reports is cut at its line breaks into one document for each shipment. `Report.ofJson`
reads a document as any program may that knows the five members of a report, with the readers that
settings and shipments are read by; what is written is read as the report that was written
(`ofJson_document`).
-/

namespace PackPlan

open Json Document Numeral

namespace Report

/-! ## Reading a document -/

structure Draft where
  requested : Option Int
  shipped : Option Nat
  surplus : Option Nat
  packCount : Option Nat
  packs : Option (List Allocation)

def title : String := "report"

def Draft.complete (d : Draft) : Except Problem Report :=
  match d.requested, d.shipped, d.surplus, d.packCount, d.packs with
  | some requested, some shipped, some surplus, some packCount, some packs =>
    .ok ⟨requested, shipped, surplus, packCount, packs⟩
  | none, _, _, _, _ => .error (.missingField "requested")
  | _, none, _, _, _ => .error (.missingField "shipped")
  | _, _, none, _, _ => .error (.missingField "surplus")
  | _, _, _, none, _ => .error (.missingField "pack_count")
  | _, _, _, _, none => .error (.missingField "packs")

/-- A report is an object that has each of the five members once and no others. -/
def jsonRecord : Json.Record Draft Report where
  title := title
  fields := [
    .plain "requested" (fun d => d.requested.isSome) quantity fun d q =>
      { d with requested := some q },
    .plain "shipped" (fun d => d.shipped.isSome) (count "u64") fun d n =>
      { d with shipped := some n },
    .plain "surplus" (fun d => d.surplus.isSome) (count "u64") fun d n =>
      { d with surplus := some n },
    .plain "pack_count" (fun d => d.packCount.isSome) (count "u64") fun d n =>
      { d with packCount := some n },
    .plain "packs" (fun d => d.packs.isSome) (list Allocation.jsonRecord.read) fun d packs =>
      { d with packs := some packs }]
  strict := true
  blank := ⟨none, none, none, none, none⟩
  ofObject := Draft.complete
  ofList := fun n _ => .error (.tooShort n title)

def ofJson (text : String) : Except Failure Report := decode jsonRecord.read text

/-- The numbers of a report fit 64 bits. -/
structure IsInRange (r : Report) : Prop where
  requested : IsQuantity r.requested
  shipped : r.shipped ≤ maxCount
  surplus : r.surplus ≤ maxCount
  packCount : r.packCount ≤ maxCount
  packs : ∀ a ∈ r.packs, a.IsInRange

theorem hasWholeFields_jsonRecord : jsonRecord.HasWholeFields := by
  intro f hf state
  simp only [jsonRecord, List.mem_cons, List.not_mem_nil, or_false] at hf
  rcases hf with rfl | rfl | rfl | rfl | rfl
  · exact Field.plain_whole whole_integer
  · exact Field.plain_whole whole_count
  · exact Field.plain_whole whole_count
  · exact Field.plain_whole whole_count
  · exact Field.plain_whole (Whole.list (Record.whole Allocation.hasWholeFields_jsonRecord))

section Document

variable {r : Report}

def packTokens (r : Report) : List Token := listTokens (r.packs.map Allocation.tokens)

/-- The members that are written. -/
def members (r : Report) : List Member :=
  [.plain "requested" (numeral r.requested), .plain "shipped" (numeral r.shipped),
    .plain "surplus" (numeral r.surplus), .plain "pack_count" (numeral r.packCount),
    .plain "packs" r.packTokens]

theorem isValue_packTokens (r : Report) : IsValue r.packTokens := by
  refine .list fun row hrow => ?_
  obtain ⟨a, -, rfl⟩ := List.mem_map.1 hrow
  exact a.shows_tokens.isValue

theorem isValue_members (r : Report) : ∀ m ∈ r.members, IsValue m.value := by
  simp [members, isValue_numeral, isValue_packTokens]

theorem spells_document (r : Report) : Spells (objectTokens r.members) r.document.toList := by
  have hpacks : List.Forall₂ (fun row text => Spells row text.toList)
      (r.packs.map Allocation.tokens) (r.packs.map Allocation.json) :=
    forall₂_map fun a _ => a.spells_json
  exact spells_object (.cons (.mk (by decide) (spells_numeral _))
    (.cons (.mk (by decide) (spells_numeral_nat _))
      (.cons (.mk (by decide) (spells_numeral_nat _))
        (.cons (.mk (by decide) (spells_numeral_nat _))
          (.cons (.mk (by decide) (spells_array hpacks)) .nil)))))

theorem takes_packTokens (h : r.IsInRange) :
    Takes (list Allocation.jsonRecord.read) r.packTokens r.packs := by
  refine takes_list (Record.whole Allocation.hasWholeFields_jsonRecord) ?_ ?_
  · intro row hrow
    obtain ⟨a, -, rfl⟩ := List.mem_map.1 hrow
    exact a.shows_tokens.isValue
  · rw [List.forall₂_map_left_iff, List.forall₂_same]
    exact fun a ha => a.shows_tokens.takes (h.packs a ha)

/-- Each member is put into the draft as it comes. -/
theorem steps_members (h : r.IsInRange) :
    jsonRecord.Steps r.members jsonRecord.blank
      ⟨some r.requested, some r.shipped, some r.surplus, some r.packCount, some r.packs⟩ := by
  refine .cons (Member.content?_plain _ _)
    (.field rfl rfl (Field.plain_takes (takes_quantity h.requested))) ?_
  refine .cons (Member.content?_plain _ _)
    (.field rfl rfl (Field.plain_takes (takes_count_numeral h.shipped))) ?_
  refine .cons (Member.content?_plain _ _)
    (.field rfl rfl (Field.plain_takes (takes_count_numeral h.surplus))) ?_
  refine .cons (Member.content?_plain _ _)
    (.field rfl rfl (Field.plain_takes (takes_count_numeral h.packCount))) ?_
  exact .cons (Member.content?_plain _ _)
    (.field rfl rfl (Field.plain_takes (takes_packTokens h))) .nil

theorem ofJson_document (h : r.IsInRange) : ofJson r.document = .ok r := by
  have htakes : Takes jsonRecord.read (objectTokens r.members) r :=
    Record.takes_object hasWholeFields_jsonRecord r.isValue_members (steps_members h) rfl
  exact htakes.decode (.object r.isValue_members) r.spells_document

end Document

/-! ## One line for each report -/

section Lines

theorem newline_not_mem_array {items : List String} (h : ∀ item ∈ items, '\n' ∉ item.toList) :
    '\n' ∉ (array items).toList := by
  have hitems : '\n' ∉ [','].intercalate (items.map String.toList) :=
    Text.not_mem_intercalate (by decide) (List.forall_mem_map.2 h)
  simpa [array, String.toList_intercalate] using hitems

/-- The names of the members are written as they are. -/
theorem newline_not_mem_object {members : List (String × String)}
    (hnames : (members.map Prod.fst).all isPlain = true)
    (h : ∀ m ∈ members, '\n' ∉ m.2.toList) : '\n' ∉ (object members).toList := by
  have hmembers : '\n' ∉ [','].intercalate
      ((members.map fun m => member m.1 m.2).map String.toList) := by
    refine Text.not_mem_intercalate (by decide) ?_
    rw [List.map_map]
    refine List.forall_mem_map.2 fun m hm => ?_
    have hname : '\n' ∉ m.1.toList := fun hn =>
      absurd (List.all_eq_true.1 (List.all_eq_true.1 hnames _ (List.mem_map_of_mem hm)) _ hn)
        (by decide)
    simpa [member, hname] using h m hm
  simpa [object, String.toList_intercalate] using hmembers

theorem newline_not_mem_allocation (a : Allocation) : '\n' ∉ a.json.toList :=
  newline_not_mem_object (show ["size", "count"].all isPlain = true by decide)
    (List.forall_mem_cons.2 ⟨not_mem_toString_nat _ (by decide),
      List.forall_mem_singleton.2 (not_mem_toString_nat _ (by decide))⟩)

/-- A document is one line. -/
theorem newline_not_mem_document (r : Report) : '\n' ∉ r.document.toList := by
  have hnames : ["requested", "shipped", "surplus", "pack_count", "packs"].all isPlain = true := by
    decide
  have hnumber : ∀ n : Nat, '\n' ∉ (toString n).toList := fun n =>
    not_mem_toString_nat n (by decide)
  refine newline_not_mem_object hnames
    (List.forall_mem_cons.2 ⟨not_mem_toString_int _ (by decide) (by decide), ?_⟩)
  refine List.forall_mem_cons.2 ⟨hnumber _, ?_⟩
  refine List.forall_mem_cons.2 ⟨hnumber _, ?_⟩
  refine List.forall_mem_cons.2 ⟨hnumber _, ?_⟩
  refine List.forall_mem_singleton.2 (newline_not_mem_array (List.forall_mem_map.2 fun a _ => ?_))
  exact newline_not_mem_allocation a

end Lines

/-! ## Streams -/

/-- The reports of some shipments, one after another. -/
def stream (ss : List Shipment) : String :=
  String.join (ss.map fun s => (ofShipment s).render .json)

/-- The report says of the shipment what was asked for, what goes out, and in which packs. -/
structure Tells (r : Report) (s : Shipment) : Prop where
  requested : r.requested = s.requested
  shipped : r.shipped = s.total
  surplus : r.surplus = s.surplus
  packCount : r.packCount = s.packCount
  packs : r.packs = s.packs

/-- The numbers of a shipment and of its report fit 64 bits. -/
def IsReported (s : Shipment) : Prop := s.IsInRange ∧ s.packCount ≤ maxCount

variable {s : Shipment} {ss others : List Shipment}

theorem tells_ofShipment (s : Shipment) : (ofShipment s).Tells s := ⟨rfl, rfl, rfl, rfl, rfl⟩

theorem Tells.unique {r : Report} {other : Shipment} (h : r.Tells s) (ho : r.Tells other) :
    s = other := by
  cases s
  cases other
  simp only [Shipment.mk.injEq]
  exact ⟨h.requested.symm.trans ho.requested, h.shipped.symm.trans ho.shipped,
    h.packs.symm.trans ho.packs⟩

theorem IsReported.isInRange (h : IsReported s) : (ofShipment s).IsInRange where
  requested := h.1.requested
  shipped := h.1.total
  surplus := Nat.le_trans (Nat.sub_le _ _) h.1.total
  packCount := h.2
  packs := h.1.packs

/-- The line of a shipment in a stream. -/
def line (s : Shipment) : List Char := (ofShipment s).document.toList

theorem toList_stream (ss : List Shipment) :
    (stream ss).toList = (ss.map line).flatMap fun line => line ++ ['\n'] := by
  rw [stream, String.toList_join, List.flatMap_map, List.flatMap_map]
  refine List.flatMap_congr fun s _ => ?_
  simp [render, json, line]

theorem pieces_stream (ss : List Shipment) :
    Text.pieces '\n' (stream ss).toList = ss.map line ++ [[]] := by
  rw [toList_stream]
  exact Text.pieces_ended (List.forall_mem_map.2 fun s _ => newline_not_mem_document _)

/-- A line is the document of one shipment: it is read as a report that tells of it. -/
def Documents (line : List Char) (s : Shipment) : Prop :=
  ∃ r, ofJson (String.ofList line) = .ok r ∧ r.Tells s

theorem documents_line (h : IsReported s) : Documents (line s) s := by
  refine ⟨_, ?_, tells_ofShipment s⟩
  rw [line, String.ofList_toList]
  exact ofJson_document h.isInRange

theorem rightUnique_documents : Relator.RightUnique Documents := by
  rintro line s other ⟨r, hr, htells⟩ ⟨r', hr', htells'⟩
  rw [hr] at hr'
  cases hr'
  exact htells.unique htells'

theorem documents_lines (h : ∀ s ∈ ss, IsReported s) :
    List.Forall₂ Documents (ss.map line) ss := by
  rw [List.forall₂_map_left_iff, List.forall₂_same]
  exact fun s hs => documents_line (h s hs)

/-- **A stream of reports is read back.** Cut at its line breaks it has one line for each shipment, in
order, and nothing after the last; each line is read as an object that tells of its shipment. So no
other shipments have this stream. -/
theorem stream_read_back (ss : List Shipment) (h : ∀ s ∈ ss, IsReported s) :
    (∃ lines, Text.pieces '\n' (stream ss).toList = lines ++ [[]] ∧
      List.Forall₂ Documents lines ss) ∧
    ∀ others, (∀ s ∈ others, IsReported s) → stream others = stream ss → others = ss := by
  refine ⟨⟨_, pieces_stream ss, documents_lines h⟩, fun others ho heq => ?_⟩
  have hlines : others.map line = ss.map line := by
    have hpieces := pieces_stream others
    rw [heq, pieces_stream ss] at hpieces
    exact (List.append_cancel_right hpieces).symm
  have hleft := documents_lines ho
  rw [hlines] at hleft
  exact List.right_unique_forall₂' rightUnique_documents hleft (documents_lines h)

/-- No shipment for a quantity below zero, the largest numbers there are, and a shipment whose packs
do not add up to its total. -/
theorem stream_read_back_extreme :
    let ss : List Shipment := [⟨minQuantity, 0, []⟩, ⟨maxQuantity, maxCount, [⟨maxCount, maxCount⟩]⟩,
      ⟨12001, 12250, [⟨5000, 2⟩, ⟨2000, 1⟩]⟩]
    (∀ s ∈ ss, IsReported s) ∧ ∃ lines, Text.pieces '\n' (stream ss).toList = lines ++ [[]] ∧
      List.Forall₂ Documents lines ss := by
  have h : ∀ s ∈ ([⟨minQuantity, 0, []⟩, ⟨maxQuantity, maxCount, [⟨maxCount, maxCount⟩]⟩,
      ⟨12001, 12250, [⟨5000, 2⟩, ⟨2000, 1⟩]⟩] : List Shipment), IsReported s := by
    have hpack : ∀ size count, size ≤ maxCount → count ≤ maxCount →
        Allocation.IsInRange ⟨size, count⟩ := fun _ _ hs hc => ⟨hs, hc⟩
    refine List.forall_mem_cons.2 ⟨⟨⟨by decide, by decide, by simp⟩, by decide⟩, ?_⟩
    refine List.forall_mem_cons.2 ⟨⟨⟨by decide, by decide, ?_⟩, by decide⟩, ?_⟩
    · exact List.forall_mem_singleton.2 (hpack _ _ (by decide) (by decide))
    · refine List.forall_mem_singleton.2 ⟨⟨by decide, by decide, ?_⟩, by decide⟩
      exact List.forall_mem_cons.2 ⟨hpack _ _ (by decide) (by decide),
        List.forall_mem_singleton.2 (hpack _ _ (by decide) (by decide))⟩
  exact ⟨h, (stream_read_back _ h).1⟩

end Report
end PackPlan
