import PackPlan.Proofs.Json.Record
import PackPlan.Proofs.Json.Writer
import PackPlan.Shipment.Json

/-!
# PackPlan.Proofs.Shipment.RoundTrip

Writing shipments in JSON and reading them again. `Shipment.Shows` lists the values that show a
shipment: an object that has each field once, in any order and among any other members, or the list of
the fields, and the same for each of its packs. Whatever value shows a shipment, and with whatever
spaces it is written, it is read as this shipment (`Shows.takes`), and what is written for a shipment
spells one of them (`shows_tokens`, `spells_json`). An object in which a field is missing or stands
twice is read as none (`not_takes_of_count`).
-/

namespace PackPlan

open Json

namespace Allocation

/-- The size and the count are in range. -/
structure IsInRange (a : Allocation) : Prop where
  size : a.size ≤ maxCount
  count : a.count ≤ maxCount

/-- The values that show an allocation. -/
inductive Shows (a : Allocation) : List Token → Prop where
  | object {members : List Member} :
      (∀ m ∈ members, IsValue m.value) → (∀ m ∈ members, ∃ name, Piece.content? m.name = some name) →
      valuesOf "size" members = [numeral a.size] → valuesOf "count" members = [numeral a.count] →
      Shows a (objectTokens members)
  | list : Shows a (listTokens [numeral a.size, numeral a.count])

theorem hasWholeFields_jsonRecord : jsonRecord.HasWholeFields := by
  intro f hf state
  simp only [jsonRecord, List.mem_cons, List.not_mem_nil, or_false] at hf
  rcases hf with rfl | rfl <;> exact Field.plain_whole whole_count

theorem tracks_jsonRecord : jsonRecord.Tracks where
  names := by decide
  blank := by
    intro f hf
    simp only [jsonRecord, List.mem_cons, List.not_mem_nil, or_false] at hf
    rcases hf with rfl | rfl <;> rfl
  read := by
    intro f hf state ts next rest h g hg
    simp only [jsonRecord, List.mem_cons, List.not_mem_nil, or_false] at hf hg
    rcases hf with rfl | rfl <;>
    · obtain ⟨x, -, rfl⟩ := Field.plain_eq_ok.1 h
      rcases hg with rfl | rfl <;> simp [Field.plain]

/-- What is given is what the allocation has. -/
def Draft.Agrees (d : Draft) (a : Allocation) : Prop :=
  (∀ n ∈ d.size, n = a.size) ∧ ∀ n ∈ d.count, n = a.count

section Shows

variable {a : Allocation} {ts : List Token}

theorem Shows.isValue (h : a.Shows ts) : IsValue ts := by
  cases h with
  | object hmembers => exact .object hmembers
  | list => exact .list (by simp [isValue_numeral])

theorem Shows.takes (h : a.Shows ts) (ha : a.IsInRange) : Takes jsonRecord.read ts a := by
  have hsize : Takes (Json.count "u64") (numeral a.size) a.size := takes_count_numeral ha.size
  have hcount : Takes (Json.count "u64") (numeral a.count) a.count := takes_count_numeral ha.count
  cases h with
  | @object members hmembers hnames hs hc =>
    refine Record.takes_all_members hasWholeFields_jsonRecord tracks_jsonRecord rfl
      (P := fun d => d.Agrees a) ?_ hmembers hnames ?_ ?_
    · exact ⟨by simp [jsonRecord], by simp [jsonRecord]⟩
    · intro f hf
      simp only [jsonRecord, List.mem_cons, List.not_mem_nil, or_false] at hf
      rcases hf with rfl | rfl
      · exact ⟨_, hs, fun d hd => ⟨_, Field.plain_takes hsize, by simp, hd.2⟩⟩
      · exact ⟨_, hc, fun d hd => ⟨_, Field.plain_takes hcount, hd.1, by simp⟩⟩
    · intro d hd hgiven
      simp only [jsonRecord, Field.plain, List.forall_mem_cons, Option.isSome_iff_exists] at hgiven
      obtain ⟨⟨size, hsize⟩, ⟨count, hcount⟩, -⟩ := hgiven
      obtain rfl := hd.1 size hsize
      obtain rfl := hd.2 count hcount
      simp only [jsonRecord, hsize, hcount]
  | list =>
    have hfills : Fills jsonRecord.fields [numeral a.size, numeral a.count] jsonRecord.blank
        ⟨some a.size, some a.count⟩ :=
      .cons (Field.plain_takes hsize) (.cons (Field.plain_takes hcount) .nil)
    exact Record.takes_list hasWholeFields_jsonRecord (by simp [isValue_numeral]) hfills rfl

end Shows

/-- The value that is written. -/
def tokens (a : Allocation) : List Token :=
  objectTokens [.plain "size" (numeral a.size), .plain "count" (numeral a.count)]

theorem shows_tokens (a : Allocation) : a.Shows a.tokens := by
  refine .object (by simp [isValue_numeral]) (by simp) ?_ ?_
  · simp [valuesOf]
  · simp [valuesOf]

theorem spells_json (a : Allocation) : Spells a.tokens a.json.toList :=
  spells_object (.cons (.mk (by decide) (spells_numeral_nat a.size))
    (.cons (.mk (by decide) (spells_numeral_nat a.count)) .nil))

end Allocation

namespace Shipment

/-- The numbers of a shipment fit 64 bits. -/
structure IsInRange (s : Shipment) : Prop where
  requested : IsQuantity s.requested
  total : s.total ≤ maxCount
  packs : ∀ a ∈ s.packs, a.IsInRange

/-- The values that show a shipment. -/
inductive Shows (s : Shipment) : List Token → Prop where
  | object {members : List Member} {packs : List (List Token)} :
      (∀ m ∈ members, IsValue m.value) → (∀ m ∈ members, ∃ name, Piece.content? m.name = some name) →
      valuesOf "requested" members = [numeral s.requested] →
      valuesOf "total" members = [numeral s.total] → valuesOf "packs" members = [listTokens packs] →
      List.Forall₂ Allocation.Shows s.packs packs → Shows s (objectTokens members)
  | list {packs : List (List Token)} :
      List.Forall₂ Allocation.Shows s.packs packs →
      Shows s (listTokens [numeral s.requested, numeral s.total, listTokens packs])

theorem hasWholeFields_jsonRecord : jsonRecord.HasWholeFields := by
  intro f hf state
  simp only [jsonRecord, List.mem_cons, List.not_mem_nil, or_false] at hf
  rcases hf with rfl | rfl | rfl
  · exact Field.plain_whole whole_integer
  · exact Field.plain_whole whole_count
  · exact Field.plain_whole (Whole.list (Record.whole Allocation.hasWholeFields_jsonRecord))

theorem tracks_jsonRecord : jsonRecord.Tracks where
  names := by decide
  blank := by
    intro f hf
    simp only [jsonRecord, List.mem_cons, List.not_mem_nil, or_false] at hf
    rcases hf with rfl | rfl | rfl <;> rfl
  read := by
    intro f hf state ts next rest h g hg
    simp only [jsonRecord, List.mem_cons, List.not_mem_nil, or_false] at hf hg
    rcases hf with rfl | rfl | rfl <;>
    · obtain ⟨x, -, rfl⟩ := Field.plain_eq_ok.1 h
      rcases hg with rfl | rfl | rfl <;> simp [Field.plain]

def Draft.Agrees (d : Draft) (s : Shipment) : Prop :=
  (∀ q ∈ d.requested, q = s.requested) ∧ (∀ n ∈ d.total, n = s.total) ∧
    ∀ packs ∈ d.packs, packs = s.packs

section Shows

variable {s : Shipment} {ts : List Token} {packs : List (List Token)}

theorem isValue_packs (h : List.Forall₂ Allocation.Shows s.packs packs) :
    ∀ row ∈ packs, IsValue row := by
  intro row hrow
  obtain ⟨i, hi, rfl⟩ := List.getElem_of_mem hrow
  exact (h.get (h.length_eq ▸ hi) hi).isValue

theorem takes_packs {allocations : List Allocation} (h : List.Forall₂ Allocation.Shows allocations packs)
    (hrange : ∀ a ∈ allocations, a.IsInRange) :
    List.Forall₂ (Takes Allocation.jsonRecord.read) packs allocations := by
  induction h with
  | nil => exact .nil
  | cons hrow _ ih =>
    obtain ⟨ha, hothers⟩ := List.forall_mem_cons.1 hrange
    exact .cons (hrow.takes ha) (ih hothers)

theorem Shows.isValue (h : s.Shows ts) : IsValue ts := by
  cases h with
  | object hmembers => exact .object hmembers
  | list hpacks =>
    have hvalue : IsValue (listTokens _) := .list (isValue_packs hpacks)
    exact .list (by simp [isValue_numeral, hvalue])

theorem Shows.takes (h : s.Shows ts) (hs : s.IsInRange) : Takes jsonRecord.read ts s := by
  have hrequested : Takes quantity (numeral s.requested) s.requested := takes_quantity hs.requested
  have htotal : Takes (count "u64") (numeral s.total) s.total := takes_count_numeral hs.total
  have hlist : ∀ {packs}, List.Forall₂ Allocation.Shows s.packs packs →
      Takes (Json.list Allocation.jsonRecord.read) (listTokens packs) s.packs := fun hp =>
    takes_list (Record.whole Allocation.hasWholeFields_jsonRecord) (isValue_packs hp)
      (takes_packs hp hs.packs)
  cases h with
  | @object members packs hmembers hnames hr ht hp hpacks =>
    refine Record.takes_all_members hasWholeFields_jsonRecord tracks_jsonRecord rfl
      (P := fun d => d.Agrees s) ?_ hmembers hnames ?_ ?_
    · exact ⟨by simp [jsonRecord], by simp [jsonRecord], by simp [jsonRecord]⟩
    · intro f hf
      simp only [jsonRecord, List.mem_cons, List.not_mem_nil, or_false] at hf
      rcases hf with rfl | rfl | rfl
      · exact ⟨_, hr, fun d hd => ⟨_, Field.plain_takes hrequested, by simp, hd.2⟩⟩
      · exact ⟨_, ht, fun d hd => ⟨_, Field.plain_takes htotal, hd.1, by simp, hd.2.2⟩⟩
      · exact ⟨_, hp, fun d hd => ⟨_, Field.plain_takes (hlist hpacks), hd.1, hd.2.1, by simp⟩⟩
    · intro d hd hgiven
      simp only [jsonRecord, Field.plain, List.forall_mem_cons, Option.isSome_iff_exists] at hgiven
      obtain ⟨⟨q, hq⟩, ⟨n, hn⟩, ⟨packs, hpacks⟩, -⟩ := hgiven
      obtain rfl := hd.1 q hq
      obtain rfl := hd.2.1 n hn
      obtain rfl := hd.2.2 packs hpacks
      simp only [jsonRecord, hq, hn, hpacks]
  | @list packs hpacks =>
    have hvalue : IsValue (listTokens packs) := .list (isValue_packs hpacks)
    have hfills : Fills jsonRecord.fields [numeral s.requested, numeral s.total, listTokens packs]
        jsonRecord.blank ⟨some s.requested, some s.total, some s.packs⟩ :=
      .cons (Field.plain_takes hrequested) (.cons (Field.plain_takes htotal)
        (.cons (Field.plain_takes (hlist hpacks)) .nil))
    exact Record.takes_list hasWholeFields_jsonRecord (by simp [isValue_numeral, hvalue]) hfills rfl

end Shows

/-! ## What is written -/

/-- The value that is written. -/
def tokens (s : Shipment) : List Token :=
  objectTokens [.plain "requested" (numeral s.requested), .plain "total" (numeral s.total),
    .plain "packs" (listTokens (s.packs.map Allocation.tokens))]

theorem shows_tokens (s : Shipment) : s.Shows s.tokens := by
  have hpacks : List.Forall₂ Allocation.Shows s.packs (s.packs.map Allocation.tokens) := by
    rw [List.forall₂_map_right_iff, List.forall₂_same]
    exact fun a _ => a.shows_tokens
  have hvalue : IsValue (listTokens (s.packs.map Allocation.tokens)) := .list (isValue_packs hpacks)
  refine .object (by simp [isValue_numeral, hvalue]) (by simp) ?_ ?_ ?_ hpacks
  · simp [valuesOf]
  · simp [valuesOf]
  · simp [valuesOf]

theorem spells_json (s : Shipment) : Spells s.tokens s.json.toList := by
  have hpacks : List.Forall₂ (fun row text => Spells row text.toList)
      (s.packs.map Allocation.tokens) (s.packs.map Allocation.json) :=
    forall₂_map fun a _ => a.spells_json
  exact spells_object (.cons (.mk (by decide) (spells_numeral _))
    (.cons (.mk (by decide) (spells_numeral_nat _))
      (.cons (.mk (by decide) (spells_array hpacks)) .nil)))

/-! ## Fields that are not given once -/

theorem given_of_ofObject {d : Draft} {s : Shipment} (h : jsonRecord.ofObject d = .ok s) :
    ∀ f ∈ jsonRecord.fields, f.given d = true := by
  simp only [jsonRecord] at h
  split at h
  · rename_i hr ht hp
    simp [jsonRecord, Field.plain, hr, ht, hp]
  · cases h
  · cases h
  · cases h

theorem not_takes_of_count {members : List Member} (hmembers : ∀ m ∈ members, IsValue m.value)
    {name : String} (hname : name = "requested" ∨ name = "total" ∨ name = "packs")
    (hcount : (valuesOf name members).length ≠ 1) (s : Shipment) :
    ¬Takes jsonRecord.read (objectTokens members) s := by
  have hfield : ∃ f ∈ jsonRecord.fields, f.name = name := by
    simp only [jsonRecord, List.mem_cons, List.not_mem_nil, or_false]
    rcases hname with rfl | rfl | rfl
    · exact ⟨_, .inl rfl, rfl⟩
    · exact ⟨_, .inr (.inl rfl), rfl⟩
    · exact ⟨_, .inr (.inr rfl), rfl⟩
  obtain ⟨f, hf, rfl⟩ := hfield
  exact Record.not_takes_members hasWholeFields_jsonRecord tracks_jsonRecord
    (fun _ => given_of_ofObject) hmembers hf hcount

/-- **Shipments survive JSON.** What is written for a shipment is read as this shipment, and so is any
text that shows it in another way. No object that gives a field never or repeatedly is read. -/
theorem written_and_shown :
    (∀ s : Shipment, s.IsInRange →
      ofJson s.json = .ok s ∧ ∀ ts text, s.Shows ts → Spells ts text.toList → ofJson text = .ok s) ∧
    ∀ members text name, (∀ m ∈ members, IsValue m.value) →
      Spells (objectTokens members) text.toList →
        (name = "requested" ∨ name = "total" ∨ name = "packs") →
          (valuesOf name members).length ≠ 1 → ∃ e, ofJson text = .error e := by
  constructor
  · intro s hs
    have hread : ∀ ts text, s.Shows ts → Spells ts text.toList → ofJson text = .ok s :=
      fun ts text hshows htext => (hshows.takes hs).decode hshows.isValue htext
    exact ⟨hread _ _ s.shows_tokens s.spells_json, hread⟩
  · intro members text name hmembers htext hname hcount
    cases hread : ofJson text with
    | error e => exact ⟨e, rfl⟩
    | ok s =>
      have htakes := ((Record.whole hasWholeFields_jsonRecord).decode_iff (.object hmembers) htext).1
        hread
      exact absurd htakes (not_takes_of_count hmembers hname hcount s)

/-- Fields out of order, a pack as a list, a member of another name, and a space before it all; and an
object without the quantity. -/
theorem written_and_shown_mixed :
    ofJson " \x7b\"packs\":[[7,1]],\"note\":[null],\"total\":7,\"requested\":-5\x7d" =
        .ok ⟨-5, 7, [⟨7, 1⟩]⟩ ∧
      ∃ e, ofJson "\x7b\"total\":7\x7d" = .error e := by
  constructor
  · have hrange : IsInRange ⟨-5, 7, [⟨7, 1⟩]⟩ :=
      ⟨by decide, by decide, List.forall_mem_singleton.2 ⟨by decide, by decide⟩⟩
    have hpack : IsValue (listTokens [numeral 7, numeral 1]) := .list (by simp [isValue_numeral])
    have hpacks : IsValue (listTokens [listTokens [numeral 7, numeral 1]]) :=
      .list (List.forall_mem_singleton.2 hpack)
    have hnote : IsValue (listTokens [[.null]]) := .list (List.forall_mem_singleton.2 .null)
    refine (written_and_shown.1 _ hrange).2 (objectTokens
      [.plain "packs" (listTokens [listTokens [numeral 7, numeral 1]]),
        .plain "note" (listTokens [[.null]]), .plain "total" (numeral 7),
        .plain "requested" (numeral (-5))]) _ ?_ ?_
    · refine @Shows.object _ _ [listTokens [numeral 7, numeral 1]] ?_ ?_ ?_ ?_ ?_ ?_
      · simp [isValue_numeral, hpacks, hnote]
      · simp
      · simp [valuesOf]
      · simp [valuesOf]
      · simp [valuesOf]
      · exact .cons .list .nil
    · have hseven : Spells (numeral 7) "7".toList := spells_numeral 7
      have hlist : Spells (listTokens [numeral 7, numeral 1]) (array ["7", "1"]).toList :=
        spells_array (.cons hseven (.cons (spells_numeral 1) .nil))
      have hfirst : (Member.plain "packs" _).Writes ("packs", array [array ["7", "1"]]) :=
        .mk (by decide) (spells_array (.cons hlist .nil))
      have hsecond : (Member.plain "note" _).Writes ("note", array ["null"]) :=
        .mk (by decide) (spells_array (.cons (.single .null) .nil))
      have hthird : (Member.plain "total" _).Writes ("total", "7") := .mk (by decide) hseven
      have hfourth : (Member.plain "requested" _).Writes ("requested", "-5") :=
        .mk (by decide) (spells_numeral (-5))
      have hspace : AllSpace [' '] := List.forall_mem_singleton.2 rfl
      exact (spells_object (.cons hfirst (.cons hsecond (.cons hthird (.cons hfourth .nil))))).space
        hspace
  · refine written_and_shown.2 [.plain "total" (numeral 7)] _ "requested" ?_ ?_ (.inl rfl) ?_
    · exact List.forall_mem_singleton.2 (isValue_numeral 7)
    · have hmember : (Member.plain "total" (numeral 7)).Writes ("total", "7") :=
        .mk (by decide) (spells_numeral 7)
      exact spells_object (.cons hmember .nil)
    · simp [valuesOf]

end Shipment
end PackPlan
