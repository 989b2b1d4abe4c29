import Mathlib.Data.List.Forall2
import Mathlib.Data.List.Nodup
import PackPlan.Proofs.Json.Taking

/-!
# PackPlan.Proofs.Json.Record

What records are read from. An object is read member by member (`Record.Step`, `Record.Steps`) and a
list field by field (`Fills`); `Record.object_iff` and `Record.list_iff` say that nothing else makes a
difference, so a record whose fields are whole is whole (`Record.whole`). In a record that keeps
account of its fields (`Record.Tracks`) a field is given after some members exactly when it was before
or one of them names it, and no two do (`Record.Steps.count`). The other way round, members of which
no two name one field can be read whatever their order (`Record.exists_steps`).
-/

namespace PackPlan

/-! ## Items that go together -/

theorem exists_of_forall₂ {β γ : Type} {R : β → γ → Prop} {bs : List β} {cs : List γ}
    (h : List.Forall₂ R bs cs) : ∀ b ∈ bs, ∃ c ∈ cs, R b c := by
  induction h with
  | nil => exact List.forall_mem_nil _
  | cons hbc _ ih =>
    refine List.forall_mem_cons.2 ⟨⟨_, List.mem_cons_self, hbc⟩, fun b hb => ?_⟩
    obtain ⟨c, hc, hbc⟩ := ih b hb
    exact ⟨c, List.mem_cons_of_mem _ hc, hbc⟩

/-- What holds of the items that go together can be replaced by what follows from it for them. -/
theorem forall₂_of_mem {β γ : Type} {R S : β → γ → Prop} {bs : List β} {cs : List γ}
    (h : List.Forall₂ R bs cs) (himp : ∀ b ∈ bs, ∀ c ∈ cs, R b c → S b c) : List.Forall₂ S bs cs := by
  induction h with
  | nil => exact .nil
  | cons hbc _ ih =>
    refine .cons (himp _ List.mem_cons_self _ List.mem_cons_self hbc) (ih fun b hb c hc => ?_)
    exact himp b (List.mem_cons_of_mem _ hb) c (List.mem_cons_of_mem _ hc)

/-! ## Members -/

namespace Json

open Document

variable {σ α : Type}

/-- The values of the members with a name. -/
def valuesOf (name : String) (members : List Member) : List (List Token) :=
  (members.filter fun m => Piece.content? m.name == some name.toList).map Member.value

section ValuesOf

variable {n : String} {m : Member} {members : List Member}

theorem mem_valuesOf {value : List Token} :
    value ∈ valuesOf n members ↔
      ∃ m ∈ members, Piece.content? m.name = some n.toList ∧ m.value = value := by
  simp only [valuesOf, List.mem_map, List.mem_filter, beq_iff_eq, and_assoc]

theorem valuesOf_cons_self (h : Piece.content? m.name = some n.toList) (members : List Member) :
    valuesOf n (m :: members) = m.value :: valuesOf n members := by
  simp [valuesOf, h]

theorem valuesOf_cons_ne (h : Piece.content? m.name ≠ some n.toList) :
    valuesOf n (m :: members) = valuesOf n members := by
  simp [valuesOf, h]

end ValuesOf

namespace Record

/-- What a member with this name and value makes of a state. -/
inductive Step (r : Record σ α) (name : List Char) (value : List Token) : σ → σ → Prop where
  | field {f : Field σ} {state next : σ} :
      r.fields.find? (fun f => f.name.toList == name) = some f → f.given state = false →
      Takes (f.read state) value (.ok next) → Step r name value state next
  | other {state : σ} :
      r.fields.find? (fun f => f.name.toList == name) = none → r.strict = false →
      Step r name value state state

/-- What members make of a state, one after another. -/
inductive Steps (r : Record σ α) : List Member → σ → σ → Prop where
  | nil {state : σ} : Steps r [] state state
  | cons {m : Member} {members : List Member} {name : List Char} {state next last : σ} :
      Piece.content? m.name = some name → r.Step name m.value state next →
      Steps r members next last → Steps r (m :: members) state last

end Record

/-- What items make of a state, each put into the next of the fields. -/
inductive Fills : List (Field σ) → List (List Token) → σ → σ → Prop where
  | nil {fields : List (Field σ)} {state : σ} : Fills fields [] state state
  | cons {f : Field σ} {fields : List (Field σ)} {row : List Token} {rows : List (List Token)}
      {state next last : σ} :
      Takes (f.read state) row (.ok next) → Fills fields rows next last →
      Fills (f :: fields) (row :: rows) state last

theorem fills_nil_iff {fields : List (Field σ)} {state last : σ} :
    Fills fields [] state last ↔ last = state := by
  constructor
  · rintro ⟨⟩
    rfl
  · rintro rfl
    exact .nil

theorem fills_cons_iff {fields : List (Field σ)} {row : List Token} {rows : List (List Token)}
    {state last : σ} :
    Fills fields (row :: rows) state last ↔ ∃ f others next, fields = f :: others ∧
      Takes (f.read state) row (.ok next) ∧ Fills others rows next last := by
  constructor
  · rintro (_ | ⟨ht, hothers⟩)
    exact ⟨_, _, _, rfl, ht, hothers⟩
  · rintro ⟨f, others, next, rfl, ht, hothers⟩
    exact .cons ht hothers

/-- Each item is taken by the field that has its place. -/
theorem Fills.of_getElem? {fields : List (Field σ)} {rows : List (List Token)} {state last : σ}
    (h : Fills fields rows state last) {i : Nat} {row : List Token} (hrow : rows[i]? = some row) :
    ∃ f before after, fields[i]? = some f ∧ Takes (f.read before) row (.ok after) := by
  induction h generalizing i with
  | nil => cases hrow
  | cons ht _ ih =>
    cases i with
    | zero =>
      rw [List.getElem?_cons_zero, Option.some.injEq] at hrow
      exact ⟨_, _, _, rfl, hrow ▸ ht⟩
    | succ i => exact ih hrow

/-! ## Fields -/

section Plain

variable {name : String} {given : σ → Bool} {read : Reader α} {put : σ → α → σ} {state next : σ}

theorem Field.plain_eq_ok {ts left : List Placed} :
    (Field.plain name given read put).read state ts = .ok (.ok next, left) ↔
      ∃ x, read ts = .ok (x, left) ∧ next = put state x := by
  simp only [Field.plain]
  constructor
  · intro h
    split at h
    · cases h
    · rename_i x _ hread; cases h
      exact ⟨x, hread, rfl⟩
  · rintro ⟨x, hread, rfl⟩
    rw [hread]

theorem Field.plain_takes {ts : List Token} {x : α} (h : Takes read ts x) :
    Takes ((Field.plain name given read put).read state) ts (.ok (put state x)) :=
  fun ps rest hps => Field.plain_eq_ok.2 ⟨x, h ps rest hps, rfl⟩

theorem Field.plain_takes_iff {ts : List Token} (hw : Whole read) (hv : IsValue ts) :
    Takes ((Field.plain name given read put).read state) ts (.ok next) ↔
      ∃ x, Takes read ts x ∧ next = put state x := by
  constructor
  · intro h
    obtain ⟨x, hread, rfl⟩ := Field.plain_eq_ok.1 h.read_place
    rw [← List.append_nil (place ts)] at hread
    obtain ⟨hx, -⟩ := hw _ _ _ _ (by rwa [map_place]) hread
    rw [map_place] at hx
    exact ⟨x, hx, rfl⟩
  · rintro ⟨x, hx, rfl⟩
    exact Field.plain_takes hx

theorem Field.plain_whole (hw : Whole read) :
    Whole ((Field.plain name given read put).read state) := by
  intro ps rest r left hv h
  cases r with
  | error problem =>
    simp only [Field.plain] at h
    split at h <;> cases h
  | ok next =>
    obtain ⟨x, hread, rfl⟩ := Field.plain_eq_ok.1 h
    obtain ⟨ht, rfl⟩ := hw _ _ _ _ hv hread
    exact ⟨Field.plain_takes ht, rfl⟩

end Plain

namespace Record

variable {r : Record σ α} {members : List Member} {rows : List (List Token)} {state next : σ} {a : α}
  {ps rest left : List Placed}

/-- All fields are read as whole values. -/
def HasWholeFields (r : Record σ α) : Prop := ∀ f ∈ r.fields, ∀ state, Whole (f.read state)

/-! ## Objects -/

theorem member_iff (hw : r.HasWholeFields) {name : List Char} {p : Place}
    (hv : IsValue (ps.map Placed.token)) :
    r.member state name (⟨.colon, p⟩ :: (ps ++ rest)) = .ok (next, left) ↔
      r.Step name (ps.map Placed.token) state next ∧ left = rest := by
  have hskip : skip .value [] (ps ++ rest) = .ok rest := by
    rw [skip_value hv [] ps rest rfl, skip]
  constructor
  · intro h
    simp only [member, hskip] at h
    split at h
    · rename_i hnone
      split at h
      · cases h
      · rename_i hstrict; cases h
        exact ⟨.other hnone (eq_false_of_ne_true hstrict), rfl⟩
    · rename_i f hf
      split at h
      · cases h
      · rename_i hgiven
        split at h
        · cases h
        · cases h
        · rename_i hread; cases h
          obtain ⟨ht, rfl⟩ := hw f (List.mem_of_find?_eq_some hf) _ _ _ _ _ hv hread
          exact ⟨.field hf (eq_false_of_ne_true hgiven) ht, rfl⟩
  · rintro ⟨hstep, rfl⟩
    cases hstep with
    | field hf hgiven ht =>
      simp only [member, hf, hgiven, Bool.false_eq_true, if_false, ht ps _ rfl]
    | other hnone hstrict =>
      simp only [member, hnone, hstrict, Bool.false_eq_true, if_false, hskip]

/-- What reading members amounts to: one of them, and then the end or more of them. -/
theorem members_eq_ok {fuel : Nat} {pieces : List Piece} {p : Place} {after : List Placed} :
    r.members (fuel + 1) state (⟨.text pieces, p⟩ :: after) = .ok (a, left) ↔
      ∃ name next ends, Piece.content? pieces = some name ∧
        r.member state name after = .ok (next, ends) ∧
          ((∃ q, ends = ⟨.closeObject, q⟩ :: left ∧ r.ofObject next = .ok a) ∨
            ∃ q others, ends = ⟨.comma, q⟩ :: others ∧
              r.members fuel next others = .ok (a, left)) := by
  constructor
  · intro h
    simp only [members] at h
    split at h
    · cases h
    · rename_i name hname
      split at h
      · cases h
      · rename_i next q others hmember
        split at h
        · cases h
        · rename_i hofObject; cases h
          exact ⟨name, next, _, hname, hmember, .inl ⟨q, rfl, hofObject⟩⟩
      · rename_i next q others hmember
        exact ⟨name, next, _, hname, hmember, .inr ⟨q, others, rfl, h⟩⟩
      · cases h
  · rintro ⟨name, next, ends, hname, hmember, ⟨q, rfl, hofObject⟩ | ⟨q, others, rfl, hothers⟩⟩
    · simp only [members, hname, hmember, hofObject]
    · simp only [members, hname, hmember, hothers]

/-- The same, for the tokens of a member. -/
theorem members_step_iff (hw : r.HasWholeFields) {m : Member} (hm : IsValue m.value) {fuel : Nat}
    (hps : ps.map Placed.token = m.tokens) :
    r.members (fuel + 1) state (ps ++ rest) = .ok (a, left) ↔
      ∃ name next, Piece.content? m.name = some name ∧ r.Step name m.value state next ∧
        ((∃ q, rest = ⟨.closeObject, q⟩ :: left ∧ r.ofObject next = .ok a) ∨
          ∃ q others, rest = ⟨.comma, q⟩ :: others ∧ r.members fuel next others = .ok (a, left)) := by
  obtain ⟨⟨_, p⟩, marked, rfl, rfl, hmarked⟩ := List.map_eq_cons_iff.1 hps
  obtain ⟨⟨_, c⟩, qs, rfl, rfl, hqs⟩ := List.map_eq_cons_iff.1 hmarked
  rw [← hqs] at hm
  rw [List.cons_append, List.cons_append, members_eq_ok]
  simp only [member_iff hw hm, hqs]
  constructor
  · rintro ⟨name, next, _, hname, ⟨hstep, rfl⟩, hends⟩
    exact ⟨name, next, hname, hstep, hends⟩
  · rintro ⟨name, next, hname, hstep, hends⟩
    exact ⟨name, next, _, hname, ⟨hstep, rfl⟩, hends⟩

theorem members_iff (hw : r.HasWholeFields) {m : Member} (hm : IsValue m.value)
    (hmembers : ∀ m ∈ members, IsValue m.value) {fuel : Nat} (hfuel : members.length < fuel)
    (hps : ps.map Placed.token = m.tokens ++ more .closeObject (members.map Member.tokens)) :
    r.members fuel state (ps ++ rest) = .ok (a, left) ↔
      (∃ last, r.Steps (m :: members) state last ∧ r.ofObject last = .ok a) ∧ left = rest := by
  induction members generalizing m fuel ps state with
  | nil =>
    obtain ⟨fuel, rfl⟩ : ∃ n, fuel = n + 1 := ⟨fuel - 1, by omega⟩
    obtain ⟨qs, ends, rfl, hqs, hends⟩ := List.map_eq_append_iff.1 hps
    obtain ⟨⟨_, q⟩, rfl, rfl⟩ := List.map_eq_singleton_iff.1 hends
    rw [List.append_assoc, List.singleton_append, members_step_iff hw hm hqs]
    constructor
    · rintro ⟨name, last, hname, hstep, ⟨_, heq, hofObject⟩ | ⟨_, _, heq, -⟩⟩
      · cases heq
        exact ⟨⟨last, .cons hname hstep .nil, hofObject⟩, rfl⟩
      · cases heq
    · rintro ⟨⟨last, hsteps, hofObject⟩, rfl⟩
      cases hsteps with
      | cons hname hstep hnil =>
        cases hnil
        exact ⟨_, last, hname, hstep, .inl ⟨q, rfl, hofObject⟩⟩
  | cons n others ih =>
    obtain ⟨fuel, rfl⟩ : ∃ n, fuel = n + 1 := ⟨fuel - 1, by omega⟩
    obtain ⟨hn, hothers⟩ := List.forall_mem_cons.1 hmembers
    have hfuel' : others.length < fuel := by
      rw [List.length_cons] at hfuel
      omega
    obtain ⟨qs, ends, rfl, hqs, hends⟩ := List.map_eq_append_iff.1 hps
    rw [List.map_cons, more_cons] at hends
    obtain ⟨⟨_, q⟩, after, rfl, rfl, hafter⟩ := List.map_eq_cons_iff.1 hends
    rw [List.append_assoc, List.cons_append, members_step_iff hw hm hqs]
    constructor
    · rintro ⟨name, next, hname, hstep, ⟨_, heq, -⟩ | ⟨_, _, heq, hread⟩⟩
      · cases heq
      · cases heq
        obtain ⟨⟨last, hsteps, hofObject⟩, rfl⟩ := (ih hn hothers hfuel' hafter).1 hread
        exact ⟨⟨last, .cons hname hstep hsteps, hofObject⟩, rfl⟩
    · rintro ⟨⟨last, hsteps, hofObject⟩, rfl⟩
      cases hsteps with
      | cons hname hstep hsteps =>
        exact ⟨_, _, hname, hstep, .inr ⟨q, _, rfl,
          (ih hn hothers hfuel' hafter).2 ⟨⟨last, hsteps, hofObject⟩, rfl⟩⟩⟩

theorem object_iff (hw : r.HasWholeFields) (hmembers : ∀ m ∈ members, IsValue m.value)
    (hps : ps.map Placed.token = objectTokens members) :
    r.read (ps ++ rest) = .ok (a, left) ↔
      (∃ last, r.Steps members r.blank last ∧ r.ofObject last = .ok a) ∧ left = rest := by
  cases members with
  | nil =>
    obtain ⟨⟨_, p⟩, qs, rfl, rfl, hqs⟩ := List.map_eq_cons_iff.1 hps
    obtain ⟨⟨_, q⟩, rfl, rfl⟩ := List.map_eq_singleton_iff.1 hqs
    simp only [List.cons_append, List.nil_append, read]
    constructor
    · intro h
      split at h
      · cases h
      · rename_i hofObject; cases h
        exact ⟨⟨_, .nil, hofObject⟩, rfl⟩
    · rintro ⟨⟨last, hsteps, hofObject⟩, rfl⟩
      cases hsteps
      rw [hofObject]
  | cons m others =>
    obtain ⟨hm, hothers⟩ := List.forall_mem_cons.1 hmembers
    rw [objectTokens_cons] at hps
    obtain ⟨⟨_, p⟩, qs, rfl, rfl, hqs⟩ := List.map_eq_cons_iff.1 hps
    have hfuel : others.length < (qs ++ rest).length := by
      have hlen := congrArg List.length hqs
      have hmore := @length_lt_more (others.map Member.tokens) .closeObject
      simp only [List.length_map, List.length_append] at hlen hmore ⊢
      omega
    rw [List.cons_append, read, members_iff hw hm hothers hfuel hqs]
    rintro q ts heq
    obtain ⟨⟨_, t⟩, ends, rfl, rfl, -⟩ := List.map_eq_cons_iff.1 hqs
    cases heq

/-! ## Lists -/

/-- What reading the items of a list for fields amounts to: the end, or an item for the next. -/
theorem entries_eq_ok {fields : List (Field σ)} {n : Nat} {ts : List Placed} :
    r.entries fields n state ts = .ok (a, left) ↔
      (∃ p, ts = ⟨.closeList, p⟩ :: left ∧ r.ofList n state = .ok a) ∨
      ((∀ p others, ts ≠ ⟨.closeList, p⟩ :: others) ∧ ∃ f others item next after,
        fields = f :: others ∧ beforeItem n ts = .ok item ∧
          f.read state item = .ok (.ok next, after) ∧
            r.entries others (n + 1) next after = .ok (a, left)) := by
  constructor
  · intro h
    rw [entries.eq_def] at h
    split at h
    · rename_i p rest
      split at h
      · cases h
      · rename_i hofList; cases h
        exact .inl ⟨p, rfl, hofList⟩
    · cases h
    · rename_i f others hno
      split at h
      · cases h
      · rename_i item hitem
        split at h
        · cases h
        · cases h
        · rename_i next after hread
          exact .inr ⟨fun p ts heq => hno p ts heq, f, others, item, next, after, rfl, hitem, hread, h⟩
  · rintro (⟨p, rfl, hofList⟩ | ⟨hno, f, others, item, next, after, rfl, hitem, hread, hothers⟩)
    · rw [entries, hofList]
    · rw [entries.eq_def]
      simp only [hitem, hread, hothers]

theorem entries_item_iff {fields : List (Field σ)} (hw : ∀ f ∈ fields, ∀ state, Whole (f.read state))
    {n : Nat} {ts : List Placed} (hv : IsValue (ps.map Placed.token))
    (hno : ∀ p others, ts ≠ ⟨.closeList, p⟩ :: others) (hitem : beforeItem n ts = .ok (ps ++ rest)) :
    r.entries fields n state ts = .ok (a, left) ↔
      ∃ f others next, fields = f :: others ∧ Takes (f.read state) (ps.map Placed.token) (.ok next) ∧
        r.entries others (n + 1) next rest = .ok (a, left) := by
  rw [entries_eq_ok]
  constructor
  · rintro (⟨p, heq, -⟩ | ⟨-, f, others, _, next, _, rfl, heq, hread, hothers⟩)
    · exact absurd heq (hno p _)
    · rw [hitem] at heq
      cases heq
      obtain ⟨ht, rfl⟩ := hw f List.mem_cons_self _ _ _ _ _ hv hread
      exact ⟨f, others, next, rfl, ht, hothers⟩
  · rintro ⟨f, others, next, rfl, ht, hothers⟩
    exact .inr ⟨hno, f, others, _, next, _, rfl, hitem, ht ps _ rfl, hothers⟩

theorem entries_more_iff (hrows : ∀ row ∈ rows, IsValue row) {fields : List (Field σ)}
    (hw : ∀ f ∈ fields, ∀ state, Whole (f.read state)) {n : Nat}
    (hps : ps.map Placed.token = more .closeList rows) :
    r.entries fields (n + 1) state (ps ++ rest) = .ok (a, left) ↔
      (∃ last, Fills fields rows state last ∧ r.ofList (n + 1 + rows.length) last = .ok a) ∧
        left = rest := by
  induction rows generalizing fields n ps state with
  | nil =>
    obtain ⟨⟨_, p⟩, rfl, rfl⟩ := List.map_eq_singleton_iff.1 hps
    rw [entries_eq_ok]
    constructor
    · rintro (⟨_, heq, hofList⟩ | ⟨hno, -⟩)
      · cases heq
        exact ⟨⟨state, .nil, hofList⟩, rfl⟩
      · exact absurd rfl (hno p rest)
    · rintro ⟨⟨last, hfills, hofList⟩, rfl⟩
      obtain rfl := fills_nil_iff.1 hfills
      exact .inl ⟨p, rfl, hofList⟩
  | cons row others ih =>
    obtain ⟨hrow, hothers⟩ := List.forall_mem_cons.1 hrows
    have hlen : n + 1 + (row :: others).length = n + 1 + 1 + others.length := by
      rw [List.length_cons]
      omega
    rw [more_cons] at hps
    obtain ⟨⟨_, p⟩, after, rfl, rfl, hafter⟩ := List.map_eq_cons_iff.1 hps
    obtain ⟨qs, ends, rfl, rfl, hends⟩ := List.map_eq_append_iff.1 hafter
    have hitem : beforeItem (n + 1) (⟨.comma, p⟩ :: (qs ++ (ends ++ rest))) =
        .ok (qs ++ (ends ++ rest)) := by
      rw [beforeItem]
      · intro q ts heq
        exact hrow.placed_ne heq
      · simp
    rw [List.cons_append, List.append_assoc, entries_item_iff hw hrow (by simp) hitem, hlen]
    simp only [fills_cons_iff]
    constructor
    · rintro ⟨f, fields, next, rfl, ht, hentries⟩
      have hw' := (List.forall_mem_cons.1 hw).2
      obtain ⟨⟨last, hfills, hofList⟩, rfl⟩ := (ih hothers hw' hends).1 hentries
      exact ⟨⟨last, ⟨f, fields, next, rfl, ht, hfills⟩, hofList⟩, rfl⟩
    · rintro ⟨⟨last, ⟨f, fields, next, rfl, ht, hfills⟩, hofList⟩, rfl⟩
      have hw' := (List.forall_mem_cons.1 hw).2
      exact ⟨f, fields, next, rfl, ht, (ih hothers hw' hends).2 ⟨⟨last, hfills, hofList⟩, rfl⟩⟩

theorem list_iff (hw : r.HasWholeFields) (hrows : ∀ row ∈ rows, IsValue row)
    (hps : ps.map Placed.token = listTokens rows) :
    r.read (ps ++ rest) = .ok (a, left) ↔
      (∃ last, Fills r.fields rows r.blank last ∧ r.ofList rows.length last = .ok a) ∧
        left = rest := by
  cases rows with
  | nil =>
    obtain ⟨⟨_, p⟩, qs, rfl, rfl, hqs⟩ := List.map_eq_cons_iff.1 hps
    obtain ⟨⟨_, q⟩, rfl, rfl⟩ := List.map_eq_singleton_iff.1 hqs
    rw [List.cons_append, List.singleton_append, read, entries_eq_ok]
    constructor
    · rintro (⟨_, heq, hofList⟩ | ⟨hno, -⟩)
      · cases heq
        exact ⟨⟨_, .nil, hofList⟩, rfl⟩
      · exact absurd rfl (hno q rest)
    · rintro ⟨⟨last, hfills, hofList⟩, rfl⟩
      obtain rfl := fills_nil_iff.1 hfills
      exact .inl ⟨q, rfl, hofList⟩
  | cons row others =>
    obtain ⟨hrow, hothers⟩ := List.forall_mem_cons.1 hrows
    rw [listTokens_cons] at hps
    obtain ⟨⟨_, p⟩, after, rfl, rfl, hafter⟩ := List.map_eq_cons_iff.1 hps
    obtain ⟨qs, ends, rfl, rfl, hends⟩ := List.map_eq_append_iff.1 hafter
    have hno : ∀ q ts, qs ++ (ends ++ rest) ≠ ⟨.closeList, q⟩ :: ts := fun q ts => hrow.placed_ne
    rw [List.cons_append, List.append_assoc, read, entries_item_iff hw hrow hno rfl,
      List.length_cons, Nat.add_comm others.length, ← Nat.zero_add 1]
    simp only [fills_cons_iff]
    constructor
    · rintro ⟨f, fields, next, hfields, ht, hentries⟩
      rw [HasWholeFields, hfields] at hw
      have hw' := (List.forall_mem_cons.1 hw).2
      obtain ⟨⟨last, hfills, hofList⟩, rfl⟩ := (entries_more_iff hothers hw' hends).1 hentries
      exact ⟨⟨last, ⟨f, fields, next, hfields, ht, hfills⟩, hofList⟩, rfl⟩
    · rintro ⟨⟨last, ⟨f, fields, next, hfields, ht, hfills⟩, hofList⟩, rfl⟩
      rw [HasWholeFields, hfields] at hw
      have hw' := (List.forall_mem_cons.1 hw).2
      exact ⟨f, fields, next, hfields, ht,
        (entries_more_iff hothers hw' hends).2 ⟨⟨last, hfills, hofList⟩, rfl⟩⟩

/-! ## Records as values -/

theorem read_eq_ok_head {ts : List Placed} (h : r.read ts = .ok (a, left)) :
    ∃ p others, ts = p :: others ∧ (p.token = .openObject ∨ p.token = .openList) := by
  rw [read.eq_def] at h
  split at h
  · exact ⟨_, _, rfl, .inl rfl⟩
  · exact ⟨_, _, rfl, .inl rfl⟩
  · exact ⟨_, _, rfl, .inr rfl⟩
  · cases h

theorem takes_object (hw : r.HasWholeFields) (hmembers : ∀ m ∈ members, IsValue m.value)
    {last : σ} (hsteps : r.Steps members r.blank last) (ha : r.ofObject last = .ok a) :
    Takes r.read (objectTokens members) a :=
  fun _ _ hps => (object_iff hw hmembers hps).2 ⟨⟨last, hsteps, ha⟩, rfl⟩

theorem takes_list (hw : r.HasWholeFields) (hrows : ∀ row ∈ rows, IsValue row) {last : σ}
    (hfills : Fills r.fields rows r.blank last) (ha : r.ofList rows.length last = .ok a) :
    Takes r.read (listTokens rows) a :=
  fun _ _ hps => (list_iff hw hrows hps).2 ⟨⟨last, hfills, ha⟩, rfl⟩

theorem whole (hw : r.HasWholeFields) : Whole r.read := by
  intro ps rest a left hv h
  obtain ⟨p, others, heq, hp | hp⟩ := read_eq_ok_head h
  · obtain ⟨members, hts, hmembers⟩ := hv.object_of_head (hp ▸ hv.head_placed heq)
    obtain ⟨⟨last, hsteps, ha⟩, rfl⟩ := (object_iff hw hmembers hts).1 h
    rw [hts]
    exact ⟨takes_object hw hmembers hsteps ha, rfl⟩
  · obtain ⟨rows, hts, hrows⟩ := hv.list_of_head (hp ▸ hv.head_placed heq)
    obtain ⟨⟨last, hfills, ha⟩, rfl⟩ := (list_iff hw hrows hts).1 h
    rw [hts]
    exact ⟨takes_list hw hrows hfills ha, rfl⟩

/-- What is taken of an object is what its members make. -/
theorem takes_object_iff (hw : r.HasWholeFields) (hmembers : ∀ m ∈ members, IsValue m.value) :
    Takes r.read (objectTokens members) a ↔
      ∃ last, r.Steps members r.blank last ∧ r.ofObject last = .ok a := by
  constructor
  · intro h
    have hread := h (place _) [] (map_place _)
    exact ((object_iff hw hmembers (map_place _)).1 hread).1
  · rintro ⟨last, hsteps, ha⟩
    exact takes_object hw hmembers hsteps ha

/-! ## Fields that are given -/

/-- The fields have names of their own, and reading one makes this one given and no other. -/
structure Tracks (r : Record σ α) : Prop where
  names : (r.fields.map Field.name).Nodup
  blank : ∀ f ∈ r.fields, f.given r.blank = false
  read : ∀ f ∈ r.fields, ∀ state ts next rest, f.read state ts = .ok (.ok next, rest) →
    ∀ g ∈ r.fields, g.given next = (g.given state || g.name == f.name)

theorem Tracks.given (ht : r.Tracks) {f g : Field σ} (hf : f ∈ r.fields) (hg : g ∈ r.fields)
    {value : List Token} (h : Takes (f.read state) value (.ok next)) :
    g.given next = (g.given state || g.name == f.name) :=
  ht.read f hf _ _ _ _ h.read_place g hg

theorem mem_fields {name : List Char} {f : Field σ}
    (h : r.fields.find? (fun f => f.name.toList == name) = some f) :
    f ∈ r.fields ∧ f.name.toList = name := by
  have hname := List.find?_some h
  exact ⟨List.mem_of_find?_eq_some h, eq_of_beq hname⟩

theorem Step.count (ht : r.Tracks) {m : Member} {name : List Char}
    (hname : Piece.content? m.name = some name) (h : r.Step name m.value state next) {g : Field σ}
    (hg : g ∈ r.fields) :
    (g.given state).toNat + (valuesOf g.name (m :: members)).length =
      (g.given next).toNat + (valuesOf g.name members).length := by
  cases h with
  | @field f _ _ hf hgiven htakes =>
    obtain ⟨hmem, rfl⟩ := mem_fields hf
    rw [ht.given hmem hg htakes]
    by_cases heq : g.name = f.name
    · obtain rfl := List.inj_on_of_nodup_map ht.names hg hmem heq
      rw [valuesOf_cons_self hname, hgiven, beq_self_eq_true, Bool.false_or, List.length_cons,
        Bool.toNat_false, Bool.toNat_true]
      omega
    · have hne : Piece.content? m.name ≠ some g.name.toList := by
        rw [hname]
        intro h
        exact heq (String.toList_injective (Option.some.inj h)).symm
      rw [valuesOf_cons_ne hne, beq_eq_false_iff_ne.2 heq, Bool.or_false]
  | other hnone =>
    have hne : Piece.content? m.name ≠ some g.name.toList := by
      rw [hname]
      intro h
      exact List.find?_eq_none.1 hnone g hg (beq_iff_eq.2 (Option.some.inj h).symm)
    rw [valuesOf_cons_ne hne]

/-- A field is given at the end if it was at the start or a member names it, and never twice. -/
theorem Steps.count (ht : r.Tracks) {last : σ} (h : r.Steps members state last) {g : Field σ}
    (hg : g ∈ r.fields) :
    (g.given state).toNat + (valuesOf g.name members).length = (g.given last).toNat := by
  induction h with
  | nil => rfl
  | cons hname hstep _ ih => rw [hstep.count ht hname hg, ih]

/-- Each member is read by the field that it names, if there is one. -/
theorem Steps.of_mem {last : σ} (h : r.Steps members state last) {m : Member} (hm : m ∈ members) :
    ∃ name before after, Piece.content? m.name = some name ∧ r.Step name m.value before after := by
  induction h with
  | nil => cases hm
  | cons hname hstep _ ih =>
    rcases List.mem_cons.1 hm with rfl | hm
    · exact ⟨_, _, _, hname, hstep⟩
    · exact ih hm

/-- A strict record knows the names of all members that it is read from. -/
theorem Steps.known (hstrict : r.strict = true) {last : σ} (h : r.Steps members state last) :
    ∀ m ∈ members, ∃ f ∈ r.fields, Piece.content? m.name = some f.name.toList := by
  intro m hm
  obtain ⟨name, _, _, hname, hstep⟩ := h.of_mem hm
  cases hstep with
  | field hf =>
    obtain ⟨hmem, rfl⟩ := mem_fields hf
    exact ⟨_, hmem, hname⟩
  | other _ hloose =>
    rw [hstrict] at hloose
    cases hloose

/-- Members can be read in any order when no two name one field and what each field is given can be
read, here into a state of which something holds. -/
theorem exists_steps (ht : r.Tracks) {P : σ → Prop} (hstate : P state)
    (hnames : ∀ m ∈ members, ∃ name, Piece.content? m.name = some name)
    (hknown : r.strict = true → ∀ m ∈ members, ∃ f ∈ r.fields,
      Piece.content? m.name = some f.name.toList)
    (hread : ∀ f ∈ r.fields, ∀ value ∈ valuesOf f.name members, ∀ state, P state →
      ∃ next, Takes (f.read state) value (.ok next) ∧ P next)
    (honce : ∀ f ∈ r.fields, (f.given state).toNat + (valuesOf f.name members).length ≤ 1) :
    ∃ last, r.Steps members state last ∧ P last := by
  induction members generalizing state with
  | nil => exact ⟨state, .nil, hstate⟩
  | cons m others ih =>
    obtain ⟨⟨name, hname⟩, hothers⟩ := List.forall_mem_cons.1 hnames
    have hstep : ∃ next, r.Step name m.value state next ∧ P next := by
      cases hfind : r.fields.find? (fun f => f.name.toList == name) with
      | some f =>
        obtain ⟨hf, rfl⟩ := mem_fields hfind
        have hvalues := valuesOf_cons_self hname others
        have hcount := honce f hf
        rw [hvalues, List.length_cons] at hcount
        have hgiven : f.given state = false := Bool.toNat_eq_zero.1 (by omega)
        obtain ⟨next, htakes, hnext⟩ :=
          hread f hf m.value (hvalues ▸ List.mem_cons_self) state hstate
        exact ⟨next, .field hfind hgiven htakes, hnext⟩
      | none =>
        refine ⟨state, .other hfind (eq_false_of_ne_true fun hs => ?_), hstate⟩
        obtain ⟨f, hf, heq⟩ := hknown hs m List.mem_cons_self
        rw [hname] at heq
        exact List.find?_eq_none.1 hfind f hf (beq_iff_eq.2 (Option.some.inj heq).symm)
    obtain ⟨next, hstep, hnext⟩ := hstep
    have hlater : ∀ f ∈ r.fields, ∀ value ∈ valuesOf f.name others, ∀ state, P state →
        ∃ next, Takes (f.read state) value (.ok next) ∧ P next := by
      intro f hf value hvalue
      obtain ⟨n, hn, heq⟩ := mem_valuesOf.1 hvalue
      exact hread f hf value (mem_valuesOf.2 ⟨n, List.mem_cons_of_mem _ hn, heq⟩)
    have honce' : ∀ f ∈ r.fields, (f.given next).toNat + (valuesOf f.name others).length ≤ 1 := by
      intro f hf
      rw [← hstep.count ht hname hf]
      exact honce f hf
    have hknown' := fun hs n hn => hknown hs n (List.mem_cons_of_mem _ hn)
    obtain ⟨last, hsteps, hlast⟩ := ih hnext hothers hknown' hlater honce'
    exact ⟨last, .cons hname hstep hsteps, hlast⟩

/-- An object is taken when no two members name one field and the fields that are named make the
record. -/
theorem takes_members (hw : r.HasWholeFields) (ht : r.Tracks) {P : σ → Prop} (hblank : P r.blank)
    (hmembers : ∀ m ∈ members, IsValue m.value)
    (hnames : ∀ m ∈ members, ∃ name, Piece.content? m.name = some name)
    (hknown : r.strict = true → ∀ m ∈ members, ∃ f ∈ r.fields,
      Piece.content? m.name = some f.name.toList)
    (hread : ∀ f ∈ r.fields, ∀ value ∈ valuesOf f.name members, ∀ state, P state →
      ∃ next, Takes (f.read state) value (.ok next) ∧ P next)
    (honce : ∀ f ∈ r.fields, (valuesOf f.name members).length ≤ 1)
    (hlast : ∀ last, P last →
      (∀ f ∈ r.fields, (f.given last).toNat = (valuesOf f.name members).length) →
        r.ofObject last = .ok a) :
    Takes r.read (objectTokens members) a := by
  have hfree : ∀ f ∈ r.fields, (f.given r.blank).toNat + (valuesOf f.name members).length ≤ 1 := by
    intro f hf
    rw [ht.blank f hf, Bool.toNat_false, Nat.zero_add]
    exact honce f hf
  obtain ⟨last, hsteps, hP⟩ := exists_steps ht hblank hnames hknown hread hfree
  refine takes_object hw hmembers hsteps (hlast last hP fun f hf => ?_)
  rw [← hsteps.count ht hf, ht.blank f hf, Bool.toNat_false, Nat.zero_add]

/-- The same for a record that needs all its fields and passes over other names. -/
theorem takes_all_members (hw : r.HasWholeFields) (ht : r.Tracks) (hloose : r.strict = false)
    {P : σ → Prop} (hblank : P r.blank) (hmembers : ∀ m ∈ members, IsValue m.value)
    (hnames : ∀ m ∈ members, ∃ name, Piece.content? m.name = some name)
    (hread : ∀ f ∈ r.fields, ∃ value, valuesOf f.name members = [value] ∧ ∀ state, P state →
      ∃ next, Takes (f.read state) value (.ok next) ∧ P next)
    (hlast : ∀ last, P last → (∀ f ∈ r.fields, f.given last = true) → r.ofObject last = .ok a) :
    Takes r.read (objectTokens members) a := by
  have hone : ∀ f ∈ r.fields, (valuesOf f.name members).length = 1 := by
    intro f hf
    obtain ⟨value, hvalues, -⟩ := hread f hf
    rw [hvalues, List.length_singleton]
  refine takes_members hw ht hblank hmembers hnames ?_ ?_ (fun f hf => (hone f hf).le) ?_
  · intro hs
    rw [hloose] at hs
    cases hs
  · intro f hf value hvalue
    obtain ⟨other, hvalues, htakes⟩ := hread f hf
    rw [hvalues, List.mem_singleton] at hvalue
    subst hvalue
    exact htakes
  · intro last hP hgiven
    exact hlast last hP fun f hf => Bool.toNat_eq_one.1 ((hgiven f hf).trans (hone f hf))

/-- A record that needs all its fields is taken of no object that gives one never or repeatedly. -/
theorem not_takes_members (hw : r.HasWholeFields) (ht : r.Tracks)
    (hall : ∀ last, r.ofObject last = .ok a → ∀ f ∈ r.fields, f.given last = true)
    (hmembers : ∀ m ∈ members, IsValue m.value) {f : Field σ} (hf : f ∈ r.fields)
    (hcount : (valuesOf f.name members).length ≠ 1) : ¬Takes r.read (objectTokens members) a := by
  intro h
  obtain ⟨last, hsteps, ha⟩ := (takes_object_iff hw hmembers).1 h
  have hgiven := hsteps.count ht hf
  rw [ht.blank f hf, hall last ha f hf, Bool.toNat_false, Bool.toNat_true, Nat.zero_add] at hgiven
  exact hcount hgiven

end Record
end Json
end PackPlan
