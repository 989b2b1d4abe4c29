import PackPlan.Proofs.Json.Reader
import PackPlan.Proofs.Json.Text

/-!
# PackPlan.Proofs.Json.Taking

What readers take. A reader takes a row of tokens when it reads just this row, wherever it stands and
whatever follows (`Takes`). A reader is whole when it takes every value that it reads anything from
(`Whole`), so that it never leaves off inside of a value. Integers are whole (`whole_integer`), lists
are if their items are (`Whole.list`), and a value that is passed over is passed over to its end
(`skip_value`). For a whole reader, decoding a text comes down to what is taken of the value that the
text spells (`Whole.decode_iff`).
-/

namespace PackPlan
namespace Json

/-- The reader reads just these tokens. -/
def Takes {α : Type} (read : Reader α) (ts : List Token) (x : α) : Prop :=
  ∀ ps rest, ps.map Placed.token = ts → read (ps ++ rest) = .ok (x, rest)

/-- The reader takes every value that it reads anything from. -/
def Whole {α : Type} (read : Reader α) : Prop :=
  ∀ ps rest x left, IsValue (ps.map Placed.token) → read (ps ++ rest) = .ok (x, left) →
    Takes read (ps.map Placed.token) x ∧ left = rest

/-! ## Rows of tokens -/

section Rows

variable {ts row : List Token} {rows : List (List Token)}

/-- What follows the first item of a list, or the first member of an object. -/
def more (close : Token) (rows : List (List Token)) : List Token :=
  rows.flatMap (.comma :: ·) ++ [close]

theorem more_cons (close : Token) :
    more close (row :: rows) = .comma :: (row ++ more close rows) := by
  simp [more]

theorem intercalate_cons (close : Token) :
    [.comma].intercalate (row :: rows) ++ [close] = row ++ more close rows := by
  induction rows generalizing row with
  | nil => simp [more]
  | cons next others ih =>
    rw [List.intercalate_cons_cons, List.append_assoc, ih, more_cons, List.append_assoc]
    rfl

theorem listTokens_cons : listTokens (row :: rows) = .openList :: (row ++ more .closeList rows) := by
  rw [listTokens, List.cons_append, intercalate_cons]

theorem objectTokens_cons {m : Member} {members : List Member} :
    objectTokens (m :: members) =
      .openObject :: (m.tokens ++ more .closeObject (members.map Member.tokens)) := by
  rw [objectTokens, List.cons_append, List.map_cons, intercalate_cons]

theorem length_lt_more (close : Token) : rows.length < (more close rows).length := by
  induction rows with
  | nil => simp [more]
  | cons row others ih =>
    rw [more_cons]
    simp only [List.length_cons, List.length_append]
    omega

theorem IsValue.ne_nil (h : IsValue ts) : ts ≠ [] := by
  rintro rfl
  generalize hrow : ([] : List Token) = row at h
  cases h <;> cases hrow

theorem IsValue.head_ne_closeList (h : IsValue ts) : ts.head? ≠ some .closeList := by
  cases h <;> simp [listTokens, objectTokens]

theorem IsValue.eq_nil {l : Literal} (h : IsValue (.number l :: ts)) : ts = [] := by
  generalize hrow : Token.number l :: ts = row at h
  cases h with
  | list => cases (List.cons.inj hrow).1
  | object => cases (List.cons.inj hrow).1
  | _ => exact (List.cons.inj hrow).2

theorem IsValue.list_of_head (h : IsValue ts) (hhead : ts.head? = some .openList) :
    ∃ rows, ts = listTokens rows ∧ ∀ row ∈ rows, IsValue row := by
  cases h with
  | list hrows => exact ⟨_, rfl, hrows⟩
  | _ => cases Option.some.inj hhead

theorem IsValue.object_of_head (h : IsValue ts) (hhead : ts.head? = some .openObject) :
    ∃ members, ts = objectTokens members ∧ ∀ m ∈ members, IsValue m.value := by
  cases h with
  | object hmembers => exact ⟨_, rfl, hmembers⟩
  | _ => cases Option.some.inj hhead

/-- The first of some tokens is that of the value which they start with. -/
theorem IsValue.head_placed {ps rest others : List Placed} {p : Placed}
    (h : IsValue (ps.map Placed.token)) (heq : ps ++ rest = p :: others) :
    (ps.map Placed.token).head? = some p.token := by
  cases ps with
  | nil => exact absurd rfl h.ne_nil
  | cons q qs => rw [(List.cons.inj heq).1.symm]; rfl

theorem IsValue.placed_ne {ps rest others : List Placed} {p : Place}
    (h : IsValue (ps.map Placed.token)) : ps ++ rest ≠ ⟨.closeList, p⟩ :: others :=
  fun heq => h.head_ne_closeList (h.head_placed heq)

end Rows

section Taking

variable {α : Type} {read : Reader α} {ts : List Token} {x : α}

/-- One place for all tokens. -/
def place (ts : List Token) : List Placed := ts.map (⟨·, ⟨0, 0⟩⟩)

theorem map_place (ts : List Token) : (place ts).map Placed.token = ts := by
  simp [place, Function.comp_def]

theorem Takes.read_place (h : Takes read ts x) : read (place ts) = .ok (x, []) := by
  have hread := h (place ts) [] (map_place ts)
  rwa [List.append_nil] at hread

theorem Whole.read_iff (hw : Whole read) {ps rest left : List Placed}
    (hv : IsValue (ps.map Placed.token)) :
    read (ps ++ rest) = .ok (x, left) ↔ Takes read (ps.map Placed.token) x ∧ left = rest := by
  refine ⟨hw ps rest x left hv, ?_⟩
  rintro ⟨ht, rfl⟩
  exact ht ps _ rfl

/-! ## Integers -/

theorem Literal.value?_eq_integer {l : Literal} {value : Int} :
    l.value? = some (.integer value) ↔ l.integer? = some value := by
  rw [Literal.value?]
  cases l.integer? with
  | some v => simp
  | none => simp

theorem integer_eq_ok {type : String} {low high x : Int} {p : Placed} {rest left : List Placed} :
    integer type low high (p :: rest) = .ok (x, left) ↔
      (∃ l, p.token = .number l ∧ l.integer? = some x ∧ low ≤ x ∧ x ≤ high) ∧ left = rest := by
  constructor
  · intro h
    simp only [integer] at h
    split at h
    · rename_i l hl
      split at h
      · cases h
      · rename_i value hvalue
        split at h
        · rename_i hrange; cases h
          exact ⟨⟨l, hl, Literal.value?_eq_integer.1 hvalue, hrange⟩, rfl⟩
        · cases h
      · cases h
    · cases h
  · rintro ⟨⟨l, hl, hvalue, hrange⟩, rfl⟩
    simp only [integer, hl, Literal.value?_eq_integer.2 hvalue, if_pos hrange]

theorem takes_integer {type : String} {low high x : Int} {l : Literal} (hl : l.integer? = some x)
    (hrange : low ≤ x ∧ x ≤ high) : Takes (integer type low high) [.number l] x := by
  intro ps rest hps
  obtain ⟨p, rfl, hp⟩ := List.map_eq_singleton_iff.1 hps
  exact integer_eq_ok.2 ⟨⟨l, hp, hl, hrange⟩, rfl⟩

theorem whole_integer {type : String} {low high : Int} : Whole (integer type low high) := by
  intro ps rest x left hv h
  cases ps with
  | nil => exact absurd rfl hv.ne_nil
  | cons p ps =>
    obtain ⟨⟨l, hp, hl, hrange⟩, rfl⟩ := integer_eq_ok.1 h
    rw [List.map_cons, hp] at hv ⊢
    have hnil := hv.eq_nil
    obtain rfl := List.map_eq_nil_iff.1 hnil
    exact ⟨takes_integer hl hrange, rfl⟩

theorem count_eq_ok {type : String} {ts left : List Placed} {n : Nat} :
    count type ts = .ok (n, left) ↔ integer type 0 maxCount ts = .ok ((n : Int), left) := by
  constructor
  · intro h
    simp only [count] at h
    split at h
    · cases h
    · rename_i value rest hvalue; cases h
      have hpos := (integer_ok hvalue).1
      rw [hvalue, Int.toNat_of_nonneg hpos]
  · intro h
    simp only [count, h, Int.toNat_natCast]

theorem takes_count {type : String} {n : Nat} {l : Literal} (hl : l.integer? = some (n : Int))
    (hn : n ≤ maxCount) : Takes (count type) [.number l] n := by
  intro ps rest hps
  exact count_eq_ok.2 (takes_integer hl ⟨Int.natCast_nonneg n, Int.ofNat_le.2 hn⟩ ps rest hps)

theorem whole_count {type : String} : Whole (count type) := by
  intro ps rest n left hv h
  obtain ⟨ht, rfl⟩ := whole_integer ps rest n left hv (count_eq_ok.1 h)
  exact ⟨fun qs others hqs => count_eq_ok.2 (ht qs others hqs), rfl⟩

/-! ## Lists -/

/-- What reading the items of a list amounts to: one item, and then the end or more of them. -/
theorem items_eq_ok {fuel : Nat} {ts left : List Placed} {xs : List α} :
    items read (fuel + 1) ts = .ok (xs, left) ↔
      ∃ x after, read ts = .ok (x, after) ∧
        ((∃ p, after = ⟨.closeList, p⟩ :: left ∧ xs = [x]) ∨
          ∃ p rest others, after = ⟨.comma, p⟩ :: rest ∧ (∀ p ts, rest ≠ ⟨.closeList, p⟩ :: ts) ∧
            items read fuel rest = .ok (others, left) ∧ xs = x :: others) := by
  constructor
  · intro h
    simp only [items] at h
    split at h
    · cases h
    · rename_i x p rest hread; cases h
      exact ⟨x, _, hread, .inl ⟨p, rfl, rfl⟩⟩
    · cases h
    · rename_i x p rest hnext hread
      split at h
      · cases h
      · rename_i others _ hothers; cases h
        exact ⟨x, _, hread, .inr ⟨p, rest, others, rfl, fun q ts heq => hnext q ts heq, hothers, rfl⟩⟩
    · cases h
  · rintro ⟨x, after, hread, ⟨p, rfl, rfl⟩ | ⟨p, rest, others, rfl, hnext, hothers, rfl⟩⟩
    · simp only [items, hread]
    · simp only [items, hread, hothers]

theorem items_iff (hw : Whole read) {rows : List (List Token)} {row : List Token}
    (hrow : IsValue row) (hrows : ∀ row ∈ rows, IsValue row) {fuel : Nat} (hfuel : rows.length < fuel)
    {ps rest left : List Placed} {xs : List α}
    (hps : ps.map Placed.token = row ++ more .closeList rows) :
    items read fuel (ps ++ rest) = .ok (xs, left) ↔
      List.Forall₂ (Takes read) (row :: rows) xs ∧ left = rest := by
  induction rows generalizing row fuel ps xs with
  | nil =>
    obtain ⟨fuel, rfl⟩ : ∃ n, fuel = n + 1 := ⟨fuel - 1, by omega⟩
    obtain ⟨qs, ends, rfl, rfl, hends⟩ := List.map_eq_append_iff.1 hps
    obtain ⟨⟨_, p⟩, rfl, rfl⟩ := List.map_eq_singleton_iff.1 hends
    rw [items_eq_ok, List.append_assoc, List.singleton_append]
    constructor
    · rintro ⟨x, after, hread, hafter⟩
      obtain ⟨hx, rfl⟩ := (hw.read_iff hrow).1 hread
      rcases hafter with ⟨_, heq, rfl⟩ | ⟨_, _, _, heq, -⟩
      · cases heq
        exact ⟨.cons hx .nil, rfl⟩
      · cases heq
    · rintro ⟨hall, rfl⟩
      cases hall with
      | cons hx hnil =>
        cases hnil
        exact ⟨_, _, hx qs _ rfl, .inl ⟨p, rfl, rfl⟩⟩
  | cons next others ih =>
    obtain ⟨fuel, rfl⟩ : ∃ n, fuel = n + 1 := ⟨fuel - 1, by omega⟩
    obtain ⟨hnext, hothers⟩ := List.forall_mem_cons.1 hrows
    have hfuel' : others.length < fuel := by
      rw [List.length_cons] at hfuel
      omega
    obtain ⟨qs, ends, rfl, rfl, hends⟩ := List.map_eq_append_iff.1 hps
    rw [more_cons] at hends
    obtain ⟨⟨_, p⟩, after, rfl, rfl, hafter⟩ := List.map_eq_cons_iff.1 hends
    rw [items_eq_ok, List.append_assoc, List.cons_append]
    have hstart : ∀ q ts, after ++ rest ≠ ⟨.closeList, q⟩ :: ts := by
      obtain ⟨rs, ends, rfl, rfl, -⟩ := List.map_eq_append_iff.1 hafter
      intro q ts
      rw [List.append_assoc]
      exact hnext.placed_ne
    constructor
    · rintro ⟨x, _, hread, hends⟩
      obtain ⟨hx, rfl⟩ := (hw.read_iff hrow).1 hread
      rcases hends with ⟨_, heq, -⟩ | ⟨_, _, ys, heq, -, hitems, rfl⟩
      · cases heq
      · cases heq
        obtain ⟨hall, rfl⟩ := (ih hnext hothers hfuel' hafter).1 hitems
        exact ⟨.cons hx hall, rfl⟩
    · rintro ⟨hall, rfl⟩
      cases hall with
      | cons hx hall =>
        exact ⟨_, _, hx qs _ rfl, .inr ⟨p, _, _, rfl, hstart,
          (ih hnext hothers hfuel' hafter).2 ⟨hall, rfl⟩, rfl⟩⟩

theorem list_iff (hw : Whole read) {rows : List (List Token)} (hrows : ∀ row ∈ rows, IsValue row)
    {ps rest left : List Placed} {xs : List α} (hps : ps.map Placed.token = listTokens rows) :
    list read (ps ++ rest) = .ok (xs, left) ↔
      List.Forall₂ (Takes read) rows xs ∧ left = rest := by
  cases rows with
  | nil =>
    obtain ⟨⟨_, p⟩, qs, rfl, rfl, hqs⟩ := List.map_eq_cons_iff.1 hps
    obtain ⟨⟨_, q⟩, rfl, rfl⟩ := List.map_eq_singleton_iff.1 hqs
    simp only [List.cons_append, List.nil_append, list, Except.ok.injEq, Prod.mk.injEq,
      List.forall₂_nil_left_iff, eq_comm]
  | cons row rows =>
    obtain ⟨hrow, hrows⟩ := List.forall_mem_cons.1 hrows
    rw [listTokens_cons] at hps
    obtain ⟨⟨_, p⟩, qs, rfl, rfl, hqs⟩ := List.map_eq_cons_iff.1 hps
    have hfuel : rows.length < (qs ++ rest).length := by
      have hlen := congrArg List.length hqs
      have hmore := @length_lt_more rows .closeList
      simp only [List.length_map, List.length_append] at hlen hmore ⊢
      omega
    rw [List.cons_append, list, items_iff hw hrow hrows hfuel hqs]
    intro q ts heq
    obtain ⟨rs, ends, rfl, rfl, -⟩ := List.map_eq_append_iff.1 hqs
    rw [List.append_assoc] at heq
    exact hrow.placed_ne heq

theorem takes_list (hw : Whole read) {rows : List (List Token)} {xs : List α}
    (hrows : ∀ row ∈ rows, IsValue row) (h : List.Forall₂ (Takes read) rows xs) :
    Takes (list read) (listTokens rows) xs :=
  fun _ _ hps => (list_iff hw hrows hps).2 ⟨h, rfl⟩

theorem list_eq_ok_head {ts left : List Placed} {xs : List α} (h : list read ts = .ok (xs, left)) :
    ∃ p rest, ts = ⟨.openList, p⟩ :: rest := by
  simp only [list] at h
  split at h
  · exact ⟨_, _, rfl⟩
  · exact ⟨_, _, rfl⟩
  · cases h

theorem Whole.list (hw : Whole read) : Whole (list read) := by
  intro ps rest xs left hv h
  obtain ⟨p, others, heq⟩ := list_eq_ok_head h
  obtain ⟨rows, hrow, hrows⟩ := hv.list_of_head (hv.head_placed heq)
  obtain ⟨hall, rfl⟩ := (list_iff hw hrows hrow).1 h
  rw [hrow]
  exact ⟨takes_list hw hrows hall, rfl⟩

/-! ## Texts -/

theorem Takes.decode (h : Takes read ts x) {text : String} (hv : IsValue ts)
    (ht : Spells ts text.toList) : decode read text = .ok x := by
  obtain ⟨ps, ends, htokens, rfl, hends⟩ := List.map_eq_append_iff.1 (tokens_of_spells ht hv.apart)
  obtain ⟨⟨_, p⟩, rfl, rfl⟩ := List.map_eq_singleton_iff.1 hends
  simp only [Json.decode, htokens, h ps _ rfl]

/-- Decoding comes down to what is taken of the value that a text spells. -/
theorem Whole.decode_iff (hw : Whole read) {text : String} (hv : IsValue ts)
    (ht : Spells ts text.toList) : decode read text = .ok x ↔ Takes read ts x := by
  refine ⟨fun h => ?_, fun h => h.decode hv ht⟩
  obtain ⟨ps, ends, htokens, rfl, -⟩ := List.map_eq_append_iff.1 (tokens_of_spells ht hv.apart)
  simp only [decode, htokens] at h
  split at h
  · cases h
  · rename_i hread; cases h
    exact (hw _ _ _ _ hv hread).1
  · cases h

end Taking

/-! ## Values that are passed over -/

section Skip

/-- The tokens are passed over, inside whatever frames. -/
def Skips (ts : List Token) : Prop :=
  ∀ frames ps rest, ps.map Placed.token = ts →
    skip .value frames (ps ++ rest) = skip .next frames rest

theorem skip_more_items {rows : List (List Token)} (h : ∀ row ∈ rows, Skips row)
    (frames : List Frame) {ps : List Placed} (rest : List Placed)
    (hps : ps.map Placed.token = more .closeList rows) :
    skip .next (.list :: frames) (ps ++ rest) = skip .next frames rest := by
  induction rows generalizing ps with
  | nil =>
    obtain ⟨⟨_, p⟩, rfl, rfl⟩ := List.map_eq_singleton_iff.1 hps
    rw [List.singleton_append, skip]
  | cons row others ih =>
    obtain ⟨hrow, hothers⟩ := List.forall_mem_cons.1 h
    rw [more_cons] at hps
    obtain ⟨⟨_, p⟩, after, rfl, rfl, hafter⟩ := List.map_eq_cons_iff.1 hps
    obtain ⟨qs, ends, rfl, hqs, hends⟩ := List.map_eq_append_iff.1 hafter
    rw [List.cons_append, skip, List.append_assoc, hrow _ _ _ hqs, ih hothers hends]

theorem skip_more_members {members : List Member} (h : ∀ m ∈ members, Skips m.value)
    (frames : List Frame) {ps : List Placed} (rest : List Placed)
    (hps : ps.map Placed.token = more .closeObject (members.map Member.tokens)) :
    skip .next (.object :: frames) (ps ++ rest) = skip .next frames rest := by
  induction members generalizing ps with
  | nil =>
    obtain ⟨⟨_, p⟩, rfl, rfl⟩ := List.map_eq_singleton_iff.1 hps
    rw [List.singleton_append, skip]
  | cons m others ih =>
    obtain ⟨hm, hothers⟩ := List.forall_mem_cons.1 h
    rw [List.map_cons, more_cons] at hps
    obtain ⟨⟨_, p⟩, after, rfl, rfl, hafter⟩ := List.map_eq_cons_iff.1 hps
    obtain ⟨named, ends, rfl, hnamed, hends⟩ := List.map_eq_append_iff.1 hafter
    obtain ⟨⟨_, q⟩, marked, rfl, rfl, hmarked⟩ := List.map_eq_cons_iff.1 hnamed
    obtain ⟨⟨_, c⟩, qs, rfl, rfl, hqs⟩ := List.map_eq_cons_iff.1 hmarked
    simp only [List.cons_append, skip, List.append_assoc, hm _ _ _ hqs, ih hothers hends]

theorem skip_value {ts : List Token} (h : IsValue ts) : Skips ts := by
  induction h with
  | @list rows hrows ih =>
    intro frames ps rest hps
    cases rows with
    | nil =>
      obtain ⟨⟨_, p⟩, after, rfl, rfl, hafter⟩ := List.map_eq_cons_iff.1 hps
      obtain ⟨⟨_, q⟩, rfl, rfl⟩ := List.map_eq_singleton_iff.1 hafter
      rw [List.cons_append, List.singleton_append, skip]
    | cons row others =>
      obtain ⟨hrow, hothers⟩ := List.forall_mem_cons.1 ih
      rw [listTokens_cons] at hps
      obtain ⟨⟨_, p⟩, after, rfl, rfl, hafter⟩ := List.map_eq_cons_iff.1 hps
      obtain ⟨qs, ends, rfl, rfl, hends⟩ := List.map_eq_append_iff.1 hafter
      rw [List.cons_append, List.append_assoc, skip, hrow _ _ _ rfl,
        skip_more_items hothers _ _ hends]
      intro q ts heq
      exact (hrows _ List.mem_cons_self).placed_ne heq
  | @object members _ ih =>
    intro frames ps rest hps
    cases members with
    | nil =>
      obtain ⟨⟨_, p⟩, after, rfl, rfl, hafter⟩ := List.map_eq_cons_iff.1 hps
      obtain ⟨⟨_, q⟩, rfl, rfl⟩ := List.map_eq_singleton_iff.1 hafter
      rw [List.cons_append, List.singleton_append, skip]
    | cons m others =>
      obtain ⟨hm, hothers⟩ := List.forall_mem_cons.1 ih
      rw [objectTokens_cons] at hps
      obtain ⟨⟨_, p⟩, after, rfl, rfl, hafter⟩ := List.map_eq_cons_iff.1 hps
      obtain ⟨named, ends, rfl, hnamed, hends⟩ := List.map_eq_append_iff.1 hafter
      obtain ⟨⟨_, q⟩, marked, rfl, rfl, hmarked⟩ := List.map_eq_cons_iff.1 hnamed
      obtain ⟨⟨_, c⟩, qs, rfl, rfl, hqs⟩ := List.map_eq_cons_iff.1 hmarked
      simp only [List.cons_append, skip, List.append_assoc, hm _ _ _ hqs,
        skip_more_members hothers _ _ hends]
  | _ =>
    intro frames ps rest hps
    obtain ⟨⟨_, p⟩, rfl, rfl⟩ := List.map_eq_singleton_iff.1 hps
    rw [List.singleton_append, skip]

end Skip
end Json
end PackPlan
