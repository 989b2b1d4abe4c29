import PackPlan.Proofs.Packing
import PackPlan.Solver.Table

/-!
# PackPlan.Proofs.Solver.Table

The table of fewest packs is exact, for any list of sizes: in any order, with repetitions, with
zeros. `Table.Sound` is the invariant of its growth: each count is the fewest packs for its total, as
far as a cell can hold it, and each choice is the first position whose size leaves a rest that is
made with one pack less.

* `grow_sound`: one more total keeps the invariant, and `grow_ok` that it can be added.
* `build_sound`, `build_ok`: the same of the whole table.
* `minPacks?_eq_some`, `firstFrom?_eq_some`: what the table tells, read off the invariant.
-/

namespace PackPlan
namespace Table

/-- The packs that a total takes if one of this size is taken off it. It is more than a cell holds
when the size is empty, does not fit, or leaves what cannot be made. -/
def offer (counts : Array Nat) (total size : Nat) : Nat :=
  if 0 < size ∧ size ≤ total then counts.getD (total - size) vacant + 1 else vacant + 1

/-- The size at this position makes the best offer for a total, and no size before it does. -/
structure IsFirstBest (counts : Array Nat) (total : Nat) (sizes : List Nat) (position size : Nat) :
    Prop where
  at_position : sizes[position]? = some size
  le_offer : ∀ other ∈ sizes, offer counts total size ≤ offer counts total other
  lt_offer : ∀ before < position, ∀ other, sizes[before]? = some other →
    offer counts total size < offer counts total other

/-- A cell holds the fewest packs for a total, or is vacant if they are too many to be held. -/
def HoldsFewest (sizes : List Nat) (total count : Nat) : Prop :=
  count ≤ vacant ∧ ∀ n < vacant, count ≤ n ↔ MadeWithin sizes total n

/-- The choice of a total: none if its count is vacant, else the first position of a best offer. -/
def RecordsFirst (sizes : List Nat) (counts : Array Nat) (total count choice : Nat) : Prop :=
  (count = vacant ∧ choice = vacant) ∨
    (count < vacant ∧ ∃ size, IsFirstBest counts total sizes choice size ∧
      offer counts total size = count)

/-- The invariant of a growing table. -/
structure Sound (sizes : List Nat) (t : Table) : Prop where
  size_pos : 0 < t.counts.size
  size_choices : t.choices.size = t.counts.size
  fewest : ∀ total < t.counts.size, HoldsFewest sizes total (t.counts.getD total vacant)
  no_choice : t.choices.getD 0 vacant = vacant
  first : ∀ total, 0 < total → total < t.counts.size →
    RecordsFirst sizes t.counts total (t.counts.getD total vacant) (t.choices.getD total vacant)

theorem offer_pos (counts : Array Nat) (total size : Nat) : 0 < offer counts total size := by
  unfold offer
  split <;> omega

/-- Offers for a total look at smaller totals only. -/
theorem offer_push {counts : Array Nat} {total : Nat} (h : total ≤ counts.size) (c size : Nat) :
    offer (counts.push c) total size = offer counts total size := by
  unfold offer
  split
  · rename_i hs
    have hlt : total - size < counts.size := by omega
    simp [Array.getD_eq_getD_getElem?, Array.getElem?_push, Nat.ne_of_lt hlt]
  · rfl

/-! ## One row -/

theorem best_cons {counts : Array Nat} {total count : Nat} (ht : counts.size ≤ total)
    (hc : count ≤ vacant) (size : Nat) (rest : List Nat) (i choice : Nat) :
    best counts total (size :: rest) i count choice =
      if offer counts total size < count then best counts total rest (i + 1) (offer counts total size) i
      else best counts total rest (i + 1) count choice := by
  by_cases hle : size ≤ total
  · by_cases hpos : 0 < size
    · simp [best, offer, hle, hpos]
    · have hz : size = 0 := by omega
      have hout : counts.getD total vacant = vacant := by
        simp [Array.getD_eq_getD_getElem?, Array.getElem?_eq_none ht]
      subst hz
      simp [best, offer, hout]
  · have hno : ¬ vacant + 1 < count := by omega
    simp [best, offer, hle, hno]

/-- A row keeps what it started with if no offer is better, and else takes the first best one. -/
theorem best_cases {counts : Array Nat} {total : Nat} (ht : counts.size ≤ total) :
    ∀ (sizes : List Nat) (i count choice : Nat), count ≤ vacant →
      (best counts total sizes i count choice = (count, choice) ∧
          ∀ size ∈ sizes, count ≤ offer counts total size) ∨
        ∃ j size, IsFirstBest counts total sizes j size ∧ offer counts total size < count ∧
          best counts total sizes i count choice = (offer counts total size, i + j) := by
  intro sizes
  induction sizes with
  | nil => intro i count choice _; exact .inl ⟨rfl, by simp⟩
  | cons first rest ih =>
    intro i count choice hc
    rw [best_cons ht hc]
    by_cases hlt : offer counts total first < count
    · -- the first size is better than what was there, so it stands until a later one beats it
      rw [if_pos hlt]
      right
      rcases ih (i + 1) (offer counts total first) i (by omega) with ⟨heq, hall⟩ | ⟨j, size, hb, hl, heq⟩
      · refine ⟨0, first, ⟨rfl, ?_, ?_⟩, hlt, by rw [heq, Nat.add_zero]⟩
        · intro other ho
          rcases List.mem_cons.1 ho with rfl | ho
          · exact Nat.le_refl _
          · exact hall other ho
        · intro k hk; omega
      · refine ⟨j + 1, size, ⟨by simpa using hb.at_position, ?_, ?_⟩, by omega, ?_⟩
        · intro other ho
          rcases List.mem_cons.1 ho with rfl | ho
          · exact Nat.le_of_lt hl
          · exact hb.le_offer other ho
        · intro k hk other ho
          cases k with
          | zero => simp at ho; subst ho; exact hl
          | succ k => exact hb.lt_offer k (by omega) other (by simpa using ho)
        · rw [heq]; congr 1; omega
    · rw [if_neg hlt]
      rcases ih (i + 1) count choice hc with ⟨heq, hall⟩ | ⟨j, size, hb, hl, heq⟩
      · left
        refine ⟨heq, ?_⟩
        intro other ho
        rcases List.mem_cons.1 ho with rfl | ho
        · omega
        · exact hall other ho
      · right
        refine ⟨j + 1, size, ⟨by simpa using hb.at_position, ?_, ?_⟩, hl, ?_⟩
        · intro other ho
          rcases List.mem_cons.1 ho with rfl | ho
          · omega
          · exact hb.le_offer other ho
        · intro k hk other ho
          cases k with
          | zero => simp at ho; subst ho; omega
          | succ k => exact hb.lt_offer k (by omega) other (by simpa using ho)
        · rw [heq]; congr 1; omega

/-! ## The invariant of growth -/

section Growth

variable {sizes : List Nat} {t t' : Table} {total count choice n : Nat}

theorem HoldsFewest.isLeast (h : HoldsFewest sizes total count) (hlt : count < vacant) :
    IsLeast (packNumbers sizes total) count := by
  rw [isLeast_packNumbers]
  intro m
  by_cases hm : m < vacant
  · exact h.2 m hm
  · have hmade : MadeWithin sizes total count := (h.2 count hlt).1 (Nat.le_refl count)
    exact ⟨fun hle => hmade.mono hle, fun _ => by omega⟩

theorem HoldsFewest.eq_of_isLeast (h : HoldsFewest sizes total count) (hn : n < vacant)
    (hl : IsLeast (packNumbers sizes total) n) : count = n := by
  rw [isLeast_packNumbers] at hl
  have hle : count ≤ n := (h.2 n hn).2 ((hl n).1 (Nat.le_refl n))
  have hmade : MadeWithin sizes total count := (h.2 count (by omega)).1 (Nat.le_refl count)
  exact Nat.le_antisymm hle ((hl count).2 hmade)

theorem zero_sound (sizes : List Nat) : Sound sizes zero where
  size_pos := by simp [zero]
  size_choices := rfl
  fewest := by
    intro total ht
    have hz : total = 0 := by simp [zero] at ht; omega
    subst hz
    exact ⟨Nat.zero_le _, fun n _ => ⟨fun _ => madeWithin_nothing sizes n, fun _ => Nat.zero_le n⟩⟩
  no_choice := rfl
  first := by
    intro total hpos ht
    simp [zero] at ht
    omega

/-- An offer of so many packs, as long as a cell can hold them, is a way to make the total. -/
theorem offer_le_iff (h : Sound sizes t) (ht : total ≤ t.counts.size) (hn : n + 1 < vacant)
    (size : Nat) :
    offer t.counts total size ≤ n + 1 ↔
      0 < size ∧ size ≤ total ∧ MadeWithin sizes (total - size) n := by
  unfold offer
  by_cases hs : 0 < size ∧ size ≤ total
  · have hrest := (h.fewest (total - size) (by omega)).2 n (by omega)
    rw [if_pos hs, Nat.add_le_add_iff_right, hrest]
    exact ⟨fun hm => ⟨hs.1, hs.2, hm⟩, fun hm => hm.2.2⟩
  · rw [if_neg hs]
    exact ⟨fun hle => by omega, fun hm => absurd ⟨hm.1, hm.2.1⟩ hs⟩

/-- The next total is made within so many packs exactly if some listed size offers that. -/
theorem madeWithin_iff_offer (h : Sound sizes t) (hn : n < vacant) :
    MadeWithin sizes t.counts.size n ↔
      ∃ size ∈ sizes, offer t.counts t.counts.size size ≤ n := by
  have hpos := h.size_pos
  cases n with
  | zero =>
    rw [madeWithin_zero]
    constructor
    · intro hz; omega
    · rintro ⟨size, -, hle⟩
      have := offer_pos t.counts t.counts.size size
      omega
  | succ n =>
    rw [madeWithin_succ hpos]
    simp only [offer_le_iff h (Nat.le_refl _) hn]

theorem row_fewest (h : Sound sizes t)
    (hb : best t.counts t.counts.size sizes 0 vacant vacant = (count, choice)) :
    HoldsFewest sizes t.counts.size count := by
  rcases best_cases (Nat.le_refl t.counts.size) sizes 0 vacant vacant (Nat.le_refl _) with
    ⟨heq, hall⟩ | ⟨j, size, hfirst, hlt, heq⟩
  · rw [hb] at heq; cases heq
    refine ⟨Nat.le_refl _, fun n hn => ?_⟩
    rw [madeWithin_iff_offer h hn]
    constructor
    · intro hle; omega
    · rintro ⟨size, hs, hle⟩
      have := hall size hs
      omega
  · rw [hb] at heq; cases heq
    refine ⟨Nat.le_of_lt hlt, fun n hn => ?_⟩
    rw [madeWithin_iff_offer h hn]
    constructor
    · intro hle
      exact ⟨size, List.mem_of_getElem? hfirst.at_position, hle⟩
    · rintro ⟨other, ho, hle⟩
      exact Nat.le_trans (hfirst.le_offer other ho) hle

theorem row_first (hb : best t.counts t.counts.size sizes 0 vacant vacant = (count, choice)) :
    RecordsFirst sizes t.counts t.counts.size count choice := by
  rcases best_cases (Nat.le_refl t.counts.size) sizes 0 vacant vacant (Nat.le_refl _) with
    ⟨heq, -⟩ | ⟨j, size, hfirst, hlt, heq⟩
  · rw [hb] at heq; cases heq
    exact .inl ⟨rfl, rfl⟩
  · rw [hb, Nat.zero_add] at heq; cases heq
    exact .inr ⟨hlt, size, hfirst, rfl⟩

theorem getD_push (cells : Array Nat) (value k : Nat) :
    (cells.push value).getD k vacant = if k = cells.size then value else cells.getD k vacant := by
  simp only [Array.getD_eq_getD_getElem?, Array.getElem?_push]
  split <;> simp_all

theorem RecordsFirst.push (h : RecordsFirst sizes t.counts total count choice)
    (ht : total ≤ t.counts.size) (c : Nat) :
    RecordsFirst sizes (t.counts.push c) total count choice := by
  rcases h with h | ⟨hlt, size, hb, ho⟩
  · exact .inl h
  · refine .inr ⟨hlt, size, ⟨hb.at_position, ?_, ?_⟩, by rw [offer_push ht, ho]⟩
    · intro other hm
      rw [offer_push ht, offer_push ht]
      exact hb.le_offer other hm
    · intro before hlt other hm
      rw [offer_push ht, offer_push ht]
      exact hb.lt_offer before hlt other hm

theorem grow_cases (sizes : List Nat) (t : Table) :
    ∃ count choice, best t.counts t.counts.size sizes 0 vacant vacant = (count, choice) ∧
      grow sizes t =
        if choice ≤ vacant then .ok ⟨t.counts.push count, t.choices.push choice⟩
        else .error .positionTooLarge :=
  ⟨_, _, rfl, rfl⟩

/-- The next row keeps the invariant. -/
theorem grow_sound (h : Sound sizes t) (hg : grow sizes t = .ok t') :
    Sound sizes t' ∧ t'.counts.size = t.counts.size + 1 := by
  obtain ⟨count, choice, hb, heq⟩ := grow_cases sizes t
  rw [hg] at heq
  split at heq
  · cases heq
    have hpos := h.size_pos
    refine ⟨⟨by simp, by simp [h.size_choices], ?_, ?_, ?_⟩, by simp⟩
    · intro total ht
      rw [Array.size_push] at ht
      rw [getD_push]
      split
      · rename_i hnew; subst hnew; exact row_fewest h hb
      · exact h.fewest total (by omega)
    · rw [getD_push, if_neg (by rw [h.size_choices]; omega)]
      exact h.no_choice
    · intro total htpos ht
      rw [Array.size_push] at ht
      rw [getD_push, getD_push, h.size_choices]
      split
      · rename_i hnew; subst hnew
        exact (row_first hb).push (Nat.le_refl _) count
      · exact (h.first total htpos (by omega)).push (by omega) count
  · cases heq

/-- As long as positions fit a cell, there is always a next row. -/
theorem grow_ok (t : Table) (hlen : sizes.length ≤ vacant) : ∃ t', grow sizes t = .ok t' := by
  obtain ⟨count, choice, hb, heq⟩ := grow_cases sizes t
  have hle : choice ≤ vacant := by
    rcases row_first hb with ⟨-, hc⟩ | ⟨-, size, hfirst, -⟩
    · omega
    · have := (List.getElem?_eq_some_iff.1 hfirst.at_position).1
      omega
  rw [if_pos hle] at heq
  exact ⟨_, heq⟩

theorem growBy_sound : ∀ (n : Nat) {t t' : Table}, Sound sizes t → growBy sizes n t = .ok t' →
    Sound sizes t' ∧ t'.counts.size = t.counts.size + n := by
  intro n
  induction n with
  | zero => intro t t' h hg; cases hg; exact ⟨h, rfl⟩
  | succ n ih =>
    intro t t' h hg
    simp only [growBy] at hg
    split at hg
    · cases hg
    · rename_i t1 h1
      obtain ⟨hs, hsize⟩ := grow_sound h h1
      obtain ⟨hs', hsize'⟩ := ih hs hg
      exact ⟨hs', by omega⟩

theorem growBy_ok (hlen : sizes.length ≤ vacant) :
    ∀ (n : Nat) (t : Table), ∃ t', growBy sizes n t = .ok t' := by
  intro n
  induction n with
  | zero => intro t; exact ⟨t, rfl⟩
  | succ n ih =>
    intro t
    obtain ⟨t1, h1⟩ := grow_ok t hlen
    simp only [growBy, h1]
    exact ih t1

/-- A built table is exact for every total up to its ceiling. -/
theorem build_sound {ceiling : Nat} (hb : build sizes ceiling = .ok t) :
    Sound sizes t ∧ t.counts.size = ceiling + 1 := by
  simp only [build] at hb
  split at hb
  · obtain ⟨hs, hsize⟩ := growBy_sound ceiling (zero_sound sizes) hb
    exact ⟨hs, by rw [hsize, Nat.add_comm]; rfl⟩
  · cases hb

theorem build_ok {ceiling : Nat} (hlen : sizes.length ≤ vacant) (hc : ceiling < maxCount) :
    ∃ t, build sizes ceiling = .ok t := by
  simp only [build, if_pos hc]
  exact growBy_ok hlen ceiling zero

end Growth

/-! ## What the table tells -/

section Reading

variable {sizes : List Nat} {t : Table} {total n : Nat}

theorem cell?_eq_some {cells : Array Nat} :
    cell? cells total = some n ↔ cells.getD total vacant = n ∧ n ≠ vacant := by
  simp only [cell?]
  split
  · rename_i hv
    constructor
    · intro h; cases h
    · rintro ⟨rfl, hne⟩; exact absurd hv hne
  · rename_i hv
    constructor
    · intro h; cases h; exact ⟨rfl, hv⟩
    · rintro ⟨rfl, -⟩; rfl

theorem cell?_eq_none {cells : Array Nat} :
    cell? cells total = none ↔ cells.getD total vacant = vacant := by
  simp only [cell?]
  split
  · rename_i hv
    exact ⟨fun _ => hv, fun _ => rfl⟩
  · rename_i hv
    exact ⟨nofun, fun h => absurd h hv⟩

theorem minPacks?_eq_some (h : Sound sizes t) (ht : total < t.counts.size) :
    t.minPacks? total = some n ↔ IsLeast (packNumbers sizes total) n ∧ n < vacant := by
  have hcell := h.fewest total ht
  rw [minPacks?, cell?_eq_some]
  constructor
  · rintro ⟨rfl, hne⟩
    have hlt := Nat.lt_of_le_of_ne hcell.1 hne
    exact ⟨hcell.isLeast hlt, hlt⟩
  · rintro ⟨hl, hlt⟩
    exact ⟨hcell.eq_of_isLeast hlt hl, Nat.ne_of_lt hlt⟩

theorem lt_size_of_isReachable (h : t.isReachable total = true) : total < t.counts.size := by
  by_cases ht : total < t.counts.size
  · exact ht
  · simp [isReachable, minPacks?, cell?, Array.getElem?_eq_none (Nat.le_of_not_lt ht)] at h

/-- A total that fewer packs than the limit of a cell make up is marked as one that can be made. -/
theorem isReachable_iff (h : Sound sizes t) (ht : total < t.counts.size) :
    t.isReachable total = true ↔ ∃ n < vacant, MadeWithin sizes total n := by
  rw [isReachable, Option.isSome_iff_exists]
  constructor
  · rintro ⟨n, hn⟩
    obtain ⟨hl, hlt⟩ := (minPacks?_eq_some h ht).1 hn
    exact ⟨n, hlt, (isLeast_packNumbers.1 hl n).1 (Nat.le_refl n)⟩
  · rintro ⟨n, hlt, hm⟩
    have hcell := h.fewest total ht
    have hle := (hcell.2 n hlt).2 hm
    exact ⟨_, cell?_eq_some.2 ⟨rfl, by omega⟩⟩

/-- The search finds the first total that can be made, from where it starts. -/
theorem firstFrom?_eq_some (t : Table) (start : Nat) :
    t.firstFrom? start = some total ↔
      IsLeast {k | start ≤ k ∧ t.isReachable k = true} total := by
  fun_induction firstFrom? t start with
  | case1 start hlt hr =>
    constructor
    · rintro h; cases h
      exact ⟨⟨Nat.le_refl _, hr⟩, fun k hk => hk.1⟩
    · intro h
      rw [Nat.le_antisymm (h.2 ⟨Nat.le_refl _, hr⟩) h.1.1]
  | case2 start hlt hr ih =>
    -- the set loses `start`, which cannot be made
    have hset : {k | start + 1 ≤ k ∧ t.isReachable k = true} =
        {k | start ≤ k ∧ t.isReachable k = true} := by
      ext k
      constructor
      · rintro ⟨hle, hk⟩; exact ⟨by omega, hk⟩
      · rintro ⟨hle, hk⟩
        have hne : start ≠ k := by rintro rfl; exact hr hk
        exact ⟨by omega, hk⟩
    rw [ih, hset]
  | case3 start hge =>
    constructor
    · intro h; cases h
    · rintro ⟨⟨hle, hk⟩, -⟩
      have := lt_size_of_isReachable hk
      omega

end Reading

end Table
end PackPlan
