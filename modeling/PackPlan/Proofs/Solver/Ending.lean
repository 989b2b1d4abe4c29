import PackPlan.Proofs.Solver.Trail

/-!
# PackPlan.Proofs.Solver.Ending

When the way back through a table ends. Each round of a walk is one visit on the trail, so a walk that
ends is one whose trail cannot be followed for ever (`reconstruct_endless_iff`). No round checks that
it takes anything off: a recorded size of zero keeps the walk where it is, and it is the only thing
that does (`reconstruct_ends`). Lists of positive sizes have none, and the table built for a list never
records one of its empty sizes. Against another list with an empty size even a built table has no end
(`reconstruct_endless_empty`).
-/

namespace PackPlan
namespace Table

variable {sizes visits : List Nat} {t : Table} {total left size i : Nat}

/-- The first round of a walk without an end leads to another one. -/
theorem reconstruct_endless_of_visit (hpos : 0 < total) (hi : t.choice? total = some i)
    (hs : sizes[i]? = some size) (hle : size ≤ total)
    (h : t.reconstruct sizes (total - size) = .endless) : t.reconstruct sizes total = .endless := by
  obtain ⟨visits, left, j, htrail, hrest⟩ := reconstruct_eq_endless.1 h
  exact reconstruct_eq_endless.2 ⟨i :: visits, left, j, .visit hpos hi hs hle htrail, hrest⟩

/-- A walk that ends takes something off in each round, so it has no more rounds than units. -/
theorem Trail.length_le (h : Trail t sizes total visits left)
    (hend : t.reconstruct sizes total ≠ .endless) : visits.length + left ≤ total := by
  induction h with
  | here total => simp
  | @visit total i size left visits hpos hi hs hle _ ih =>
    have hsize : 0 < size := by
      refine Nat.pos_of_ne_zero fun hz => hend ?_
      subst hz
      exact reconstruct_eq_endless.2 ⟨[], total, i, .here total, hpos, hi, hs⟩
    have hrest := ih fun h => hend (reconstruct_endless_of_visit hpos hi hs hle h)
    rw [List.length_cons]
    omega

/-- A walk without an end has any number of rounds. -/
theorem exists_trail_of_endless (h : t.reconstruct sizes total = .endless) (n : Nat) :
    ∃ visits left, visits.length = n ∧ 0 < left ∧ Trail t sizes total visits left := by
  induction n generalizing total with
  | zero =>
    obtain ⟨visits, left, -, htrail, hpos, -⟩ := reconstruct_eq_endless.1 h
    refine ⟨[], total, rfl, ?_, .here total⟩
    cases htrail with
    | here => exact hpos
    | visit hpos => exact hpos
  | succ n ih =>
    obtain ⟨visits, left, i, htrail, hpos, hi, hs⟩ := reconstruct_eq_endless.1 h
    cases htrail with
    | here =>
      -- the empty size is recorded at the total itself, so one round changes nothing
      obtain ⟨more, last, hlen, hlast, hmore⟩ := ih h
      exact ⟨i :: more, last, by rw [List.length_cons, hlen], hlast,
        .visit hpos hi hs (Nat.zero_le total) hmore⟩
    | visit hpos' hi' hs' hle' htail =>
      obtain ⟨more, last, hlen, hlast, hmore⟩ :=
        ih (reconstruct_eq_endless.2 ⟨_, left, i, htail, hpos, hi, hs⟩)
      exact ⟨_ :: more, last, by rw [List.length_cons, hlen], hlast,
        .visit hpos' hi' hs' hle' hmore⟩

theorem reconstruct_endless_iff :
    t.reconstruct sizes total = .endless ↔
      ∀ n, ∃ visits left, visits.length = n ∧ 0 < left ∧ Trail t sizes total visits left := by
  refine ⟨exists_trail_of_endless, fun h => ?_⟩
  by_contra hend
  obtain ⟨visits, left, hlen, hpos, htrail⟩ := h (total + 1)
  have := htrail.length_le hend
  omega

/-- The table of a list records none of its empty sizes, since they make no offer. -/
theorem Sound.reconstruct_ne_endless (h : Sound sizes t) : t.reconstruct sizes total ≠ .endless := by
  intro hend
  obtain ⟨-, left, i, -, hpos, hi, hs⟩ := reconstruct_eq_endless.1 hend
  cases hmin : t.minPacks? left with
  | none => rw [choice?_eq_none h hmin] at hi; cases hi
  | some n =>
    obtain ⟨hchoice, hne⟩ := cell?_eq_some.1 hi
    rcases h.first left hpos (lt_size_of_minPacks? hmin) with ⟨-, hv⟩ | ⟨hlt, size, hfirst, hoffer⟩
    · omega
    · rw [hchoice] at hfirst
      obtain rfl : size = 0 := Option.some.inj (hfirst.at_position.symm.trans hs)
      simp only [offer, Nat.lt_irrefl, false_and, if_false] at hoffer
      omega

/-- **When the way back ends.** It ends exactly if no total on its trail has an empty size recorded,
and then after no more rounds than there are units. This holds of any table with positive sizes, and
of the table that was built for the list, whatever sizes this has. -/
theorem reconstruct_ends (t : Table) (sizes : List Nat) (total : Nat) :
    (t.reconstruct sizes total ≠ .endless ↔
      ∀ visits left i, Trail t sizes total visits left → 0 < left → t.choice? left = some i →
        sizes[i]? ≠ some 0) ∧
    (t.reconstruct sizes total ≠ .endless ↔
      ∀ visits left, Trail t sizes total visits left → visits.length + left ≤ total) ∧
    ((∀ size ∈ sizes, 0 < size) → t.reconstruct sizes total ≠ .endless) ∧
    ∀ ceiling, build sizes ceiling = .ok t → t.reconstruct sizes total ≠ .endless := by
  refine ⟨?_, ?_, Table.reconstruct_ne_endless, fun ceiling hb =>
    (build_sound hb).1.reconstruct_ne_endless⟩
  · rw [Ne, reconstruct_eq_endless]
    constructor
    · intro hno visits left i htrail hpos hi hs
      exact hno ⟨visits, left, i, htrail, hpos, hi, hs⟩
    · rintro hall ⟨visits, left, i, htrail, hpos, hi, hs⟩
      exact hall visits left i htrail hpos hi hs
  · refine ⟨fun hend visits left htrail => htrail.length_le hend, fun hall hend => ?_⟩
    obtain ⟨visits, left, hlen, -, htrail⟩ := reconstruct_endless_iff.1 hend (total + 1)
    have := hall visits left htrail
    omega

/-- A list with an empty size, read with its own table, and a table of no counts at all. -/
theorem reconstruct_ends_own :
    (∀ size ∈ [2], 0 < size) ∧
      Table.reconstruct ⟨#[], #[vacant, vacant, 0]⟩ [2] 2 ≠ .endless ∧
      ∃ t, build [0, 2] 4 = .ok t ∧ t.reconstruct [0, 2] 4 ≠ .endless ∧
        ∀ visits left, Trail t [0, 2] 4 visits left → visits.length + left ≤ 4 := by
  have hsizes : ∀ size ∈ [2], 0 < size := by decide
  obtain ⟨t, hb⟩ := @build_ok [0, 2] 4 (by decide) (by decide)
  have hend := (reconstruct_ends t [0, 2] 4).2.2.2 4 hb
  exact ⟨hsizes, (reconstruct_ends _ [2] 2).2.2.1 hsizes, t, hb, hend,
    (reconstruct_ends t [0, 2] 4).2.1.1 hend⟩

/-- A built table, read with a list in which the recorded size is empty: each round leaves one unit. -/
theorem reconstruct_endless_empty :
    ∃ t, build [1] 1 = .ok t ∧ t.reconstruct [0] 1 = .endless ∧
      ∀ n, ∃ visits, visits.length = n ∧ Trail t [0] 1 visits 1 := by
  refine ⟨⟨#[0, 1], #[vacant, 0]⟩, by cbv, by cbv, fun n => ?_⟩
  induction n with
  | zero => exact ⟨[], rfl, .here 1⟩
  | succ n ih =>
    obtain ⟨visits, hlen, htrail⟩ := ih
    exact ⟨0 :: visits, by rw [List.length_cons, hlen],
      .visit (by decide) (by cbv) rfl (by decide) htrail⟩

end Table
end PackPlan
