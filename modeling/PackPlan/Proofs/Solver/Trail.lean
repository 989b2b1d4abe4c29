import PackPlan.Proofs.Solver.Counts

/-!
# PackPlan.Proofs.Solver.Trail

The trail of recorded choices, in a table whose cells may hold anything and with any list of sizes.
`Trail t sizes total visits left` says that from the total the choices lead over the positions
`visits`, one after the other, to what is left in the end. A walk follows the trail and counts its
visits (`walk_trail`); it can stop in three ways (`exists_stop`), and the trail decides which:

* `reconstruct_eq_finished`: nothing is left, and the trail is as long as the total records.
* `reconstruct_eq_broken`: the next choice is a contradiction, or the trail has another length.
* `reconstruct_eq_endless`: the next choice is an empty size, which leaves the walk where it is.

`reconstruct_faithful` is what a caller may rely on without knowing where the table comes from.
-/

namespace PackPlan

/-- How often each position is visited. -/
def tally (n : Nat) (visits : List Nat) : List Nat := (List.range n).map fun i => visits.count i

section Tally

variable {n i : Nat} {visits : List Nat}

@[simp] theorem length_tally : (tally n visits).length = n := by simp [tally]

theorem tally_nil (n : Nat) : tally n [] = List.replicate n 0 := by simp [tally, List.map_const']

theorem tally_cons (n i : Nat) (visits : List Nat) :
    tally n (i :: visits) = (tally n visits).modify i (· + 1) := by
  refine List.ext_getElem (by simp) fun j _ _ => ?_
  rw [List.getElem_modify]
  simp only [tally, List.getElem_map, List.getElem_range, List.count_cons, beq_iff_eq]
  split <;> rfl

end Tally

namespace Table

/-- From a total, the recorded choices lead over these positions to what is left. -/
inductive Trail (t : Table) (sizes : List Nat) : Nat → List Nat → Nat → Prop where
  | here (total : Nat) : Trail t sizes total [] total
  | visit {total i size left : Nat} {visits : List Nat} :
      0 < total → t.choice? total = some i → sizes[i]? = some size → size ≤ total →
      Trail t sizes (total - size) visits left → Trail t sizes total (i :: visits) left

variable {sizes counts visits : List Nat} {t : Table} {total left n i : Nat} {f : Fault}

/-! ## Rounds without an end -/

theorem walk_of_still (hpos : 0 < total) (hstep : t.step sizes total = .ok (i, total)) :
    t.walk sizes counts total = .endless := by
  rw [walk, if_neg (Nat.ne_of_gt hpos), hstep]
  simp only [if_neg (Nat.lt_irrefl total)]

theorem step_le (hstep : t.step sizes total = .ok (i, left)) : left ≤ total := by
  obtain ⟨-, size, -, -, rfl⟩ := step_eq_ok.1 hstep
  exact Nat.sub_le total size

/-- A round counts one pack and goes on, also where the walk stands still. -/
theorem walk_of_ok (hpos : 0 < total) (hstep : t.step sizes total = .ok (i, left)) :
    t.walk sizes counts total = t.walk sizes (counts.modify i (· + 1)) left := by
  rcases Nat.lt_or_eq_of_le (step_le hstep) with hlt | rfl
  · exact walk_of_lt hstep hlt
  · rw [walk_of_still hpos hstep, walk_of_still hpos hstep]

/-! ## Along the trail -/

theorem Trail.of_step (hpos : 0 < total) (hstep : t.step sizes total = .ok (i, n))
    (h : Trail t sizes n visits left) : Trail t sizes total (i :: visits) left := by
  obtain ⟨hi, size, hs, hle, rfl⟩ := step_eq_ok.1 hstep
  exact .visit hpos hi hs hle h

/-- A walk follows the trail and counts its visits. -/
theorem walk_trail (h : Trail t sizes total visits left) (hlen : counts.length = sizes.length) :
    t.walk sizes counts total =
      t.walk sizes (List.zipWith (· + ·) counts (tally sizes.length visits)) left := by
  induction h generalizing counts with
  | here total => rw [tally_nil, ← hlen, zipWith_add_replicate]
  | @visit total i size left visits hpos hi hs hle _ ih =>
    have hstep := step_eq_ok.2 ⟨hi, size, hs, hle, rfl⟩
    rw [walk_of_ok hpos hstep, ih (by rw [List.length_modify, hlen]), tally_cons,
      zipWith_add_modify]

/-- The same of a walk that starts with nothing counted. -/
theorem walk_zeros_trail (h : Trail t sizes total visits left) :
    t.walk sizes (List.replicate sizes.length 0) total =
      t.walk sizes (tally sizes.length visits) left := by
  rw [walk_trail h List.length_replicate, zipWith_replicate_add length_tally]

/-- A trail has only listed positions, so that no visit is left out of the count. -/
theorem sum_tally (h : Trail t sizes total visits left) :
    (tally sizes.length visits).sum = visits.length := by
  induction h with
  | here total => rw [tally_nil]; simp
  | @visit total i size left visits _ _ hs _ _ ih =>
    have hi : i < (tally sizes.length visits).length := by
      rw [length_tally]; exact (List.getElem?_eq_some_iff.1 hs).1
    rw [tally_cons, sum_modify hi, ih, List.length_cons]

/-- Every trail can be followed to where it stops: at nothing, at a contradiction, or at an empty
size. -/
theorem exists_stop (t : Table) (sizes : List Nat) (total : Nat) :
    ∃ visits left, Trail t sizes total visits left ∧
      (left = 0 ∨ 0 < left ∧
        ((∃ f, t.step sizes left = .error f) ∨ ∃ i, t.step sizes left = .ok (i, left))) := by
  induction total using Nat.strongRecOn with
  | ind total ih =>
    by_cases hz : total = 0
    · exact ⟨[], total, .here total, .inl hz⟩
    · have hpos : 0 < total := Nat.pos_of_ne_zero hz
      cases hstep : t.step sizes total with
      | error f => exact ⟨[], total, .here total, .inr ⟨hpos, .inl ⟨f, hstep⟩⟩⟩
      | ok next =>
        obtain ⟨i, n⟩ := next
        -- less is left and the trail goes on, or as much as before and it stops here
        rcases Nat.lt_or_eq_of_le (step_le hstep) with hlt | rfl
        · obtain ⟨visits, left, htrail, hstop⟩ := ih n hlt
          exact ⟨i :: visits, left, .of_step hpos hstep htrail, hstop⟩
        · exact ⟨[], n, .here n, .inr ⟨hpos, .inr ⟨i, hstep⟩⟩⟩

/-! ## The three outcomes -/

theorem reconstruct_of_home (h : Trail t sizes total visits 0) :
    t.reconstruct sizes total =
      if t.minPacks? total = some visits.length then .finished (tally sizes.length visits)
      else .broken .countDiffers := by
  have hsum : (tally sizes.length visits).foldr (· + ·) 0 = visits.length := sum_tally h
  simp only [reconstruct, walk_zeros_trail h, walk_zero, hsum]

theorem reconstruct_of_error (h : Trail t sizes total visits left) (hpos : 0 < left)
    (hstep : t.step sizes left = .error f) : t.reconstruct sizes total = .broken f := by
  simp only [reconstruct, walk_zeros_trail h, walk_of_error hpos hstep]

theorem reconstruct_of_still (h : Trail t sizes total visits left) (hpos : 0 < left)
    (hstep : t.step sizes left = .ok (i, left)) : t.reconstruct sizes total = .endless := by
  simp only [reconstruct, walk_zeros_trail h, walk_of_still hpos hstep]

theorem reconstruct_eq_finished :
    t.reconstruct sizes total = .finished counts ↔
      ∃ visits, Trail t sizes total visits 0 ∧ t.minPacks? total = some visits.length ∧
        counts = tally sizes.length visits := by
  constructor
  · intro h
    obtain ⟨visits, left, htrail, rfl | ⟨hpos, ⟨f, hstep⟩ | ⟨i, hstep⟩⟩⟩ := exists_stop t sizes total
    · rw [reconstruct_of_home htrail] at h
      split at h
      · rename_i hmin; cases h
        exact ⟨visits, htrail, hmin, rfl⟩
      · cases h
    · rw [reconstruct_of_error htrail hpos hstep] at h; cases h
    · rw [reconstruct_of_still htrail hpos hstep] at h; cases h
  · rintro ⟨visits, htrail, hmin, rfl⟩
    rw [reconstruct_of_home htrail, if_pos hmin]

theorem reconstruct_eq_broken :
    t.reconstruct sizes total = .broken f ↔
      (∃ visits left, Trail t sizes total visits left ∧ 0 < left ∧ t.step sizes left = .error f) ∨
        (f = .countDiffers ∧ ∃ visits, Trail t sizes total visits 0 ∧
          t.minPacks? total ≠ some visits.length) := by
  constructor
  · intro h
    obtain ⟨visits, left, htrail, rfl | ⟨hpos, ⟨g, hstep⟩ | ⟨i, hstep⟩⟩⟩ := exists_stop t sizes total
    · rw [reconstruct_of_home htrail] at h
      split at h
      · cases h
      · rename_i hmin; cases h
        exact .inr ⟨rfl, visits, htrail, hmin⟩
    · rw [reconstruct_of_error htrail hpos hstep] at h; cases h
      exact .inl ⟨visits, left, htrail, hpos, hstep⟩
    · rw [reconstruct_of_still htrail hpos hstep] at h; cases h
  · rintro (⟨visits, left, htrail, hpos, hstep⟩ | ⟨rfl, visits, htrail, hmin⟩)
    · exact reconstruct_of_error htrail hpos hstep
    · rw [reconstruct_of_home htrail, if_neg hmin]

theorem step_eq_still :
    (∃ i, t.step sizes left = .ok (i, left)) ↔
      ∃ i, t.choice? left = some i ∧ sizes[i]? = some 0 := by
  constructor
  · rintro ⟨i, hstep⟩
    obtain ⟨hi, size, hs, hle, heq⟩ := step_eq_ok.1 hstep
    obtain rfl : size = 0 := by omega
    exact ⟨i, hi, hs⟩
  · rintro ⟨i, hi, hs⟩
    exact ⟨i, step_eq_ok.2 ⟨hi, 0, hs, Nat.zero_le left, rfl⟩⟩

theorem reconstruct_eq_endless :
    t.reconstruct sizes total = .endless ↔
      ∃ visits left i, Trail t sizes total visits left ∧ 0 < left ∧ t.choice? left = some i ∧
        sizes[i]? = some 0 := by
  constructor
  · intro h
    obtain ⟨visits, left, htrail, rfl | ⟨hpos, ⟨f, hstep⟩ | hstep⟩⟩ := exists_stop t sizes total
    · rw [reconstruct_of_home htrail] at h
      split at h <;> cases h
    · rw [reconstruct_of_error htrail hpos hstep] at h; cases h
    · obtain ⟨i, hi, hs⟩ := step_eq_still.1 hstep
      exact ⟨visits, left, i, htrail, hpos, hi, hs⟩
  · rintro ⟨visits, left, i, htrail, hpos, hi, hs⟩
    obtain ⟨j, hstep⟩ := step_eq_still.2 ⟨i, hi, hs⟩
    exact reconstruct_of_still htrail hpos hstep

theorem reconstruct_ne_endless (hsizes : ∀ size ∈ sizes, 0 < size) :
    t.reconstruct sizes total ≠ .endless := by
  intro h
  obtain ⟨-, -, i, -, -, -, hs⟩ := reconstruct_eq_endless.1 h
  exact Nat.lt_irrefl 0 (hsizes 0 (List.mem_of_getElem? hs))

/-- **No table can fool the way back.** Whatever its cells hold, counts that it gives are those of the
visits on the trail to nothing, they weigh the total, and they are as many as the total records. With
positive sizes there is always an outcome, and it is a success exactly if there is such a trail. -/
theorem reconstruct_faithful (t : Table) (sizes : List Nat) (total : Nat) :
    (∀ counts, t.reconstruct sizes total = .finished counts →
      counts.length = sizes.length ∧ weigh sizes counts = total ∧
      t.minPacks? total = some counts.sum ∧ counts.sum ≠ vacant ∧
      ∃ visits, Trail t sizes total visits 0 ∧ counts = tally sizes.length visits) ∧
    ((∀ size ∈ sizes, 0 < size) →
      ((∃ counts, t.reconstruct sizes total = .finished counts) ↔
        ∃ visits, Trail t sizes total visits 0 ∧ t.minPacks? total = some visits.length) ∧
      ((∃ f, t.reconstruct sizes total = .broken f) ↔
        ¬ ∃ visits, Trail t sizes total visits 0 ∧ t.minPacks? total = some visits.length)) := by
  have hfinished : (∃ counts, t.reconstruct sizes total = .finished counts) ↔
      ∃ visits, Trail t sizes total visits 0 ∧ t.minPacks? total = some visits.length := by
    simp only [reconstruct_eq_finished]
    constructor
    · rintro ⟨-, visits, htrail, hmin, rfl⟩
      exact ⟨visits, htrail, hmin⟩
    · rintro ⟨visits, htrail, hmin⟩
      exact ⟨_, visits, htrail, hmin, rfl⟩
  refine ⟨fun counts h => ?_, fun hsizes => ⟨hfinished, ?_⟩⟩
  · obtain ⟨hlen, hweigh, hmin⟩ := reconstruct_finished h
    obtain ⟨visits, htrail, -, hcounts⟩ := reconstruct_eq_finished.1 h
    exact ⟨hlen, hweigh, hmin, (cell?_eq_some.1 hmin).2, visits, htrail, hcounts⟩
  · rw [← hfinished]
    cases h : t.reconstruct sizes total with
    | finished counts => simp
    | broken f => simp
    | endless => exact absurd h (reconstruct_ne_endless hsizes)

/-- Six recorded as one pack, by a choice of six and then, after a change, by one of three. -/
theorem reconstruct_faithful_changed :
    (∀ size ∈ [6, 3], 0 < size) ∧
      ∃ t, build [6, 3] 6 = .ok t ∧
        t.reconstruct [6, 3] 6 = .finished [1, 0] ∧
        (∃ visits, Trail t [6, 3] 6 visits 0 ∧ [1, 0] = tally 2 visits) ∧
        (t.setChoice 6 (some 1)).reconstruct [6, 3] 6 = .broken .countDiffers ∧
        ¬ ∃ visits, Trail (t.setChoice 6 (some 1)) [6, 3] 6 visits 0 ∧
          (t.setChoice 6 (some 1)).minPacks? 6 = some visits.length := by
  have hsizes : ∀ size ∈ [6, 3], 0 < size := by decide
  have hbuilt : build [6, 3] 6 = .ok ⟨#[0, vacant, vacant, 1, vacant, vacant, 1],
      #[vacant, vacant, vacant, 1, vacant, vacant, 0]⟩ := by cbv
  refine ⟨hsizes, _, hbuilt, ?_⟩
  have hfirst : Table.reconstruct ⟨#[0, vacant, vacant, 1, vacant, vacant, 1],
      #[vacant, vacant, vacant, 1, vacant, vacant, 0]⟩ [6, 3] 6 = .finished [1, 0] := by cbv
  have hchanged : (Table.setChoice ⟨#[0, vacant, vacant, 1, vacant, vacant, 1],
      #[vacant, vacant, vacant, 1, vacant, vacant, 0]⟩ 6 (some 1)).reconstruct [6, 3] 6 =
        .broken .countDiffers := by cbv
  refine ⟨hfirst, ((reconstruct_faithful _ _ _).1 _ hfirst).2.2.2.2, hchanged, ?_⟩
  exact ((reconstruct_faithful _ _ _).2 hsizes).2.1 ⟨_, hchanged⟩

end Table
end PackPlan
