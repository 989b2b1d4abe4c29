import PackPlan.Calculator

/-!
# PackPlan.Proofs.Calculator.Calculate

The ways an order is answered from the sizes in force, one equation each: nothing is needed
(`calculate_of_nonpos`), the cache has the shipment (`calculate_of_hit`), the solver gives up
(`calculate_of_failed`), its shipment is stored (`calculate_of_solved`), or it is not because the
sizes were replaced meanwhile (`calculate_of_overtaken`). Every positive order is one of the last
four, so a proof about orders splits into them and does not open the definition. Only one of them is an
error (`calculate_eq_error`).

The events tell of the questions to the solver. An order that tells of one gives the answer to it
(`result_of_asked`), and no other question has a part in the order (`calculate_congr`).
-/

namespace PackPlan
namespace Calculator

/-! ## Disturbances -/

section Disturb

variable {solve : Solve} {during : Disturbance} {quantity : Int} {sizes : SizeSet}

theorem answer_of_undisturbed (h : during.error? = none) :
    answer solve during quantity sizes = solve quantity sizes := by
  rw [answer, h]

/-- What the solver finds is what it finds undisturbed. -/
theorem answer_eq_ok {shipment : Shipment}
    (h : answer solve during quantity sizes = .ok shipment) : solve quantity sizes = .ok shipment := by
  unfold answer at h
  cases he : during.error? with
  | none => rw [he] at h; exact h
  | some e => rw [he] at h; cases h

theorem disturb_of_kept (c : Calculator) (h : during.replacements = []) : c.disturb during = c := by
  rw [disturb, h]; rfl

/-- Each replacement is a generation of its own. -/
theorem generation_disturb (c : Calculator) (during : Disturbance) :
    (c.disturb during).generation = c.generation + during.replacements.length := by
  rw [disturb]
  induction during.replacements generalizing c with
  | nil => rfl
  | cons sizes rest ih =>
    rw [List.foldl_cons, ih, replaceSizes, List.length_cons]
    show c.generation + 1 + rest.length = _
    omega

end Disturb

/-! ## Orders -/

section Order

variable {solve : Solve} {now : Nat} {during : Disturbance} {c : Calculator} {quantity : Int}
  {shipment : Shipment} {cache : Cache}

theorem calculate_of_nonpos (hq : quantity ≤ 0) :
    c.calculate solve now during quantity = ⟨.ok (.empty quantity), c, []⟩ := by
  rw [calculate, if_pos hq]

theorem calculate_of_hit (hq : 0 < quantity) (hget : c.cache.get quantity now = (some shipment, cache)) :
    c.calculate solve now during quantity =
      ⟨.ok shipment, { c with cache := cache }, [.hit quantity shipment.total]⟩ := by
  rw [calculate, if_neg (by omega), hget]

theorem calculate_of_failed {e : SolverError} (hq : 0 < quantity)
    (hget : c.cache.get quantity now = (none, cache))
    (ha : answer solve during quantity c.sizes = .error e) :
    c.calculate solve now during quantity =
      ⟨.error e, { c with cache := cache }.disturb during, [.asked quantity c.sizes]⟩ := by
  rw [calculate, if_neg (by omega), hget]
  simp only [ask, ha]

theorem calculate_of_solved (hq : 0 < quantity) (hget : c.cache.get quantity now = (none, cache))
    (ha : answer solve during quantity c.sizes = .ok shipment) (hr : during.replacements = []) :
    c.calculate solve now during quantity =
      ⟨.ok shipment, { c with cache := (cache.set quantity shipment now).2 },
        [.asked quantity c.sizes, .solved quantity c.sizes shipment] ++
          (cache.set quantity shipment now).1.map .evicted⟩ := by
  rw [calculate, if_neg (by omega), hget]
  simp only [ask, ha, disturb_of_kept _ hr, if_true]

/-- The generation tells that the sizes were replaced, also when they are the same again. -/
theorem calculate_of_overtaken (hq : 0 < quantity)
    (hget : c.cache.get quantity now = (none, cache))
    (ha : answer solve during quantity c.sizes = .ok shipment) (hr : during.replacements ≠ []) :
    c.calculate solve now during quantity =
      ⟨.ok shipment, { c with cache := cache }.disturb during,
        [.asked quantity c.sizes, .solved quantity c.sizes shipment]⟩ := by
  have hlater : ({ c with cache := cache }.disturb during).generation ≠ c.generation := by
    have hlen := List.length_pos_iff.2 hr
    rw [generation_disturb]
    show c.generation + during.replacements.length ≠ c.generation
    omega
  rw [calculate, if_neg (by omega), hget]
  simp only [ask, ha, if_neg hlater]

/-- An order fails only if its quantity was looked up and not found, and the solver then gave up. -/
theorem calculate_eq_error {e : SolverError}
    (h : (c.calculate solve now during quantity).result = .error e) :
    0 < quantity ∧ answer solve during quantity c.sizes = .error e ∧
      ∃ cache, c.cache.get quantity now = (none, cache) ∧
        c.calculate solve now during quantity =
          ⟨.error e, { c with cache := cache }.disturb during, [.asked quantity c.sizes]⟩ := by
  by_cases hn : quantity ≤ 0
  · rw [calculate_of_nonpos hn] at h
    cases h
  have hq : 0 < quantity := by omega
  refine ⟨hq, ?_⟩
  cases hget : c.cache.get quantity now with
  | mk found cache =>
    cases found with
    | some shipment =>
      rw [calculate_of_hit hq hget] at h
      cases h
    | none =>
      cases ha : answer solve during quantity c.sizes with
      | error e' =>
        rw [calculate_of_failed hq hget ha] at h ⊢
        cases h
        exact ⟨rfl, cache, rfl, rfl⟩
      | ok shipment =>
        by_cases hr : during.replacements = []
        · rw [calculate_of_solved hq hget ha hr] at h
          cases h
        · rw [calculate_of_overtaken hq hget ha hr] at h
          cases h

theorem sizes_calculate (hr : during.replacements = []) :
    (c.calculate solve now during quantity).next.sizes = c.sizes := by
  by_cases hn : quantity ≤ 0
  · rw [calculate_of_nonpos hn]
  have hq : 0 < quantity := by omega
  cases hget : c.cache.get quantity now with
  | mk found cache =>
    cases found with
    | some shipment => rw [calculate_of_hit hq hget]
    | none =>
      cases ha : answer solve during quantity c.sizes with
      | error e => rw [calculate_of_failed hq hget ha, disturb_of_kept _ hr]
      | ok shipment => rw [calculate_of_solved hq hget ha hr]

theorem calculateWith_of_usable {given : List Int} {usable : SizeSet}
    (h : SizeSet.ofPositives? given = some usable) :
    c.calculateWith solve now during quantity given = ask solve during c quantity usable := by
  rw [calculateWith, h]

/-- Without a positive size the order is answered from the sizes in force. -/
theorem calculateWith_of_none {given : List Int} (h : SizeSet.ofPositives? given = none) :
    c.calculateWith solve now during quantity given = c.calculate solve now during quantity := by
  rw [calculateWith, h]

end Order

/-! ## The solver -/

section Asked

variable {solve other : Solve} {now : Nat} {during : Disturbance} {c : Calculator} {quantity : Int}
  {sizes usable : SizeSet} {asked : Int} {cache : Cache}

theorem mem_ask : .asked asked usable ∈ (ask solve during c quantity sizes).events ↔
    asked = quantity ∧ usable = sizes := by
  rw [ask]
  cases answer solve during quantity sizes <;> simp

theorem ask_congr (h : solve quantity sizes = other quantity sizes) (c : Calculator) :
    ask solve during c quantity sizes = ask other during c quantity sizes := by
  have hanswer : answer solve during quantity sizes = answer other during quantity sizes := by
    unfold answer
    split
    · rfl
    · exact h
  rw [ask, ask, hanswer]

/-- A quantity that the cache does not have is what the solver is asked for. -/
theorem calculate_of_missed (hq : 0 < quantity) (hget : c.cache.get quantity now = (none, cache)) :
    (c.calculate solve now during quantity).result = answer solve during quantity c.sizes ∧
      ∀ asked usable, .asked asked usable ∈ (c.calculate solve now during quantity).events ↔
        asked = quantity ∧ usable = c.sizes := by
  cases ha : answer solve during quantity c.sizes with
  | error e =>
    rw [calculate_of_failed hq hget ha]
    simp
  | ok shipment =>
    by_cases hr : during.replacements = []
    · rw [calculate_of_solved hq hget ha hr]
      simp
    · rw [calculate_of_overtaken hq hget ha hr]
      simp

/-- An order that tells of a question to the solver gives the answer to it. -/
theorem result_of_asked (h : .asked asked usable ∈ (c.calculate solve now during quantity).events) :
    asked = quantity ∧ usable = c.sizes ∧
      (c.calculate solve now during quantity).result = answer solve during asked usable := by
  by_cases hn : quantity ≤ 0
  · rw [calculate_of_nonpos hn] at h
    cases h
  have hq : 0 < quantity := by omega
  cases hget : c.cache.get quantity now with
  | mk found cache =>
    cases found with
    | some shipment =>
      rw [calculate_of_hit hq hget] at h
      simp at h
    | none =>
      obtain ⟨rfl, rfl⟩ := ((calculate_of_missed hq hget).2 asked usable).1 h
      exact ⟨rfl, rfl, (calculate_of_missed hq hget).1⟩

/-- An order is answered the same with any solver that agrees on the questions it tells of. -/
theorem calculate_congr
    (h : ∀ asked usable, .asked asked usable ∈ (c.calculate solve now during quantity).events →
      solve asked usable = other asked usable) :
    c.calculate solve now during quantity = c.calculate other now during quantity := by
  by_cases hn : quantity ≤ 0
  · rw [calculate_of_nonpos hn, calculate_of_nonpos hn]
  have hq : 0 < quantity := by omega
  cases hget : c.cache.get quantity now with
  | mk found cache =>
    cases found with
    | some shipment => rw [calculate_of_hit hq hget, calculate_of_hit hq hget]
    | none =>
      have hsame := h quantity c.sizes (((calculate_of_missed hq hget).2 _ _).2 ⟨rfl, rfl⟩)
      rw [calculate, calculate, if_neg hn, if_neg hn, hget]
      simp only [ask_congr hsame]

end Asked
end Calculator
end PackPlan
