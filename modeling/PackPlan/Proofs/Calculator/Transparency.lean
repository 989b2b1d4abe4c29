import PackPlan.Proofs.Cache.Run
import PackPlan.Proofs.Calculator.Calculate

/-!
# PackPlan.Proofs.Calculator.Transparency

The cache of a calculator does not show. `Faithful` is the invariant: each stored shipment is the one
the solver finds for the sizes in force. It holds at the start, and every command keeps it, whatever
happens while the solver works: a shipment is stored only if the sizes it was found for are still in
force, and a replacement of the sizes leaves nothing stored (`Faithful.after`).

`transparent_after` draws the consequences for every state that a calculator gets into
(`Transparent`), and for runs in which nothing happens during a solve: their answers are those of
`directAnswers`, which knows no cache.
-/

namespace PackPlan
namespace Calculator

/-- Every stored shipment is what the solver finds for the sizes in force. -/
def Faithful (solve : Solve) (c : Calculator) : Prop :=
  ∃ r, c.cache.Represents r ∧
    ∀ h ∈ r.held, 0 < h.quantity ∧ solve h.quantity c.sizes = .ok h.shipment

section Invariant

variable {solve : Solve} {c : Calculator}

theorem faithful_start (solve : Solve) (sizes : SizeSet) (capacity timeToLive : Nat) :
    Faithful solve (start sizes capacity timeToLive) := by
  refine ⟨_, Cache.represents_empty capacity timeToLive, ?_⟩
  intro h hm
  cases hm

/-- The invariant is about the cache and the sizes only, and fewer entries keep it. -/
theorem Faithful.of_subset {r r' : Recency} {cache : Cache}
    (h : ∀ x ∈ r.held, 0 < x.quantity ∧ solve x.quantity c.sizes = .ok x.shipment)
    (hr : cache.Represents r') (hs : ∀ x ∈ r'.held, x ∈ r.held) :
    Faithful solve { c with cache := cache } :=
  ⟨r', hr, fun x hx => h x (hs x hx)⟩

theorem Faithful.invalidate (h : Faithful solve c) : Faithful solve c.invalidate := by
  obtain ⟨r, hr, -⟩ := h
  refine ⟨r.invalidate, hr.invalidate, ?_⟩
  intro x hx
  cases hx

/-- With other sizes in force nothing is stored, so nothing is wrong. -/
theorem Faithful.replaceSizes (h : Faithful solve c) (sizes : SizeSet) :
    Faithful solve (c.replaceSizes sizes) := by
  obtain ⟨r, hr, -⟩ := h
  refine ⟨r.invalidate, hr.invalidate, ?_⟩
  intro x hx
  cases hx

theorem Faithful.disturb (h : Faithful solve c) (during : Disturbance) :
    Faithful solve (c.disturb during) := by
  rw [Calculator.disturb]
  induction during.replacements generalizing c with
  | nil => exact h
  | cons sizes rest ih => exact ih (h.replaceSizes sizes)

theorem Faithful.purge (h : Faithful solve c) (now : Nat) : Faithful solve (c.purge now).2 := by
  obtain ⟨r, hr, hall⟩ := h
  exact .of_subset hall (hr.purge now).2 fun x hx => (Recency.mem_purge.1 hx).1

/-- A lookup keeps the invariant, and what it finds the solver finds too. -/
theorem Faithful.get (h : Faithful solve c) (quantity : Int) (now : Nat) :
    Faithful solve { c with cache := (c.cache.get quantity now).2 } ∧
      ∀ shipment, (c.cache.get quantity now).1 = some shipment →
        solve quantity c.sizes = .ok shipment := by
  obtain ⟨r, hr, hall⟩ := h
  obtain ⟨hfound, hnext⟩ := hr.get quantity now
  refine ⟨.of_subset hall hnext fun x hx => ((Recency.mem_get hr.tidy).1 hx).1, ?_⟩
  intro shipment hg
  rw [hfound] at hg
  obtain ⟨x, hx, rfl, rfl, -⟩ := Recency.exists_of_get hg
  exact (hall x hx).2

/-- What the solver found for the sizes in force may be stored. -/
theorem Faithful.set {quantity : Int} {shipment : Shipment} (h : Faithful solve c)
    (hq : 0 < quantity) (hs : solve quantity c.sizes = .ok shipment) (now : Nat) :
    Faithful solve { c with cache := (c.cache.set quantity shipment now).2 } := by
  obtain ⟨r, hr, hall⟩ := h
  refine ⟨_, hr.set quantity shipment now, ?_⟩
  intro x hx
  rcases (Recency.mem_set hr.tidy).1 hx with ⟨-, rfl⟩ | ⟨hx, -⟩
  · exact ⟨hq, hs⟩
  · exact hall x hx

/-- An order keeps the invariant, and its shipment is what the solver finds for the sizes that were
in force when it came. -/
theorem Faithful.calculate (h : Faithful solve c) (now : Nat) (during : Disturbance)
    (quantity : Int) :
    Faithful solve (c.calculate solve now during quantity).next ∧
      ∀ shipment, 0 < quantity → (c.calculate solve now during quantity).result = .ok shipment →
        solve quantity c.sizes = .ok shipment := by
  by_cases hn : quantity ≤ 0
  · rw [calculate_of_nonpos hn]
    exact ⟨h, fun _ hpos => absurd hn (by omega)⟩
  have hq : 0 < quantity := by omega
  obtain ⟨hlooked, hhit⟩ := h.get quantity now
  cases hget : c.cache.get quantity now with
  | mk found cache =>
    rw [hget] at hlooked hhit
    cases found with
    | some shipment =>
      rw [calculate_of_hit hq hget]
      refine ⟨hlooked, fun other _ ho => ?_⟩
      cases ho; exact hhit shipment rfl
    | none =>
      cases ha : answer solve during quantity c.sizes with
      | error e =>
        rw [calculate_of_failed hq hget ha]
        refine ⟨hlooked.disturb during, fun other _ ho => ?_⟩
        cases ho
      | ok shipment =>
        have hs := answer_eq_ok ha
        by_cases hr : during.replacements = []
        · rw [calculate_of_solved hq hget ha hr]
          refine ⟨hlooked.set hq hs now, fun other _ ho => ?_⟩
          cases ho; exact hs
        · -- the shipment is right for this order, but not for the sizes now in force
          rw [calculate_of_overtaken hq hget ha hr]
          refine ⟨hlooked.disturb during, fun other _ ho => ?_⟩
          cases ho; exact hs

theorem Faithful.calculateWith (h : Faithful solve c) (now : Nat) (during : Disturbance)
    (quantity : Int) (sizes : List Int) :
    Faithful solve (c.calculateWith solve now during quantity sizes).next := by
  cases hg : SizeSet.ofPositives? sizes with
  | some usable =>
    rw [calculateWith_of_usable hg]
    exact h.disturb during
  | none =>
    rw [calculateWith_of_none hg]
    exact (h.calculate now during quantity).1

theorem Faithful.step (h : Faithful solve c) (step : Step) :
    Faithful solve (step.run solve c).2.1 := by
  obtain ⟨command, now, during⟩ := step
  cases command with
  | calculate quantity => exact (h.calculate now during quantity).1
  | calculateWith quantity sizes => exact h.calculateWith now during quantity sizes
  | replaceSizes sizes => exact h.replaceSizes sizes
  | invalidate => exact h.invalidate
  | purge => exact h.purge now

theorem Faithful.after (h : Faithful solve c) (steps : List Step) :
    Faithful solve (c.after solve steps) := by
  rw [Calculator.after]
  induction steps generalizing c with
  | nil => exact h
  | cons step rest ih => exact ih (h.step step)

end Invariant

/-! ## Runs without a cache -/

/-- The answer from the sizes alone. -/
def direct (solve : Solve) (sizes : SizeSet) (quantity : Int) : Except SolverError Shipment :=
  if quantity ≤ 0 then .ok (.empty quantity) else solve quantity sizes

/-- The answer to a command from the sizes alone, if it is an order. -/
def directAnswer? (solve : Solve) (sizes : SizeSet) :
    Command → Option (Except SolverError Shipment)
  | .calculate quantity => some (direct solve sizes quantity)
  | .calculateWith quantity given =>
    match SizeSet.ofPositives? given with
    | some usable => some (solve quantity usable)
    | none => some (direct solve sizes quantity)
  | _ => none

/-- The sizes in force after a command. -/
def Command.sizesAfter (sizes : SizeSet) : Command → SizeSet
  | .replaceSizes other => other
  | _ => sizes

/-- The answers to the orders among some commands, from the sizes in force alone. -/
def directAnswers (solve : Solve) (sizes : SizeSet) :
    List Command → List (Except SolverError Shipment)
  | [] => []
  | command :: rest =>
    (directAnswer? solve sizes command).toList ++
      directAnswers solve (command.sizesAfter sizes) rest

section Direct

variable {solve : Solve} {c : Calculator}

theorem Faithful.result_eq_direct {during : Disturbance} (h : Faithful solve c)
    (he : during.error? = none) (now : Nat) (quantity : Int) :
    (c.calculate solve now during quantity).result = direct solve c.sizes quantity := by
  by_cases hn : quantity ≤ 0
  · rw [calculate_of_nonpos hn, direct, if_pos hn]
  rw [direct, if_neg hn]
  cases hresult : (c.calculate solve now during quantity).result with
  | ok shipment => exact ((h.calculate now during quantity).2 shipment (by omega) hresult).symm
  | error e =>
    obtain ⟨-, ha, -⟩ := calculate_eq_error hresult
    rw [← ha, answer_of_undisturbed he]

theorem Faithful.calculate_eq_direct (h : Faithful solve c) (now : Nat) (quantity : Int) :
    (c.calculate solve now {} quantity).result = direct solve c.sizes quantity ∧
      (c.calculate solve now {} quantity).next.sizes = c.sizes :=
  ⟨h.result_eq_direct rfl now quantity, sizes_calculate rfl⟩

/-- One step in which nothing happens during a solve. -/
theorem Faithful.step_direct (h : Faithful solve c) (command : Command) (now : Nat) :
    (c.apply solve now {} command).1.answer? = directAnswer? solve c.sizes command ∧
      (c.apply solve now {} command).2.1.sizes = command.sizesAfter c.sizes := by
  cases command with
  | calculate quantity =>
    obtain ⟨hresult, hsizes⟩ := h.calculate_eq_direct now quantity
    exact ⟨congrArg some hresult, hsizes⟩
  | calculateWith quantity given =>
    simp only [apply, Reply.answer?, directAnswer?]
    cases hg : SizeSet.ofPositives? given with
    | some usable =>
      rw [calculateWith_of_usable hg]
      have ha : answer solve {} quantity usable = solve quantity usable := answer_of_undisturbed rfl
      exact ⟨congrArg some ha, rfl⟩
    | none =>
      rw [calculateWith_of_none hg]
      obtain ⟨hresult, hsizes⟩ := h.calculate_eq_direct now quantity
      exact ⟨congrArg some hresult, hsizes⟩
  | replaceSizes sizes => exact ⟨rfl, rfl⟩
  | invalidate => exact ⟨rfl, rfl⟩
  | purge => exact ⟨rfl, rfl⟩

theorem answers_cons (c : Calculator) (step : Step) (rest : List Step) :
    c.answers solve (step :: rest) =
      (step.run solve c).1.answer?.toList ++ (step.run solve c).2.1.answers solve rest := by
  simp only [answers, replies]
  cases ha : (step.run solve c).1.answer? with
  | none => rw [List.filterMap_cons_none ha]; rfl
  | some result => rw [List.filterMap_cons_some ha]; rfl

/-- By induction on the run: the cache changes from step to step, the sizes only when they are
replaced. -/
theorem Faithful.answers_eq_directAnswers (h : Faithful solve c) (steps : List Step)
    (hu : ∀ step ∈ steps, step.during = {}) :
    c.answers solve steps = directAnswers solve c.sizes (steps.map Step.command) := by
  induction steps generalizing c with
  | nil => rfl
  | cons step rest ih =>
    have hrest := ih (h.step step) fun other ho => hu other (List.mem_cons_of_mem _ ho)
    have hduring := hu step (List.mem_cons_self ..)
    obtain ⟨command, now, during⟩ := step
    subst hduring
    obtain ⟨hanswer, hsizes⟩ := h.step_direct command now
    rw [answers_cons, hrest, List.map_cons, directAnswers]
    simp only [Step.run]
    rw [hanswer, hsizes]

end Direct

/-! ## Transparency -/

/-- The cache of a calculator does not show: what is stored is what the solver finds for the sizes in
force, and so is every shipment that is given, whatever happens while the solver works. -/
structure Transparent (solve : Solve) (c : Calculator) : Prop where
  stored : ∀ key e, c.cache.entries.get? key = some e →
    0 < e.quantity ∧ solve e.quantity c.sizes = .ok e.shipment
  given : ∀ now during quantity shipment, 0 < quantity →
    (c.calculate solve now during quantity).result = .ok shipment →
      solve quantity c.sizes = .ok shipment
  nothing : ∀ now during quantity, quantity ≤ 0 →
    (c.calculate solve now during quantity).result = .ok (.empty quantity)

theorem Faithful.transparent {solve : Solve} {c : Calculator} (h : Faithful solve c) :
    Transparent solve c where
  stored := by
    obtain ⟨r, hr, hall⟩ := h
    intro key e he
    exact hall _ (hr.mem_held he)
  given := by
    intro now during quantity shipment hq hresult
    exact (h.calculate now during quantity).2 shipment hq hresult
  nothing := by
    intro now during quantity hn
    rw [calculate_of_nonpos hn]

/-- **The cache is transparent** in every state that a calculator gets into, and when nothing happens
during a solve the answers of a run do not depend on capacity and time to live. -/
theorem transparent_after (solve : Solve) (sizes : SizeSet) (steps : List Step) :
    (∀ capacity timeToLive,
      Transparent solve ((start sizes capacity timeToLive).after solve steps)) ∧
    ((∀ step ∈ steps, step.during = {}) →
      ∀ capacity timeToLive capacity' timeToLive',
        (start sizes capacity timeToLive).answers solve steps =
          (start sizes capacity' timeToLive').answers solve steps) := by
  constructor
  · intro capacity timeToLive
    exact ((faithful_start solve sizes capacity timeToLive).after steps).transparent
  · intro hu capacity timeToLive capacity' timeToLive'
    rw [(faithful_start solve sizes capacity timeToLive).answers_eq_directAnswers steps hu,
      (faithful_start solve sizes capacity' timeToLive').answers_eq_directAnswers steps hu]
    rfl

/-- An order, other sizes, and an order again, without a cache and with one. -/
theorem transparent_after_replaceSizes :
    let solve : Solve := Solver.solve {}
    let sizes : SizeSet := ⟨[3, 2], by decide, by decide, by decide⟩
    let other : SizeSet := ⟨[4], by decide, by decide, by decide⟩
    let steps : List Step := [⟨.calculate 3, 0, {}⟩, ⟨.replaceSizes other, 5, {}⟩]
    let c := (start sizes 1 1000).after solve steps
    (∀ step ∈ steps, step.during = {}) ∧
      (start sizes 0 0).answers solve steps = (start sizes 1 1000).answers solve steps ∧
      (c.calculate solve 7 {} 3).result = .ok ⟨3, 4, [⟨4, 1⟩]⟩ ∧
      solve 3 c.sizes = .ok ⟨3, 4, [⟨4, 1⟩]⟩ := by
  have hdirect : direct (Solver.solve {}) ⟨[4], by decide, by decide, by decide⟩ 3 =
      .ok ⟨3, 4, [⟨4, 1⟩]⟩ := by cbv
  intro solve sizes other steps c
  have hu : ∀ step ∈ steps, step.during = {} := by decide
  have hresult : (c.calculate solve 7 {} 3).result = .ok ⟨3, 4, [⟨4, 1⟩]⟩ := by
    rw [(((faithful_start solve sizes 1 1000).after steps).calculate_eq_direct 7 3).1]
    exact hdirect
  have h := transparent_after solve sizes steps
  exact ⟨hu, h.2 hu 0 0 1 1000, hresult, (h.1 1 1000).given 7 {} 3 _ (by decide) hresult⟩

end Calculator
end PackPlan
