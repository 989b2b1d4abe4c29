import PackPlan.Proofs.Cache.Run
import PackPlan.Proofs.Calculator.Calculate

/-!
# PackPlan.Proofs.Calculator.History

What one sees of a run of a calculator: each step with its reply and what happened in it (`Turn`). From
a turn alone one reads whether a quantity was looked up, how often the solver was asked and how often
the sizes were replaced, so statements about runs need no look into the calculator.

`Uses` lists the ways a turn goes, each with the commands that the cache is given. `Step.uses` says that
there are no others, so later proofs follow the list behind the cache and split into these cases.

An event tells of each question to the solver. A turn with such an event replies with the answer to the
question (`Step.reply_of_asked`), and what the solver would say to any other question has no part in a
run (`history_congr`).
-/

namespace PackPlan
namespace Calculator

/-! ## Commands -/

/-- What a command is to the cache and the solver. -/
inductive Kind where
  /-- An order from the sizes in force, of nothing. -/
  | nothing
  /-- An order from the sizes in force, whose quantity is looked up first. -/
  | lookup (quantity : Int)
  /-- An order that comes with a positive size. -/
  | custom
  | replacement
  | invalidation
  | purge
deriving DecidableEq

def Kind.ofOrder (quantity : Int) : Kind := if 0 < quantity then .lookup quantity else .nothing

def Kind.lookup? : Kind → Option Int
  | .lookup quantity => some quantity
  | _ => none

def Command.kind : Command → Kind
  | .calculate quantity => .ofOrder quantity
  | .calculateWith quantity sizes => if ∀ x ∈ sizes, x ≤ 0 then .ofOrder quantity else .custom
  | .replaceSizes _ => .replacement
  | .invalidate => .invalidation
  | .purge => .purge

/-! ## Turns -/

/-- A step of a run, its reply and what happened in it. -/
structure Turn where
  step : Step
  reply : Reply
  events : List Event

namespace Turn

def kind (t : Turn) : Kind := t.step.command.kind

/-- How often the solver is asked. -/
def calls (t : Turn) : Nat := t.events.countP Event.isAsked

def isAnswered (t : Turn) : Bool :=
  match t.reply with
  | .shipment (.ok _) => true
  | _ => false

/-- How often the sizes are replaced: by the command, or while the solver works. -/
def replacements (t : Turn) : Nat :=
  if t.kind = .replacement then 1
  else if t.calls = 0 then 0 else t.step.during.replacements.length

/-- The solver is asked for a quantity that was looked up. -/
def misses (t : Turn) : Bool := t.kind.lookup?.isSome && t.calls != 0

/-- The solver answers for a quantity that was looked up, and the sizes stay in force. -/
def stores (t : Turn) : Bool := t.misses && t.isAnswered && t.replacements == 0

variable {t : Turn}

theorem misses_of_unasked (ha : t.calls = 0) : t.misses = false := by
  rw [misses, ha]
  exact Bool.and_false _

theorem misses_of_asked {quantity : Int} (hk : t.kind = .lookup quantity) (ha : t.calls = 1) :
    t.misses = true := by
  rw [misses, hk, ha]; rfl

theorem stores_of_unasked (ha : t.calls = 0) : t.stores = false := by
  rw [stores, misses_of_unasked ha]; rfl

theorem replacements_of_unasked (hk : t.kind ≠ .replacement) (ha : t.calls = 0) :
    t.replacements = 0 := by
  rw [replacements, if_neg hk, if_pos ha]

theorem replacements_of_asked (hk : t.kind ≠ .replacement) (ha : t.calls = 1) :
    t.replacements = t.step.during.replacements.length := by
  rw [replacements, if_neg hk, if_neg (by omega)]

end Turn

def Step.turn (solve : Solve) (step : Step) (c : Calculator) : Turn :=
  ⟨step, (step.run solve c).1, (step.run solve c).2.2⟩

def history (solve : Solve) (c : Calculator) : List Step → List Turn
  | [] => []
  | step :: rest => step.turn solve c :: (step.run solve c).2.1.history solve rest

section Runs

variable (solve : Solve) (c : Calculator) (steps : List Step) (step : Step)

theorem after_concat :
    c.after solve (steps ++ [step]) = (step.run solve (c.after solve steps)).2.1 := by
  rw [after, after, List.foldl_append]; rfl

theorem history_concat :
    c.history solve (steps ++ [step]) =
      c.history solve steps ++ [step.turn solve (c.after solve steps)] := by
  induction steps generalizing c with
  | nil => rfl
  | cons first rest ih =>
    rw [List.cons_append, history, history, ih, List.cons_append]; rfl

end Runs

/-! ## Ways -/

/-- A turn of a calculator whose cache behaves like this list, and what the cache is told in it. -/
inductive Uses (r : Recency) (t : Turn) : List Cache.Command → Prop where
  | nothing (hk : t.kind = .nothing) (ha : t.calls = 0) : Uses r t []
  | hit {quantity : Int} {shipment : Shipment} (hk : t.kind = .lookup quantity)
      (hg : (r.get quantity t.step.now).1 = some shipment)
      (hs : t.reply = .shipment (.ok shipment)) (he : t.events = [.hit quantity shipment.total]) :
      Uses r t [.get quantity t.step.now]
  /-- The solver gives up, or its shipment comes too late. -/
  | lost {quantity : Int} (hk : t.kind = .lookup quantity)
      (hg : (r.get quantity t.step.now).1 = none) (ha : t.calls = 1)
      (hs : t.isAnswered = false ∨ t.step.during.replacements ≠ []) :
      Uses r t
        (.get quantity t.step.now :: .replicate t.step.during.replacements.length .invalidate)
  | stored {quantity : Int} {shipment : Shipment} (hk : t.kind = .lookup quantity)
      (hg : (r.get quantity t.step.now).1 = none) (ha : t.calls = 1)
      (hs : t.reply = .shipment (.ok shipment)) (hr : t.step.during.replacements = []) :
      Uses r t [.get quantity t.step.now, .set quantity shipment t.step.now]
  | custom (hk : t.kind = .custom) (ha : t.calls = 1) :
      Uses r t (.replicate t.step.during.replacements.length .invalidate)
  | replaced (hk : t.kind = .replacement) (ha : t.calls = 0) : Uses r t [.invalidate]
  | invalidated (hk : t.kind = .invalidation) (ha : t.calls = 0) : Uses r t [.invalidate]
  | purged (hk : t.kind = .purge) (ha : t.calls = 0) : Uses r t [.purge t.step.now]

section Uses

variable (solve : Solve) {c : Calculator} {r : Recency}

theorem represents_disturb (h : c.cache.Represents r) (during : Disturbance) :
    (c.disturb during).cache.Represents
      (r.after (.replicate during.replacements.length .invalidate)) := by
  rw [disturb]
  induction during.replacements generalizing c r with
  | nil => exact h
  | cons sizes rest ih => exact ih h.invalidate

theorem filter_evicted (evicted : List Int) :
    (evicted.map Event.evicted).filter Event.isAsked = [] := by
  simp [Event.isAsked]

theorem filter_ask (during : Disturbance) (c : Calculator) (quantity : Int) (sizes : SizeSet) :
    (ask solve during c quantity sizes).events.filter Event.isAsked = [.asked quantity sizes] := by
  rw [ask]
  cases answer solve during quantity sizes <;> rfl

theorem countP_ask (during : Disturbance) (c : Calculator) (quantity : Int) (sizes : SizeSet) :
    (ask solve during c quantity sizes).events.countP Event.isAsked = 1 := by
  rw [List.countP_eq_length_filter, filter_ask]; rfl

theorem uses_calculate (h : c.cache.Represents r) (step : Step) {quantity : Int}
    (hk : step.command.kind = .ofOrder quantity) :
    let o := c.calculate solve step.now step.during quantity
    ∃ commands, Uses r ⟨step, .shipment o.result, o.events⟩ commands ∧
      o.next.cache.Represents (r.after commands) := by
  intro o
  by_cases hn : quantity ≤ 0
  · have hnothing : step.command.kind = .nothing := hk.trans (if_neg (by omega))
    simp only [o, calculate_of_nonpos hn]
    exact ⟨_, .nothing hnothing rfl, h⟩
  have hq : 0 < quantity := by omega
  have hlookup : step.command.kind = .lookup quantity := hk.trans (if_pos hq)
  obtain ⟨hfound, hnext⟩ := h.get quantity step.now
  cases hget : c.cache.get quantity step.now with
  | mk found cache =>
    rw [hget] at hfound hnext
    cases found with
    | some shipment =>
      simp only [o, calculate_of_hit hq hget]
      exact ⟨_, .hit hlookup hfound.symm rfl rfl, hnext⟩
    | none =>
      cases ha : answer solve step.during quantity c.sizes with
      | error e =>
        simp only [o, calculate_of_failed hq hget ha]
        exact ⟨_, .lost hlookup hfound.symm rfl (.inl rfl), represents_disturb hnext step.during⟩
      | ok shipment =>
        by_cases hr : step.during.replacements = []
        · simp only [o, calculate_of_solved hq hget ha hr]
          refine ⟨_, .stored hlookup hfound.symm ?_ rfl hr, hnext.set quantity shipment step.now⟩
          rw [Turn.calls, List.countP_eq_length_filter, List.filter_append, filter_evicted]
          rfl
        · simp only [o, calculate_of_overtaken hq hget ha hr]
          exact ⟨_, .lost hlookup hfound.symm rfl (.inr hr), represents_disturb hnext step.during⟩

theorem Step.uses (h : c.cache.Represents r) (step : Step) :
    ∃ commands, Uses r (step.turn solve c) commands ∧
      (step.run solve c).2.1.cache.Represents (r.after commands) := by
  obtain ⟨command, now, during⟩ := step
  cases command with
  | calculate quantity => exact uses_calculate solve h ⟨.calculate quantity, now, during⟩ rfl
  | calculateWith quantity given =>
    simp only [Step.turn, Step.run, apply]
    cases hg : SizeSet.ofPositives? given with
    | none =>
      rw [calculateWith_of_none hg]
      exact uses_calculate solve h ⟨.calculateWith quantity given, now, during⟩
        (if_pos (SizeSet.ofPositives?_eq_none.1 hg))
    | some usable =>
      have hsome : ¬ ∀ x ∈ given, x ≤ 0 := by rw [← SizeSet.ofPositives?_eq_none, hg]; simp
      rw [calculateWith_of_usable hg]
      exact ⟨_, .custom (if_neg hsome) (countP_ask solve during c quantity usable),
        represents_disturb h during⟩
  | replaceSizes sizes => exact ⟨_, .replaced rfl rfl, h.invalidate⟩
  | invalidate => exact ⟨_, .invalidated rfl rfl, h.invalidate⟩
  | purge => exact ⟨_, .purged rfl rfl, (h.purge now).2⟩

end Uses

/-! ## The solver -/

section Asked

variable {solve other : Solve} {c : Calculator} {step : Step} {quantity : Int} {usable : SizeSet}

/-- A turn that tells of a question to the solver replies with the answer to it. -/
theorem Step.reply_of_asked (h : .asked quantity usable ∈ (step.turn solve c).events) :
    (step.turn solve c).reply = .shipment (answer solve step.during quantity usable) := by
  obtain ⟨command, now, during⟩ := step
  cases command with
  | calculate ordered => exact congrArg Reply.shipment (result_of_asked h).2.2
  | calculateWith ordered given =>
    simp only [Step.turn, Step.run, apply] at h ⊢
    cases hg : SizeSet.ofPositives? given with
    | none =>
      rw [calculateWith_of_none hg] at h ⊢
      exact congrArg Reply.shipment (result_of_asked h).2.2
    | some positives =>
      rw [calculateWith_of_usable hg] at h ⊢
      obtain ⟨rfl, rfl⟩ := mem_ask.1 h
      rfl
  | replaceSizes sizes => cases h
  | invalidate => cases h
  | purge => cases h

/-- A step goes the same with any solver that agrees on the questions it tells of. -/
theorem Step.run_congr
    (h : ∀ quantity usable, .asked quantity usable ∈ (step.turn solve c).events →
      solve quantity usable = other quantity usable) :
    step.run solve c = step.run other c := by
  obtain ⟨command, now, during⟩ := step
  cases command with
  | calculate ordered =>
    simp only [Step.run, apply]
    rw [calculate_congr h]
  | calculateWith ordered given =>
    simp only [Step.turn, Step.run, apply] at h ⊢
    cases hg : SizeSet.ofPositives? given with
    | none =>
      rw [calculateWith_of_none hg] at h
      rw [calculateWith_of_none hg, calculateWith_of_none hg, calculate_congr h]
    | some positives =>
      rw [calculateWith_of_usable hg] at h
      rw [calculateWith_of_usable hg, calculateWith_of_usable hg,
        ask_congr (h ordered positives (mem_ask.2 ⟨rfl, rfl⟩))]
  | replaceSizes sizes => rfl
  | invalidate => rfl
  | purge => rfl

/-- **The record of a run tells of every question to the solver.** A run goes the same with any solver
that agrees on these questions. -/
theorem history_congr (steps : List Step)
    (h : ∀ t ∈ c.history solve steps, ∀ quantity usable, .asked quantity usable ∈ t.events →
      solve quantity usable = other quantity usable) :
    c.history solve steps = c.history other steps ∧ c.after solve steps = c.after other steps := by
  induction steps generalizing c with
  | nil => exact ⟨rfl, rfl⟩
  | cons step rest ih =>
    obtain ⟨hstep, hrest⟩ := List.forall_mem_cons.1 h
    have hrun := Step.run_congr hstep
    obtain ⟨hhistory, hafter⟩ := ih hrest
    constructor
    · rw [history, history, hhistory, Step.turn, Step.turn, hrun]
    · show (step.run solve c).2.1.after solve rest = (step.run other c).2.1.after other rest
      rw [hafter, hrun]

end Asked
end Calculator
end PackPlan
