import PackPlan.CommandLine.Run
import PackPlan.Proofs.Calculator.Room
import PackPlan.Proofs.SizeSet.Canonical
import PackPlan.Proofs.Solver.Answer

/-!
# PackPlan.Proofs.CommandLine.Calculate

What `calculate` comes to, for all settings, quantities and sizes. The run is followed along its
quantities (`comes_calculateAll`): the shipments that are reported are those of the solver, whatever
the cache holds, and the calculator at the end is the one after the same orders (`orders`). So what
holds of runs of a calculator tells what its summary says (`sums_orders`).
-/

namespace PackPlan
namespace CommandLine

open Calculator (Step Solve Faithful direct directAnswer? lookups)

/-! ## What a run should come to -/

/-- The sizes that orders are answered from. -/
def chosen (standing : SizeSet) (sizes : Option (List Int)) : SizeSet :=
  (sizes.bind SizeSet.ofPositives?).getD standing

/-- The shipments of the quantities before the first one that the solver refuses. -/
def shipments (limits : Limits) (set : SizeSet) (quantities : List Int) : List Shipment :=
  ((quantities.map fun quantity => Solver.solve limits quantity set).takeWhile
    Except.isOk).filterMap Except.toOption

/-- The solver refuses none of the quantities. -/
def Answered (limits : Limits) (set : SizeSet) (quantities : List Int) : Prop :=
  ∀ quantity ∈ quantities, (Solver.solve limits quantity set).isOk = true

instance (limits : Limits) (set : SizeSet) : DecidablePred (Answered limits set) :=
  fun _ => List.decidableBAll ..

/-- What is written of a shipment, where the time is given as a text. -/
def pageText (took : String) (format : Format) (s : Shipment) : String :=
  (Report.ofShipment s).render format ++
    match format with
    | .table => " Took: " ++ took ++ "\n\n"
    | .json => ""

def isSummary (r : Log.Record) : Bool :=
  r.target == "packwise::commands::calculate" && r.message == "cache summary"

/-- No order comes as long after an earlier one as the time to live. -/
def Unelapsed (clock : Clock) (timeToLive n : Nat) : Prop :=
  ∀ i j, i < j → j < n → clock j - clock i < timeToLive

/-- What the figures of a summary add up to. -/
structure Sums (config : Config) (clock : Clock) (quantities : List Int)
    (sizes : Option (List Int)) (m : Metrics) : Prop where
  given : (sizes.bind SizeSet.ofPositives?).isSome → m.hits + m.misses = 0
  standing : sizes.bind SizeSet.ofPositives? = none →
    m.hits + m.misses = quantities.countP (0 < ·)
  /-- With room for all of them, each positive quantity is missed once. -/
  distinct : sizes.bind SizeSet.ofPositives? = none →
    Unelapsed clock config.cache.timeToLive quantities.length →
    (quantities.filter (0 < ·)).toFinset.card ≤ config.cache.maxCapacity →
    m.misses = (quantities.filter (0 < ·)).toFinset.card ∧ m.evictions = 0 ∧
      m.size = (quantities.filter (0 < ·)).toFinset.card

/-- What a run of `calculate` comes to. What is written and the code depend on the limits and the
sizes of the settings, not on those of the cache. -/
structure Calculates (config : Config) (clock : Clock) (quantities : List Int)
    (sizes : Option (List Int)) (format : Format) (o : Outcome) : Prop where
  /-- Each page has a time of its own. -/
  parts : o.parts =
    (shipments config.limits (chosen config.defaultSizes sizes) quantities).flatMap (page format)
  output : ∀ took wording, o.output took wording = String.join
    ((shipments config.limits (chosen config.defaultSizes sizes) quantities).map
      (pageText took format))
  code : o.status.code =
    if Answered config.limits (chosen config.defaultSizes sizes) quantities then 0 else 1
  summary : Answered config.limits (chosen config.defaultSizes sizes) quantities →
    ∃ m, o.records.filter isSummary = [summaryRecord m] ∧ Sums config clock quantities sizes m
  silent : ¬ Answered config.limits (chosen config.defaultSizes sizes) quantities →
    o.records.filter isSummary = []

/-! ## Orders -/

def order (sizes : Option (List Int)) (quantity : Int) : Calculator.Command :=
  match sizes with
  | some sizes => .calculateWith quantity sizes
  | none => .calculate quantity

/-- The steps that answer quantities after so many others. -/
def orders (clock : Clock) (sizes : Option (List Int)) : Nat → List Int → List Step
  | _, [] => []
  | n, quantity :: rest => ⟨order sizes quantity, clock n, {}⟩ :: orders clock sizes (n + 1) rest

section Orders

variable {limits : Limits} {clock : Clock} {sizes : Option (List Int)} {c : Calculator}
  {quantity : Int} {n : Nat} {quantities : List Int} {standing : SizeSet}

theorem run_order (limits : Limits) (now : Nat) (c : Calculator) (sizes : Option (List Int))
    (quantity : Int) :
    Step.run (Solver.solve limits) ⟨order sizes quantity, now, {}⟩ c =
      (.shipment (answer limits now c sizes quantity).result,
        (answer limits now c sizes quantity).next, (answer limits now c sizes quantity).events) := by
  cases sizes <;> rfl

theorem direct_solve (limits : Limits) (set : SizeSet) (quantity : Int) :
    direct (Solver.solve limits) set quantity = Solver.solve limits quantity set := by
  rw [direct]
  split
  · rename_i hq
    rw [Solver.solve_of_nonpos hq]
  · rfl

theorem directAnswer?_order (limits : Limits) (standing : SizeSet) (sizes : Option (List Int))
    (quantity : Int) :
    directAnswer? (Solver.solve limits) standing (order sizes quantity) =
      some (Solver.solve limits quantity (chosen standing sizes)) := by
  cases sizes with
  | none => rw [← direct_solve]; rfl
  | some given =>
    rw [order, directAnswer?, chosen, Option.bind_some]
    cases SizeSet.ofPositives? given with
    | none => rw [← direct_solve]; rfl
    | some usable => rfl

theorem answer_eq_solve (hf : Faithful (Solver.solve limits) c) (now : Nat)
    (sizes : Option (List Int)) (quantity : Int) :
    (answer limits now c sizes quantity).result =
        Solver.solve limits quantity (chosen c.sizes sizes) ∧
      (answer limits now c sizes quantity).next.sizes = c.sizes ∧
      Faithful (Solver.solve limits) (answer limits now c sizes quantity).next := by
  have hrun := run_order limits now c sizes quantity
  have hanswer := directAnswer?_order limits c.sizes sizes quantity
  have hnext := hf.step ⟨order sizes quantity, now, {}⟩
  obtain ⟨hresult, hsizes⟩ := hf.step_direct (order sizes quantity) now
  rw [Step.run] at hrun
  rw [hrun, hanswer] at hresult
  rw [hrun, Calculator.sizesAfter_of_answer hanswer] at hsizes
  rw [Step.run, hrun] at hnext
  exact ⟨Option.some.inj hresult, hsizes, hnext⟩

theorem mem_orders {step : Step} (hm : step ∈ orders clock sizes n quantities) :
    ∃ i < quantities.length, step.now = clock (n + i) ∧
      ∃ quantity ∈ quantities, step = ⟨order sizes quantity, step.now, {}⟩ := by
  induction quantities generalizing n with
  | nil => cases hm
  | cons quantity rest ih =>
    rw [orders, List.mem_cons] at hm
    rcases hm with rfl | hm
    · exact ⟨0, Nat.succ_pos _, rfl, quantity, List.mem_cons_self .., rfl⟩
    · obtain ⟨i, hi, hnow, other, ho, hstep⟩ := ih hm
      refine ⟨i + 1, Nat.succ_lt_succ hi, ?_, other, List.mem_cons_of_mem _ ho, hstep⟩
      rw [hnow, Nat.add_assoc, Nat.add_comm 1]

theorem unexpired_orders {timeToLive : Nat}
    (hu : ∀ i j, i < j → j < n + quantities.length → clock j - clock i < timeToLive) :
    Calculator.Unexpired timeToLive (orders clock sizes n quantities) := by
  induction quantities generalizing n with
  | nil => exact List.Pairwise.nil
  | cons quantity rest ih =>
    rw [List.length_cons] at hu
    refine List.Pairwise.cons (fun later hm => ?_) (ih fun i j hij hj => hu i j hij (by omega))
    obtain ⟨i, hi, hnow, -⟩ := mem_orders hm
    rw [hnow]
    exact hu n (n + 1 + i) (by omega) (by omega)

theorem lookups_of_given {set : SizeSet} (h : sizes.bind SizeSet.ofPositives? = some set) :
    lookups (orders clock sizes n quantities) = [] := by
  obtain ⟨given, rfl, hset⟩ := Option.bind_eq_some_iff.1 h
  have hsome : ¬ ∀ x ∈ given, x ≤ 0 := by
    rw [← SizeSet.ofPositives?_eq_none, hset]
    exact nofun
  rw [lookups, List.filterMap_eq_nil_iff]
  intro step hm
  obtain ⟨i, -, -, quantity, -, hstep⟩ := mem_orders hm
  rw [hstep, order, Calculator.Command.kind, if_neg hsome]; rfl

theorem lookups_of_standing (h : sizes.bind SizeSet.ofPositives? = none) :
    lookups (orders clock sizes n quantities) = quantities.filter (0 < ·) := by
  have hkind : ∀ quantity, (order sizes quantity).kind = .ofOrder quantity := by
    intro quantity
    cases sizes with
    | none => rfl
    | some given => exact if_pos (SizeSet.ofPositives?_eq_none.1 h)
  induction quantities generalizing n with
  | nil => rfl
  | cons quantity rest ih =>
    have hrest : (orders clock sizes (n + 1) rest).filterMap
        (fun step => step.command.kind.lookup?) = rest.filter (0 < ·) := ih
    rw [lookups, orders, List.filterMap_cons, hrest, hkind, Calculator.Kind.ofOrder]
    by_cases hq : 0 < quantity
    · simp [hq, Calculator.Kind.lookup?]
    · simp [hq, Calculator.Kind.lookup?]

end Orders

/-! ## Figures -/

theorem sums_orders (config : Config) (clock : Clock) {quantities : List Int}
    {sizes : Option (List Int)}
    (ha : Answered config.limits (chosen config.defaultSizes sizes) quantities) :
    Sums config clock quantities sizes
      ((Calculator.ofConfig config).after (Solver.solve config.limits)
        (orders clock sizes 0 quantities)).cache.metrics := by
  have hf := Calculator.faithful_start (Solver.solve config.limits) config.defaultSizes
    config.cache.maxCapacity config.cache.timeToLive
  have hsettled := hf.isSettled_history (orders clock sizes 0 quantities) <| by
    intro step hm
    obtain ⟨i, -, -, quantity, hq, hstep⟩ := mem_orders hm
    rw [hstep]
    refine ⟨rfl, ?_⟩
    have hok := ha quantity hq
    cases hs : Solver.solve config.limits quantity (chosen config.defaultSizes sizes) with
    | error e => rw [hs] at hok; cases hok
    | ok shipment => exact ⟨shipment, (directAnswer?_order ..).trans (congrArg some hs)⟩
  have hrecord := Calculator.record_of_all_settled hsettled
  rw [Calculator.lookups_history] at hrecord
  have hsum := (Calculator.accounts_after (Solver.solve config.limits) config.defaultSizes
    config.cache.maxCapacity config.cache.timeToLive (orders clock sizes 0 quantities)).lookups
  rw [← List.length_filterMap_eq_countP, Calculator.lookups_history] at hsum
  refine ⟨fun h => ?_, fun h => ?_, fun h hu hroom => ?_⟩
  · obtain ⟨set, hset⟩ := Option.isSome_iff_exists.1 h
    rw [lookups_of_given hset] at hsum
    exact hsum
  · rw [lookups_of_standing h, ← List.countP_eq_length_filter] at hsum
    exact hsum
  · have hcard : (Calculator.record ((Calculator.start config.defaultSizes
        config.cache.maxCapacity config.cache.timeToLive).history (Solver.solve config.limits)
        (orders clock sizes 0 quantities))).toFinset.card =
          (quantities.filter (0 < ·)).toFinset.card := by
      rw [hrecord, lookups_of_standing h, List.toFinset_reverse]
    have hunexpired : Calculator.Unexpired config.cache.timeToLive
        (orders clock sizes 0 quantities) := unexpired_orders (by rwa [Nat.zero_add])
    obtain ⟨hmissed, hsize⟩ := Calculator.missedOnce_after (Solver.solve config.limits)
      config.defaultSizes hunexpired hsettled (hcard.le.trans hroom)
    exact ⟨hmissed.misses.trans hcard, hmissed.evictions, hsize.trans hcard⟩

/-! ## The run -/

/-- What is written and told, and how the run ends: with a summary of these figures, or without. -/
structure Comes (format : Format) (found : List Shipment) (figures : Option Metrics)
    (o : Outcome) : Prop where
  parts : o.parts = found.flatMap (page format)
  status : o.status = if figures.isSome then .success else .failure
  summaries : o.records.filter isSummary = figures.toList.map summaryRecord

section Run

variable {limits : Limits} {clock : Clock} {sizes : Option (List Int)} {c : Calculator}
  {format : Format} {set : SizeSet} {quantity : Int} {quantities : List Int}

theorem isSummary_eventRecord (events : List Calculator.Event) :
    (events.filterMap eventRecord?).filter isSummary = [] := by
  rw [List.filter_eq_nil_iff]
  intro r hr
  obtain ⟨event, -, he⟩ := List.mem_filterMap.1 hr
  cases event <;> cases he <;> simp [isSummary]

theorem shipments_cons_of_ok {s : Shipment} (h : Solver.solve limits quantity set = .ok s) :
    shipments limits set (quantity :: quantities) = s :: shipments limits set quantities := by
  rw [shipments, List.map_cons, h, List.takeWhile_cons_of_pos rfl]
  rfl

theorem shipments_cons_of_error {e : SolverError}
    (h : Solver.solve limits quantity set = .error e) :
    shipments limits set (quantity :: quantities) = [] := by
  rw [shipments, List.map_cons, h, List.takeWhile_cons_of_neg (by simp [Except.toBool])]
  rfl

theorem answered_cons_of_ok {s : Shipment} (h : Solver.solve limits quantity set = .ok s) :
    Answered limits set (quantity :: quantities) ↔ Answered limits set quantities := by
  rw [Answered, List.forall_mem_cons, h]
  exact and_iff_right rfl

theorem not_answered_of_error {e : SolverError}
    (h : Solver.solve limits quantity set = .error e) :
    ¬ Answered limits set (quantity :: quantities) := by
  rw [Answered, List.forall_mem_cons, h]
  exact fun hall => nomatch hall.1

/-- Quantities are answered whose search ceiling is within the limit. -/
theorem answered_within_limit (hl : limits.maxCeiling < vacant)
    (h : ∀ quantity ∈ quantities, quantity.toNat + set.largest - 1 ≤ limits.maxCeiling) :
    Answered limits set quantities := by
  intro quantity hm
  by_cases hq : 0 < quantity
  · obtain ⟨s, hs⟩ := Solver.solve_within_limit hl hq (h quantity hm)
    rw [hs]; rfl
  · rw [Solver.solve_of_nonpos (by omega)]; rfl

theorem comes_calculateAll (hf : Faithful (Solver.solve limits) c) (clock : Clock)
    (sizes : Option (List Int)) (format : Format) (n : Nat) (quantities : List Int) :
    Comes format (shipments limits (chosen c.sizes sizes) quantities)
      (if Answered limits (chosen c.sizes sizes) quantities then
        some (c.after (Solver.solve limits) (orders clock sizes n quantities)).cache.metrics
      else none)
      (calculateAll limits clock sizes format n c quantities) := by
  -- the calculator changes from one quantity to the next, its sizes do not
  induction quantities generalizing c n with
  | nil =>
    have hall : Answered limits (chosen c.sizes sizes) [] := fun _ hm => nomatch hm
    rw [if_pos hall]
    exact ⟨rfl, rfl, rfl⟩
  | cons quantity rest ih =>
    obtain ⟨hresult, hsizes, hnext⟩ := answer_eq_solve hf (clock n) sizes quantity
    have hevents := isSummary_eventRecord (answer limits (clock n) c sizes quantity).events
    rw [calculateAll]
    cases hs : Solver.solve limits quantity (chosen c.sizes sizes) with
    | error e =>
      rw [hs] at hresult
      rw [if_neg (not_answered_of_error hs), shipments_cons_of_error hs]
      simp only [hresult]
      refine ⟨rfl, rfl, ?_⟩
      rw [List.filter_append, hevents]; rfl
    | ok shipment =>
      have hafter : c.after (Solver.solve limits) (orders clock sizes n (quantity :: rest)) =
          (answer limits (clock n) c sizes quantity).next.after (Solver.solve limits)
            (orders clock sizes (n + 1) rest) := by
        rw [orders, Calculator.after, List.foldl_cons, run_order]; rfl
      obtain ⟨hparts, hstatus, hsummaries⟩ := ih hnext (n + 1)
      rw [hsizes] at hparts hstatus hsummaries
      rw [hs] at hresult
      simp only [hresult, shipments_cons_of_ok hs, answered_cons_of_ok hs, hafter]
      refine ⟨?_, hstatus, ?_⟩
      · rw [Outcome.after, hparts]; rfl
      · rw [Outcome.after, List.filter_append, hevents, hsummaries]; rfl

theorem join_pages (took : String) (wording : Help → String) (format : Format)
    (found : List Shipment) :
    String.join ((found.flatMap (page format)).map (Part.render took wording)) =
      String.join (found.map (pageText took format)) := by
  induction found with
  | nil => rfl
  | cons s rest ih =>
    have hpage : String.join ((page format s).map (Part.render took wording)) =
        pageText took format s := by
      cases format <;> simp [page, pageText, Part.render, String.join_cons, String.append_assoc]
    rw [List.flatMap_cons, List.map_append, String.join_append, ih, List.map_cons,
      String.join_cons, hpage]

theorem tells_summary {f : Log.Filter} (hf : Log.Filter.ofText? "info" = some f) (m : Metrics) :
    f.tells (summaryRecord m) = true := by
  have hinfo : Log.Filter.ofText? "info" = some ⟨[.general (some .info)]⟩ := rfl
  rw [hinfo] at hf
  cases hf; rfl

theorem Comes.after {found : List Shipment} {figures : Option Metrics} {o : Outcome}
    (h : Comes format found figures o) (config : Config) :
    Comes format found figures (o.after [loadedRecord config] []) where
  parts := h.parts
  status := h.status
  summaries := by
    rw [Outcome.after, List.filter_append]
    exact h.summaries

theorem Comes.calculates {config : Config} {m : Metrics} {o : Outcome}
    (h : Comes format (shipments config.limits (chosen config.defaultSizes sizes) quantities)
      (if Answered config.limits (chosen config.defaultSizes sizes) quantities then some m else none)
      o)
    (hm : Answered config.limits (chosen config.defaultSizes sizes) quantities →
      Sums config clock quantities sizes m) :
    Calculates config clock quantities sizes format o where
  parts := h.parts
  output := by
    intro took wording
    rw [Outcome.output, h.parts, join_pages]
  code := by
    rw [h.status]
    split <;> rfl
  summary := by
    intro ha
    have hsummaries := h.summaries
    rw [if_pos ha] at hsummaries
    exact ⟨m, hsummaries, hm ha⟩
  silent := by
    intro ha
    have hsummaries := h.summaries
    rw [if_neg ha] at hsummaries
    exact hsummaries

/-- The summary is among what is told at this level. -/
theorem Calculates.filtered {config : Config} {o : Outcome} {f : Log.Filter}
    (h : Calculates config clock quantities sizes format o)
    (hf : Log.Filter.ofText? "info" = some f) :
    Calculates config clock quantities sizes format (o.filtered f) where
  parts := h.parts
  output := h.output
  code := h.code
  summary := by
    intro ha
    obtain ⟨m, hsummary, hm⟩ := h.summary ha
    refine ⟨m, ?_, hm⟩
    rw [Outcome.filtered, List.filter_comm, hsummary,
      List.filter_cons_of_pos (tells_summary hf m)]
    rfl
  silent := by
    intro ha
    rw [Outcome.filtered, List.filter_comm, h.silent ha]
    rfl

end Run

end CommandLine
end PackPlan
