import PackPlan.Cache
import PackPlan.Config

/-!
# PackPlan.Calculator

Answering orders from the sizes in force, through a cache, or from sizes that come with the order,
past the cache. Putting other sizes in force empties the cache, so a shipment that was worked out
for sizes no longer in force is never given again. That holds also when the sizes are replaced while
an order is being solved: its shipment is given but not stored (`Calculator.calculate`).

The solver is a function of quantity and sizes. What else may happen during a solve, a failure or a
replacement of the sizes, is an argument of its own (`Disturbance`).
-/

namespace PackPlan

/-- The sizes in force, how often they were replaced, and the shipments found for them. -/
structure Calculator where
  sizes : SizeSet
  generation : Nat
  cache : Cache

/-- What happens while a solver works. -/
structure Disturbance where
  /-- The error the solver gives up with. -/
  error? : Option SolverError := .none
  /-- The sizes put in force, one after the other, before the answer is used. -/
  replacements : List SizeSet := []
deriving DecidableEq

namespace Disturbance

def none : Disturbance := {}

def failure : Disturbance := { error? := some .noSizes }

def replacement (sizes : SizeSet) : Disturbance := { replacements := [sizes] }

end Disturbance

namespace Calculator

/-- A solver as a calculator sees it. -/
abbrev Solve := Int → SizeSet → Except SolverError Shipment

inductive Event where
  /-- The solver was asked. -/
  | asked (quantity : Int) (sizes : SizeSet)
  /-- The solver found a shipment. -/
  | solved (quantity : Int) (sizes : SizeSet) (shipment : Shipment)
  /-- The cache held a shipment of this total. -/
  | hit (quantity : Int) (total : Nat)
  /-- The shipment of this quantity made room for another. -/
  | evicted (quantity : Int)
deriving DecidableEq

/-- The answer to an order, the calculator after it, and what happened. -/
structure Outcome where
  result : Except SolverError Shipment
  next : Calculator
  events : List Event

def start (sizes : SizeSet) (capacity timeToLive : Nat) : Calculator where
  sizes := sizes
  generation := 0
  cache := .empty capacity timeToLive

def ofConfig (config : Config) : Calculator :=
  start config.defaultSizes config.cache.maxCapacity config.cache.timeToLive

def invalidate (c : Calculator) : Calculator := { c with cache := c.cache.invalidate }

def replaceSizes (c : Calculator) (sizes : SizeSet) : Calculator :=
  { c with sizes := sizes, generation := c.generation + 1, cache := c.cache.invalidate }

/-- Drops the expired shipments and gives their number. -/
def purge (c : Calculator) (now : Nat) : Nat × Calculator :=
  let (count, cache) := c.cache.purge now
  (count, { c with cache := cache })

def answer (solve : Solve) (during : Disturbance) (quantity : Int) (sizes : SizeSet) :
    Except SolverError Shipment :=
  match during.error? with
  | some e => .error e
  | none => solve quantity sizes

/-- The calculator when the solver is done. -/
def disturb (c : Calculator) (during : Disturbance) : Calculator :=
  during.replacements.foldl replaceSizes c

/-- Asks the solver once and puts the question on record. Nothing else asks it, so the record tells of
every question (`Calculator.history_congr`). -/
def ask (solve : Solve) (during : Disturbance) (c : Calculator) (quantity : Int)
    (sizes : SizeSet) : Outcome where
  result := answer solve during quantity sizes
  next := c.disturb during
  events :=
    match answer solve during quantity sizes with
    | .error _ => [.asked quantity sizes]
    | .ok shipment => [.asked quantity sizes, .solved quantity sizes shipment]

/-- Answers an order from the sizes in force. -/
def calculate (solve : Solve) (now : Nat) (during : Disturbance) (c : Calculator)
    (quantity : Int) : Outcome :=
  if quantity ≤ 0 then ⟨.ok (.empty quantity), c, []⟩
  else
    match c.cache.get quantity now with
    | (some shipment, cache) =>
      ⟨.ok shipment, { c with cache := cache }, [.hit quantity shipment.total]⟩
    | (none, cache) =>
      let asked := ask solve during { c with cache := cache } quantity c.sizes
      match asked.result with
      | .error _ => asked
      | .ok shipment =>
        if asked.next.generation = c.generation then
          let (evicted, cache) := asked.next.cache.set quantity shipment now
          { asked with
            next := { asked.next with cache := cache }
            events := asked.events ++ evicted.map .evicted }
        else asked

/-- Answers an order from the positive ones of the sizes that come with it; if there are none, from
the sizes in force. -/
def calculateWith (solve : Solve) (now : Nat) (during : Disturbance) (c : Calculator)
    (quantity : Int) (sizes : List Int) : Outcome :=
  match SizeSet.ofPositives? sizes with
  | some sizes => ask solve during c quantity sizes
  | none => calculate solve now during c quantity

/-! ## Runs -/

inductive Command where
  | calculate (quantity : Int)
  | calculateWith (quantity : Int) (sizes : List Int)
  | replaceSizes (sizes : SizeSet)
  | invalidate
  | purge
deriving DecidableEq

inductive Reply where
  | shipment (result : Except SolverError Shipment)
  | purged (count : Nat)
  | done

def apply (solve : Solve) (now : Nat) (during : Disturbance) (c : Calculator) :
    Command → Reply × Calculator × List Event
  | .calculate quantity =>
    let o := c.calculate solve now during quantity
    (.shipment o.result, o.next, o.events)
  | .calculateWith quantity sizes =>
    let o := c.calculateWith solve now during quantity sizes
    (.shipment o.result, o.next, o.events)
  | .replaceSizes sizes => (.done, c.replaceSizes sizes, [])
  | .invalidate => (.done, c.invalidate, [])
  | .purge => let (count, c) := c.purge now; (.purged count, c, [])

/-- A command, its time, and what happens while the solver works on it. -/
structure Step where
  command : Command
  now : Nat
  during : Disturbance := {}
deriving DecidableEq

def Step.run (solve : Solve) (step : Step) (c : Calculator) : Reply × Calculator × List Event :=
  c.apply solve step.now step.during step.command

def after (solve : Solve) (c : Calculator) (steps : List Step) : Calculator :=
  steps.foldl (fun c step => (step.run solve c).2.1) c

def replies (solve : Solve) (c : Calculator) : List Step → List Reply
  | [] => []
  | step :: rest =>
    let (reply, c, _) := step.run solve c
    reply :: c.replies solve rest

def Reply.answer? : Reply → Option (Except SolverError Shipment)
  | .shipment result => some result
  | _ => none

def answers (solve : Solve) (c : Calculator) (steps : List Step) :
    List (Except SolverError Shipment) :=
  (c.replies solve steps).filterMap Reply.answer?

def Event.isAsked : Event → Bool
  | .asked .. => true
  | _ => false

end Calculator
end PackPlan
