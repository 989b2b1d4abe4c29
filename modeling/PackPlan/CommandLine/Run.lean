import PackPlan.Calculator
import PackPlan.CommandLine.Arguments
import PackPlan.CommandLine.EnvironmentFile
import PackPlan.Config.File
import PackPlan.Log.Filter

/-!
# PackPlan.CommandLine.Run

A run: the settings are loaded, then the command is done. `calculate` answers its quantities one
after the other through one calculator and stops at the first that has no answer. What is written,
what is told and whether the run succeeds is a value (`Outcome`), so nothing is read or written here.
Files and the clock come as functions, and what is written leaves room for the time that the run
took and for the wording of help.
-/

namespace PackPlan
namespace CommandLine

open Log

/-! ## What a run tells -/

def secondsText (seconds : Nat) : String :=
  if seconds = 0 then "0ns" else toString seconds ++ "s"

def countDetail (name : String) (n : Nat) : String × Detail := (name, .number n)

def loadedRecord (config : Config) : Record :=
  ⟨.debug, "packwise", "loaded calculator configuration",
    [("sizes", .text config.defaultSizes.text), countDetail "capacity" config.cache.maxCapacity,
      ("ttl", .text (secondsText config.cache.ttlSeconds))]⟩

def eventRecord? : Calculator.Event → Option Record
  | .asked _ _ => none
  | .solved quantity sizes shipment =>
    some ⟨.debug, "packwise::calculator", "solved pack allocation",
      [("quantity", .number quantity), ("sizes", .text sizes.text),
        countDetail "total" shipment.total, countDetail "packs" shipment.packCount,
        ("elapsed", .elapsed)]⟩
  | .hit quantity total =>
    some ⟨.debug, "packwise::calculator", "cache hit",
      [("quantity", .number quantity), countDetail "total" total]⟩
  | .evicted quantity =>
    some ⟨.trace, "packwise::cache", "evicted cached result", [("quantity", .number quantity)]⟩

def summaryRecord (m : Metrics) : Record :=
  ⟨.info, "packwise::commands::calculate", "cache summary",
    [countDetail "hits" m.hits, countDetail "misses" m.misses,
      countDetail "evictions" m.evictions, countDetail "cached" m.size]⟩

def failureRecord (message : String) : Record := ⟨.error, "packwise", message, []⟩

/-! ## Outcomes -/

inductive Status where
  | success
  | failure
  /-- The arguments were refused. -/
  | refused
  /-- The run broke off before it began. -/
  | aborted
deriving DecidableEq, Repr

def Status.code : Status → Nat
  | .success => 0
  | .failure => 1
  | .refused => 2
  | .aborted => 101

/-- A text of help: what it is about, whether it is the full one, and the variables whose values it
shows. How it is worded is not said. -/
structure Help where
  topic : Topic
  full : Bool
  shown : List (String × Option String)
deriving DecidableEq, Repr

inductive Part where
  | text (value : String)
  | time
  | help (value : Help)
deriving DecidableEq, Repr

/-- What is written, where the time is given as a text and a wording of help is given. -/
def Part.render (took : String) (wording : Help → String) : Part → String
  | .text value => value
  | .time => took
  | .help value => wording value

structure Outcome where
  status : Status
  parts : List Part
  records : List Record
deriving DecidableEq, Repr

/-- What a run writes, where the time is given as a text. Help is left out unless a wording of it is
given. -/
def Outcome.output (took : String) (o : Outcome) (wording : Help → String := fun _ => "") : String :=
  String.join (o.parts.map (Part.render took wording))

/-- A run that tells and writes something before it goes on like another one. -/
def Outcome.after (records : List Record) (parts : List Part) (o : Outcome) : Outcome :=
  { o with parts := parts ++ o.parts, records := records ++ o.records }

/-- The outcome of a run that breaks off before it begins. -/
def Outcome.aborted : Outcome := ⟨.aborted, [], []⟩

/-- The options that help on a topic tells of, by their variables. -/
def Topic.variables : Topic → List String
  | .stage _ => [Options.logLevelName, Options.logFormatName, Options.configName]
  | .help => []

/-- Help on a topic. It shows the values that variables have. -/
def Help.on (topic : Topic) (full : Bool) (v : Variables) : Help :=
  ⟨topic, full, topic.variables.map fun name => (name, v.value? name)⟩

def Refusal.outcome (v : Variables) : Refusal → Outcome
  | .help topic full => ⟨.success, [.help (.on topic full v)], []⟩
  | .usage => ⟨.refused, [], []⟩

/-! ## Runs -/

/-- What is written of a shipment; for a reader, the time stands under it. -/
def page (format : Format) (s : Shipment) : List Part :=
  .text ((Report.ofShipment s).render format) ::
    match format with
    | .table => [.text " Took: ", .time, .text "\n\n"]
    | .json => []

/-- The time of each order, counted from the first one. -/
abbrev Clock := Nat → Nat

/-- Answers a quantity, from the given sizes or from those in force. -/
def answer (limits : Limits) (now : Nat) (c : Calculator) (sizes : Option (List Int))
    (quantity : Int) : Calculator.Outcome :=
  match sizes with
  | some sizes => c.calculateWith (Solver.solve limits) now .none quantity sizes
  | none => c.calculate (Solver.solve limits) now .none quantity

/-- Answers quantities after so many others. -/
def calculateAll (limits : Limits) (clock : Clock) (sizes : Option (List Int)) (format : Format) :
    Nat → Calculator → List Int → Outcome
  | _, c, [] => ⟨.success, [], [summaryRecord c.cache.metrics]⟩
  | n, c, quantity :: rest =>
    let answered := answer limits (clock n) c sizes quantity
    let records := answered.events.filterMap eventRecord?
    match answered.result with
    | .error e => ⟨.failure, [], records ++ [failureRecord e.message]⟩
    | .ok shipment =>
      (calculateAll limits clock sizes format (n + 1) answered.next rest).after records
        (page format shipment)

def Command.run (clock : Clock) (config : Config) : Command → Outcome
  | .calculate quantities sizes format =>
    calculateAll config.limits clock sizes format 0 (.ofConfig config) quantities
  | .listSizes => ⟨.success, [.text (config.defaultSizes.text ++ "\n")], []⟩

def Options.run (clock : Clock) (read : String → Except FileError String) (o : Options) : Outcome :=
  match Config.load read o.config with
  | .error e => ⟨.failure, [], [failureRecord e.message]⟩
  | .ok config => (o.command.run clock config).after [loadedRecord config] []

/-! ## Logs -/

/-- The filter of a log. The variable, if it holds a filter, comes before the option. There is none if
a directive is torn. -/
def logFilter? (v : Variables) (o : Options) : Option Filter :=
  match (v.value? Options.logLevelName).map Filter.read with
  | some (.ok f) => some f
  | some (.error .torn) => none
  | some (.error .malformed) | none => Filter.ofText? o.logLevel

/-- A run of which the filter lets through what is told. -/
def Outcome.filtered (f : Filter) (o : Outcome) : Outcome :=
  { o with records := o.records.filter f.tells }

/-- The run of some options: it needs a filter for its log. -/
def Options.outcome (clock : Clock) (read : String → Except FileError String) (v : Variables)
    (o : Options) : Outcome :=
  match logFilter? v o with
  | some f => (o.run clock read).filtered f
  | none => .aborted

/-- The variables of a run with the defaults of a file, if there is one. -/
def withDefaults? (v : Variables) (defaults : Option String) : Option Variables :=
  match defaults with
  | some text => EnvironmentFile.load? v text
  | none => some v

/-- What comes of a command line, and the form of its log: the run of its options, or their
refusal. -/
def outcomeAt (clock : Clock) (read : String → Except FileError String) (v : Variables)
    (defaults : Option String) (texts : List String) : LogFormat × Outcome :=
  match withDefaults? v defaults with
  | none => (.compact, .aborted)
  | some v =>
    match Options.ofArguments v texts with
    | .error refusal => (.compact, refusal.outcome v)
    | .ok options => (options.logFormat, options.outcome clock read v)

/-- What comes of a command line whose run takes no time. -/
def outcome : (String → Except FileError String) → Variables → Option String → List String →
    LogFormat × Outcome :=
  outcomeAt fun _ => 0

end CommandLine
end PackPlan
