import PackPlan.CommandLine.Variables
import PackPlan.Numeral
import PackPlan.Report
import PackPlan.Text.Pieces

/-!
# PackPlan.CommandLine.Options

The options of a run. An option is given before or after the command, or by an environment variable,
or takes its default. What is given after the command counts most, then what is given before it, then
the variable (`Options.complete`). A variable whose value is not one of the option is refused
wherever it would count.
-/

namespace PackPlan
namespace CommandLine

inductive LogFormat where
  | compact
  | json
deriving DecidableEq, Repr

/-! ## Values -/

def LogFormat.named? (text : String) : Option LogFormat :=
  if text = "compact" then some .compact else if text = "json" then some .json else none

def reportFormat? (text : String) : Option Format :=
  if text = "table" then some .table else if text = "json" then some .json else none

def path? (text : String) : Option String := if text.isEmpty then none else some text

def quantity? (text : String) : Option Int := Numeral.quantity? text.toList

def sizes? (text : String) : Option (List Int) :=
  (Text.pieces ',' text.toList).mapM Numeral.quantity?

/-! ## Options -/

/-- What is given at one level, before or after the command. -/
structure Given where
  logLevel : Option String := none
  logFormat : Option LogFormat := none
  config : Option String := none
  sizes : Option (List Int) := none
  format : Option Format := none
  quantities : List Int := []
deriving DecidableEq, Repr

inductive Command where
  | calculate (quantities : List Int) (sizes : Option (List Int)) (format : Format)
  | listSizes
deriving DecidableEq, Repr

structure Options where
  logLevel : String
  logFormat : LogFormat
  config : Option String
  command : Command
deriving DecidableEq, Repr

namespace Options

def logLevelName : String := "RUST_LOG"

def logFormatName : String := "LOG_FORMAT"

def configName : String := "PACKWISE_CONFIG"

/-- Whether the variables are in order where a level leaves an option to them. -/
def inOrder (v : Variables) (g : Given) : Bool :=
  (g.logFormat.isSome || (v.value? logFormatName).all fun text => (LogFormat.named? text).isSome)
    && (g.config.isSome || (v.value? configName).all fun text => (path? text).isSome)

/-- The first value that is given, or the one of the variable. -/
def choose {α : Type} (inner outer : Option α) (read : String → Option α)
    (inherited : Option String) : Option α :=
  (inner.or outer).or (inherited.bind read)

/-- The options that both levels and the variables give to a command. -/
def complete (v : Variables) (outer inner : Given) (command : Command) : Options where
  logLevel :=
    (choose inner.logLevel outer.logLevel some (v.value? logLevelName)).getD "info"
  logFormat :=
    (choose inner.logFormat outer.logFormat LogFormat.named? (v.value? logFormatName)).getD
      .compact
  config := choose inner.config outer.config path? (v.value? configName)
  command := command

end Options
end CommandLine
end PackPlan
