import PackPlan.CommandLine.EnvironmentFile
import PackPlan.CommandLine.Run
import PackPlan.Log.Line

/-!
# PackPlan.Main

The program: gathers the variables, the file of their defaults and the file of settings, and writes
what a run comes to. Reports go to standard output and the log to standard error.
-/

namespace PackPlan
namespace CommandLine

def fileError : IO.Error → FileError
  | .noFileOrDirectory .. => .missing
  | .permissionDenied .. => .denied
  | .inappropriateType _ code _ => if code = 21 then .isDirectory else .notDirectory
  | e => .other (toString e)

def readText (path : String) : IO (Except FileError String) := do
  match ← (IO.FS.readBinFile path).toBaseIO with
  | .error e => return .error (fileError e)
  | .ok bytes =>
    match String.fromUTF8? bytes with
    | some text => return .ok text
    | none => return .error .notText

/-- The names that stand in a text: between braces, with points or underscores in them, and
without. -/
def namesIn (text : String) : List String :=
  (text.split fun c => c == '{' || c == '}').toStringList
    ++ (text.split fun c => !(c.isAlphanum || c == '_' || c == '.')).toStringList
    ++ (text.split fun c => !c.isAlphanum).toStringList

def gather (names : List String) : IO Variables := do
  let values ← names.mapM fun name => do return (← IO.getEnv name).map fun value => (name, value)
  return values.filterMap id

/-- The variables of the environment that a run may ask for, and the text of the file `.env` with
defaults for them, if there is one. -/
def environment : IO (Variables × Option String) := do
  let names := [Options.logLevelName, Options.logFormatName, Options.configName]
  match ← readText ".env" with
  | .error _ => return (← gather names, none)
  | .ok text => return (← gather (names ++ namesIn text), some text)

def logLine : LogFormat → Log.Record → String
  | .compact => Log.Record.line
  | .json => Log.Record.json

def durationText (nanoseconds : Nat) : String := toString (nanoseconds / 1000000) ++ "ms"

def usageText : String :=
  "Usage: packwise [OPTIONS] calculate [-s SIZES] [-f table|json] QUANTITY...\n"
    ++ "       packwise [OPTIONS] sizes\n\n"
    ++ "Options: -l, --log-level LEVEL; --log-format compact|json; -c, --config FILE; -h, --help"

/-- The options of a command line, or their refusal, unless a run with these variables breaks off. -/
def optionsOf? (v : Variables) (defaults : Option String) (texts : List String) :
    Option (Except Refusal Options) :=
  (withDefaults? v defaults).map fun v => Options.ofArguments v texts

/-- Help, worded the same for all topics. -/
def helpText (help : Help) : String :=
  usageText ++ "\n" ++ String.join (help.shown.map fun (name, value) =>
    "[env: " ++ name ++ "=" ++ value.getD "" ++ "]\n")

/-- Says how the program is called if the call is not in order. -/
def explain : Option (Except Refusal Options) → IO Unit
  | some (.error .usage) => IO.eprintln usageText
  | _ => pure ()

/-- The text of the file of settings, if the options name one. -/
def settingsText : Option (Except Refusal Options) → IO (Except FileError String)
  | some (.ok ⟨_, _, some path, _⟩) => readText path
  | _ => pure (.error .missing)

def execute (texts : List String) : IO UInt32 := do
  let (v, defaults) ← environment
  let options := optionsOf? v defaults texts
  explain options
  let settings ← settingsText options
  let start ← IO.monoNanosNow
  let (form, o) ← IO.lazyPure fun _ => outcome (fun _ => settings) v defaults texts
  let stop ← IO.monoNanosNow
  IO.print (o.output (durationText (stop - start)) helpText)
  for r in o.records do
    IO.eprintln (logLine form r)
  return o.status.code.toUInt32

end CommandLine
end PackPlan

def main (args : List String) : IO UInt32 := PackPlan.CommandLine.execute args
