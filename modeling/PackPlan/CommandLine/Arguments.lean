import PackPlan.CommandLine.Options

/-!
# PackPlan.CommandLine.Arguments

Arguments. Options may stand before the command and after it; quantities stand after `calculate` in
any order with its options. A long option takes its value after an equals sign or as the next
argument, a short one also directly. Negative numbers are quantities, and so is all that stands after
a double dash.

What is the next argument of an option, or a quantity, is looked into only when something else
follows. So help that is asked for in between comes first, whether the value is good or not. Help is
about the program or the command that the arguments have come to.
-/

namespace PackPlan
namespace CommandLine

/-- Where arguments stand. -/
inductive Stage where
  /-- Before the command. -/
  | start
  | calculate
  | sizes
deriving DecidableEq, Repr

inductive Setting where
  | logLevel
  | logFormat
  | config
  | sizes
  | format
deriving DecidableEq, Repr

namespace Stage

def named? (text : String) : Option Stage :=
  if text = "calculate" then some .calculate else if text = "sizes" then some .sizes else none

def long? (stage : Stage) (name : String) : Option Setting :=
  if name = "log-level" then some .logLevel
  else if name = "log-format" then some .logFormat
  else if name = "config" then some .config
  else if stage = .calculate ∧ name = "sizes" then some .sizes
  else if stage = .calculate ∧ name = "format" then some .format
  else none

def short? (stage : Stage) (name : Char) : Option Setting :=
  if name = 'l' then some .logLevel
  else if name = 'c' then some .config
  else if stage = .calculate ∧ name = 's' then some .sizes
  else if stage = .calculate ∧ name = 'f' then some .format
  else none

end Stage

/-- What help is about. -/
inductive Topic where
  /-- The program, or a command. -/
  | stage (stage : Stage)
  /-- The command that gives help. -/
  | help
deriving DecidableEq, Repr

/-- Why arguments make no run. -/
inductive Refusal where
  /-- Help is asked for, in full or in short. -/
  | help (topic : Topic) (full : Bool)
  /-- The arguments or variables are not in order. -/
  | usage
deriving DecidableEq, Repr

/-! ## Forms -/

inductive Form where
  | dashes
  | long (name : String) (value : Option String)
  | short (name : Char) (attached : List Char)
  | word
deriving DecidableEq, Repr

def Form.ofText (text : String) : Form :=
  match text.toList with
  | ['-', '-'] => .dashes
  | '-' :: '-' :: rest =>
    let name := String.ofList (rest.takeWhile (· != '='))
    match rest.dropWhile (· != '=') with
    | [] => .long name none
    | _ :: value => .long name (some (String.ofList value))
  | '-' :: name :: attached => .short name attached
  | _ => .word

/-- Digits, among which a point may stand, though not first. -/
def isFixedPoint (cs : List Char) : Bool :=
  cs.all (fun c => c.isDigit || c == '.') && cs.count '.' ≤ 1 && cs.head? != some '.'

/-- Whether a text has the form of a number without a sign. -/
def isNumber (cs : List Char) : Bool :=
  let mantissa := cs.takeWhile (· != 'e')
  isFixedPoint mantissa &&
    match cs.dropWhile (· != 'e') with
    | [] => true
    | _ :: exponent => !mantissa.isEmpty && !exponent.isEmpty && exponent.all Char.isDigit

/-! ## Reading -/

/-- What is read and not looked into yet. -/
inductive Pending where
  | nothing
  /-- An option whose value is missing yet. -/
  | setting (s : Setting)
  | value (s : Setting) (text : String)
  | quantities (texts : List String)
deriving DecidableEq, Repr

/-- Gives an option a value. Only sizes may be given again, and then add to those before. -/
def Given.put? (g : Given) (s : Setting) (text : String) : Option Given :=
  match s with
  | .logLevel => if g.logLevel.isSome then none else some { g with logLevel := some text }
  | .logFormat =>
    if g.logFormat.isSome then none
    else (LogFormat.named? text).map fun format => { g with logFormat := some format }
  | .config =>
    if g.config.isSome then none
    else (path? text).map fun path => { g with config := some path }
  | .sizes => (sizes? text).map fun sizes => { g with sizes := some (g.sizes.getD [] ++ sizes) }
  | .format =>
    if g.format.isSome then none
    else (reportFormat? text).map fun format => { g with format := some format }

/-- What is given so far at one level. -/
structure Level where
  given : Given := {}
  pending : Pending := .nothing
  /-- Only quantities are left. -/
  dashed : Bool := false
deriving DecidableEq, Repr

namespace Level

def settle (l : Level) : Except Refusal Given :=
  let settled : Option Given :=
    match l.pending with
    | .nothing => some l.given
    | .setting _ => none
    | .value s text => l.given.put? s text
    | .quantities texts =>
      (texts.mapM quantity?).map fun quantities =>
        { l.given with quantities := l.given.quantities ++ quantities }
  match settled with
  | some given => .ok given
  | none => .error .usage

def help (l : Level) (stage : Stage) (full : Bool) : Except Refusal Level :=
  match l.settle with
  | .ok _ => .error (.help (.stage stage) full)
  | .error e => .error e

def give (l : Level) (s : Setting) (text : String) : Except Refusal Level :=
  match l.settle with
  | .error e => .error e
  | .ok given =>
    match given.put? s text with
    | some given => .ok { l with given := given, pending := .nothing }
    | none => .error .usage

def await (l : Level) (s : Setting) : Except Refusal Level :=
  l.settle.map fun given => { l with given := given, pending := .setting s }

def count (l : Level) (stage : Stage) (text : String) : Except Refusal Level :=
  if stage = .calculate then
    match l.pending with
    | .quantities texts => .ok { l with pending := .quantities (texts ++ [text]) }
    | _ =>
      l.settle.map fun given => { l with given := given, pending := .quantities [text] }
  else .error .usage

/-- Reads the value of the option before it, or a quantity. -/
def take (l : Level) (stage : Stage) (text : String) : Except Refusal Level :=
  match l.pending with
  | .setting s => .ok { l with pending := .value s text }
  | _ => l.count stage text

def read (l : Level) (stage : Stage) (text : String) : Except Refusal Level :=
  if l.dashed then l.count stage text
  else
    match Form.ofText text with
    | .dashes => .ok { l with dashed := true }
    | .long name value =>
      if name = "help" then if value.isSome then .error .usage else l.help stage true
      else
        match stage.long? name, value with
        | none, _ => .error .usage
        | some s, some value => l.give s value
        | some s, none => l.await s
    | .short name attached =>
      if stage = .calculate && isNumber (name :: attached) then l.take stage text
      else if name = 'h' then l.help stage false
      else
        match stage.short? name, attached with
        | none, _ => .error .usage
        | some s, [] => l.await s
        | some s, '=' :: value => l.give s (String.ofList value)
        | some s, value => l.give s (String.ofList value)
    | .word => l.take stage text

def acceptsCommand (l : Level) : Bool :=
  !l.dashed &&
    match l.pending with
    | .setting _ => false
    | _ => true

def readAll (stage : Stage) : Level → List String → Except Refusal Level
  | l, [] => .ok l
  | l, text :: rest =>
    match l.read stage text with
    | .error e => .error e
    | .ok l => readAll stage l rest

end Level

/-- What is given after a command, which needs a quantity if it is to calculate. -/
def afterCommand (stage : Stage) (texts : List String) : Except Refusal (Given × Command) :=
  match Level.readAll stage {} texts with
  | .error e => .error e
  | .ok l =>
    match l.settle with
    | .error e => .error e
    | .ok given =>
      if stage = .sizes then .ok (given, .listSizes)
      else if given.quantities.isEmpty then .error .usage
      else
        .ok (given, .calculate given.quantities given.sizes (given.format.getD .table))

/-- The answer to the command `help`, after which one command may be named. -/
def helpOn (texts : List String) : Refusal :=
  match texts with
  | [] => .help (.stage .start) true
  | [topic] =>
    match Stage.named? topic with
    | some stage => .help (.stage stage) true
    | none => if topic = "help" then .help .help true else .usage
  | _ => .usage

/-- Reads the arguments from the first one that is not read yet. -/
def readFrom (v : Variables) : Level → List String → Except Refusal Options
  | _, [] => .error .usage
  | l, text :: rest =>
    let command := if l.acceptsCommand then Stage.named? text else none
    if l.acceptsCommand && text = "help" then .error (helpOn rest)
    else
      match command with
      | none =>
        match l.read .start text with
        | .error e => .error e
        | .ok l => readFrom v l rest
      | some stage =>
        match afterCommand stage rest, l.settle with
        | .error e, _ => .error e
        | .ok _, .error e => .error e
        | .ok (inner, command), .ok outer =>
          if Options.inOrder v inner && Options.inOrder v outer then
            .ok (.complete v outer inner command)
          else .error .usage

def Options.ofArguments (v : Variables) (texts : List String) : Except Refusal Options :=
  readFrom v {} texts

end CommandLine
end PackPlan
