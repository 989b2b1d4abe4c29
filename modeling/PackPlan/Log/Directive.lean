import PackPlan.Log.Pattern.Reader
import PackPlan.Log.Record
import PackPlan.Text.Octets

/-!
# PackPlan.Log.Directive

Directives of a log filter. `debug` is about all records, `cache=trace` about those whose target
starts with `cache`; a target alone means all of its records. In brackets a directive may name a
span, or in braces a detail that a record has to have: `cache[{quantity}]=debug`. A level is a
word in letters of either case or its number.

Places in a directive are counted in octets from its first character that is no blank. The pieces
between them are cut out of the text with its blanks, so blanks at the front shift them, and may
make a cut fall within a character (`Fault.torn`).
-/

namespace PackPlan
namespace Log

/-- A directive: the threshold of the records it is about. -/
structure Directive where
  target : Option (List Char)
  /-- The span within which it holds. -/
  span : Option (List Char)
  /-- The details it asks for, and whether it asks for a value of them. -/
  details : List (List Char × Bool)
  threshold : Threshold
deriving DecidableEq, Repr

namespace Directive

def general (threshold : Threshold) : Directive := ⟨none, none, [], threshold⟩

def numbered? : Nat → Option Threshold
  | 0 => some none
  | 1 => some (some .error)
  | 2 => some (some .warn)
  | 3 => some (some .info)
  | 4 => some (some .debug)
  | 5 => some (some .trace)
  | _ => none

def named? (cs : List Char) : Option Threshold :=
  let word := String.ofList (cs.map Char.toLower)
  if word = "off" then some none
  else if word = "error" then some (some .error)
  else if word = "warn" then some (some .warn)
  else if word = "info" then some (some .info)
  else if word = "debug" then some (some .debug)
  else if word = "trace" then some (some .trace)
  else none

/-- The digits of a number that may have a plus before it. -/
def unsigned (cs : List Char) : List Char :=
  match cs with
  | '+' :: digits => digits
  | digits => digits

def threshold? (cs : List Char) : Option Threshold :=
  match Numeral.natural? 10 (unsigned cs) with
  | some n => numbered? n
  | none => named? cs

/-- The threshold after an equals sign; nothing there stands for all records. -/
def assigned? (cs : List Char) : Option Threshold :=
  if cs.isEmpty then some (some .trace) else threshold? cs

/-- A word alone: a threshold, if it names one, and otherwise a target. -/
def ofWord (cs : List Char) : Directive :=
  match threshold? cs with
  | some threshold => general threshold
  | none => ⟨some cs, none, [], some .trace⟩

def startsWord (c : Char) : Bool :=
  c == '-' || c == ':' || c == '_' || Text.isAlphanumeric c

/-- Whether a text is a value that a record can be asked for: a number or a usable pattern, among
them the truth values. -/
def isValue (cs : List Char) : Bool :=
  Numeral.isReal cs || (Pattern.ofText? cs).any Pattern.isUsable

/-- A detail, and whether a value of it is asked for. What follows a second equals sign does not
count. -/
def detail? (cs : List Char) : Option (List Char × Bool) :=
  if cs.isEmpty then none
  else
    let name := cs.takeWhile (· != '=')
    match cs.dropWhile (· != '=') with
    | [] => some (name, false)
    | _ :: rest => if isValue (rest.takeWhile (· != '=')) then some (name, true) else none

/-! ## Reading -/

inductive Fault where
  | malformed
  /-- A piece would have to be cut within a character. -/
  | torn
deriving DecidableEq, Repr

/-- What is being read, and the octet where it starts. -/
inductive Reading where
  | start
  | word (start : Nat)
  | span (start : Nat)
  | detail (start : Nat)
  /-- After the closing brace. -/
  | braced
  /-- After the closing bracket. -/
  | bracketed
  | level (start : Nat)
deriving DecidableEq, Repr

def cut (text : List Char) (start stop : Nat) : Except Fault (List Char) :=
  match Text.Octets.slice? start stop text with
  | some piece => .ok piece
  | none => .error .torn

/-- What may be missing, and is a mistake if it is. -/
def expect {α : Type} (found : Option α) : Except Fault α :=
  match found with
  | some a => .ok a
  | none => .error .malformed

def step (text : List Char) (d : Directive) (place : Nat) (c : Char) :
    Reading → Except Fault (Directive × Reading)
  | .start =>
    if c == '[' then .ok (d, .span (place + 1))
    else if startsWord c then .ok (d, .word place)
    else .error .malformed
  | .word start =>
    if c == '=' || c == '[' then
      (cut text start place).map fun target =>
        ({ d with target := some target },
          if c == '=' then .level (place + 1) else .span (place + 1))
    else .ok (d, .word start)
  | .span start =>
    if c == ']' then
      (cut text start place).map fun name => ({ d with span := some name }, .bracketed)
    else if c == '\x7b' then
      (cut text start place).map fun name =>
        ({ d with span := if name.isEmpty then none else some name }, .detail (place + 1))
    else .ok (d, .span start)
  | .detail start =>
    if c == '\x7d' then
      match cut text start place with
      | .error fault => .error fault
      | .ok piece =>
        (expect (detail? piece)).map fun detail =>
          ({ d with details := d.details ++ [detail] }, .braced)
    else .ok (d, .detail start)
  | .braced => if c == ']' then .ok (d, .bracketed) else .error .malformed
  | .bracketed => if c == '=' then .ok (d, .level (place + 1)) else .error .malformed
  | .level start => .ok (d, .level start)

def finish (text : List Char) (d : Directive) : Reading → Except Fault Directive
  | .word start => (cut text start (Text.Octets.count text)).map ofWord
  | .level start =>
    match cut text start (Text.Octets.count text) with
    | .error fault => .error fault
    | .ok level => (expect (assigned? level)).map fun threshold => { d with threshold := threshold }
  | .bracketed => .ok d
  | _ => .error .malformed

def readFrom (text : List Char) : Directive → Nat → Reading → List Char → Except Fault Directive
  | d, _, reading, [] => finish text d reading
  | d, place, reading, c :: rest =>
    match step text d place c reading with
    | .error fault => .error fault
    | .ok (d, reading) => readFrom text d (place + c.utf8Size) reading rest

def read (text : List Char) : Except Fault Directive :=
  readFrom text (general (some .trace)) 0 .start (Text.trim text)

/-- Whether a directive is about a record. Outside of spans, one that names a span, or asks for the
value of a detail, is about none. -/
def concerns (d : Directive) (r : Record) : Bool :=
  d.span.isNone
    && d.target.all (fun target => target.isPrefixOf r.target.toList)
    && d.details.all fun (name, valued) => !valued && r.names.contains (String.ofList name)

/-- How specific a directive is, as a list to be compared in order: the length of its target, the
number of the details it asks for, and their names. -/
def rank (d : Directive) : List Nat :=
  (match d.target with
    | none => 0
    | some target => target.length + 1)
    :: d.details.length
    :: d.details.flatMap fun (name, _) => name.map (fun c => c.toNat + 1) ++ [0]

end Directive
end Log
end PackPlan
