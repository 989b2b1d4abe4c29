import PackPlan.Log.Pattern
import PackPlan.Numeral
import PackPlan.Text.Alphanumeric
import PackPlan.Text.Pieces

/-!
# PackPlan.Log.Pattern.Reader

Reading patterns. A directive ends the value that it asks for at a closing brace, so no pattern has
one, and a count in braces is never complete.
-/

namespace PackPlan
namespace Log
namespace Pattern

/-! ## Blanks and escapes -/

def skipFrom (inComment : Bool) : List Char → List Char
  | [] => []
  | c :: rest =>
    if inComment then skipFrom (c != '\n') rest
    else if Text.isBlank c then skipFrom false rest
    else if c == '#' then skipFrom true rest
    else c :: rest

def skip (verbose : Bool) (cs : List Char) : List Char := if verbose then skipFrom false cs else cs

/-- The next character but blanks and one number sign. -/
def peek? (verbose : Bool) (cs : List Char) : Option Char :=
  if verbose then
    match cs.dropWhile Text.isBlank with
    | '#' :: rest => (rest.dropWhile Text.isBlank).head?
    | rest => rest.head?
  else cs.head?

/-- Reads on in a hexadecimal number of which so many digits are left. -/
def hexFrom? (verbose : Bool) : Nat → Nat → List Char → Option (Nat × List Char)
  | 0, value, cs => some (value, cs)
  | _ + 1, _, [] => none
  | left + 1, value, c :: rest =>
    match Numeral.digit? 16 c with
    | some d => hexFrom? verbose left (value * 16 + d) (skip verbose rest)
    | none => none

/-- How many hexadecimal digits follow a letter after a backslash. -/
def hexLength? : Char → Option Nat
  | 'x' => some 2
  | 'u' => some 4
  | 'U' => some 8
  | _ => none

/-- The control character that a letter after a backslash stands for. -/
def control? : Char → Option Char
  | 'a' => some '\x07'
  | 'f' => some '\x0c'
  | 't' => some '\t'
  | 'n' => some '\n'
  | 'r' => some '\r'
  | 'v' => some '\x0b'
  | _ => none

/-- Whether a character after a backslash stands for itself. -/
def isEscapable (c : Char) : Bool :=
  c.toNat ≤ 0x7F && !c.isAlphanum && c != '<' && c != '>'

/-- What a single character after a backslash stands for. -/
def escaped? (c : Char) : Option Pattern :=
  if c == 'd' || c == 's' || c == 'w' then some (.lettered false)
  else if c == 'D' || c == 'S' || c == 'W' then some (.lettered true)
  else if c == 'A' || c == 'z' then some .edge
  else if c == 'b' || c == 'B' || c == '<' || c == '>' then some .wordEdge
  else if isEscapable c then some (.literal ⟨c, false⟩)
  else (control? c).map fun c => .literal ⟨c, false⟩

def escape? (verbose : Bool) : List Char → Option (Pattern × List Char)
  | [] => none
  | c :: rest =>
    match hexLength? c with
    | none => (escaped? c).map fun p => (p, rest)
    | some length =>
      match hexFrom? verbose length 0 (skip verbose rest) with
      | none => none
      | some (value, rest) =>
        if value.isValidChar then some (.literal ⟨Char.ofNat value, c == 'x'⟩, rest) else none

/-! ## Sets -/

def classNames : List String :=
  ["alnum", "alpha", "ascii", "blank", "cntrl", "digit", "graph", "lower", "print", "punct",
    "space", "upper", "word", "xdigit"]

/-- The class that is named between colons after a bracket, and what follows. -/
def namedClass? : List Char → Option (CharSet × List Char)
  | ':' :: rest =>
    let (negated, rest) :=
      match rest with
      | '^' :: rest => (true, rest)
      | rest => (false, rest)
    match rest.dropWhile (· != ':') with
    | _ :: ']' :: after =>
      if classNames.contains (String.ofList (rest.takeWhile (· != ':'))) then
        some (.named negated, after)
      else none
    | _ => none
  | _ => none

def setItem? (verbose : Bool) : List Char → Option (Pattern × List Char)
  | [] => none
  | c :: rest => if c == '\\' then escape? verbose rest else some (.literal ⟨c, false⟩, rest)

def member? : Pattern → Option CharSet
  | .literal l => some (.literal l)
  | .lettered negated => some (.lettered negated)
  | _ => none

/-- The set of the characters between two items, which are literals in order. -/
def range? : Pattern → Pattern → Option CharSet
  | .literal first, .literal last =>
    if first.char.toNat ≤ last.char.toNat then some (.range first last) else none
  | _, _ => none

/-- An item of a set or a range of two, and what follows. A dash before a bracket or another dash
makes no range. -/
def setRange? (verbose : Bool) (cs : List Char) : Option (CharSet × List Char) :=
  match setItem? verbose cs with
  | none => none
  | some (first, rest) =>
    match skip verbose rest with
    | [] => none
    | c :: after =>
      let next := peek? verbose after
      if c != '-' || next == some ']' || next == some '-' then
        (member? first).map fun item => (item, c :: after)
      else
        match setItem? verbose (skip verbose after) with
        | none => none
        | some (last, rest) => (range? first last).map fun item => (item, rest)

/-- The set of some items, the last one first. -/
def CharSet.ofItems : List CharSet → CharSet
  | [] => .empty
  | [item] => item
  | items => .union items.reverse

/-- The set of some items, after an operation on what stands before them. -/
def CharSet.combine (left : Option CharSet) (items : List CharSet) : CharSet :=
  match left with
  | none => .ofItems items
  | some left => .operation left (.ofItems items)

/-- Whether a set is negated, and what follows its sign. -/
def sign (verbose : Bool) (cs : List Char) : Bool × List Char :=
  match skip verbose cs with
  | '^' :: rest => (true, rest)
  | rest => (false, rest)

/-- Reads on in a set, at most so many items. `opening` says that a dash stands for itself here, and
a bracket, if nothing stands before it. -/
def setFrom? (verbose : Bool) :
    Nat → Bool → Option CharSet → List CharSet → List Char → Option (CharSet × List Char)
  | 0, _, _, _, _ => none
  | fuel + 1, opening, left, items, cs =>
    match skip verbose cs with
    | [] => none
    | c :: rest =>
      if opening && (c == '-' || (c == ']' && items.isEmpty)) then
        setFrom? verbose fuel (c == '-') left (.literal ⟨c, false⟩ :: items) rest
      else if c == ']' then some (.combine left items, rest)
      else if (c == '&' || c == '-' || c == '~') && rest.head? == some c then
        setFrom? verbose fuel false (some (.combine left items)) [] (rest.drop 1)
      else
        let item :=
          if c == '[' then
            match namedClass? rest with
            | some found => some found
            | none =>
              let (negated, inside) := sign verbose rest
              (setFrom? verbose fuel true none [] inside).map fun (inner, rest) =>
                (.bracket negated inner, rest)
          else setRange? verbose (c :: rest)
        match item with
        | none => none
        | some (item, rest) => setFrom? verbose fuel false left (item :: items) rest

/-- The set after an opening bracket, and what follows. -/
def set? (verbose : Bool) (cs : List Char) : Option (CharSet × List Char) :=
  let (negated, inside) := sign verbose cs
  (setFrom? verbose (inside.length + 1) true none [] inside).map fun (inner, rest) =>
    (.bracket negated inner, rest)

/-! ## Groups -/

inductive Opening where
  /-- A change of switches, which is closed already. -/
  | switches (s : Switches)
  | group (s : Switches) (name : Option (List Char))
deriving DecidableEq, Repr

/-- Reads on in switches up to the colon or the parenthesis that ends them. A dash, which stands
once at most and not at the end, turns off what follows it. -/
def switchesFrom? (negated dangling : Bool) (s : Switches) :
    List Char → Option (Opening × List Char)
  | [] => none
  | c :: rest =>
    if c == ':' || c == ')' then
      if dangling then none
      else if c == ':' then some (.group s none, rest)
      else if s = .none then none
      else some (.switches s, rest)
    else if c == '-' then if negated then none else switchesFrom? true true s rest
    else
      match Switch.ofChar? c with
      | none => none
      | some switch =>
        if s.mentions switch then none
        else if negated then switchesFrom? true false { s with off := switch :: s.off } rest
        else switchesFrom? false false { s with on := switch :: s.on } rest

def isGroupName : List Char → Bool
  | [] => false
  | c :: rest =>
    (c == '_' || Text.isAlphabetic c) && rest.all fun c =>
      c == '_' || c == '.' || c == '[' || c == ']' || Text.isAlphanumeric c

/-- The name of a group up to the bracket that ends it. -/
def groupName? (cs : List Char) : Option (Opening × List Char) :=
  let name := cs.takeWhile (· != '>')
  match cs.dropWhile (· != '>') with
  | _ :: rest => if isGroupName name then some (.group .none (some name), rest) else none
  | [] => none

/-- What an opening parenthesis starts. Conditions on what stands before or after are refused. -/
def opening? (verbose : Bool) (cs : List Char) : Option (Opening × List Char) :=
  match skip verbose cs with
  | '?' :: 'P' :: '<' :: rest => groupName? rest
  | '?' :: '<' :: rest => groupName? rest
  | '?' :: rest => switchesFrom? false false .none rest
  | rest => some (.group .none none, rest)

/-- The names of groups with one more, which has to be new. -/
def addName? (names : List (List Char)) : Option (List Char) → Option (List (List Char))
  | none => some names
  | some name => if names.contains name then none else some (name :: names)

/-- The pattern of some items, the last one first. -/
def ofItems : List Pattern → Pattern
  | [] => .empty
  | [p] => p
  | ps => .sequence ps.reverse

/-- The pattern of some choices, the last one first. -/
def ofChoices : List Pattern → Pattern
  | [p] => p
  | ps => .choice ps.reverse

/-- The items after a sign of repetition, which repeats the last one. -/
def repeatLast? : List Pattern → Option (List Pattern)
  | [] => none
  | .switches _ :: _ => none
  | p :: rest => some (.repeated p :: rest)

/-- What follows a sign of repetition and the question mark that may be part of it. -/
def afterRepetition : List Char → List Char
  | '?' :: rest => rest
  | rest => rest

/-- The pattern that a character without backslash stands for. -/
def ofChar (c : Char) : Pattern :=
  if c == '.' then .any else if c == '^' || c == '$' then .edge else .literal ⟨c, false⟩

/-- Reads on in a group, at most so many items: its choices and the items of the last one. Gives the
names of all groups so far, too, and the parenthesis that closes the group with what follows. -/
def groupFrom? : Nat → Bool → List (List Char) → List Pattern → List Pattern → List Char →
    Option (Pattern × List (List Char) × List Char)
  | 0, _, _, _, _, _ => none
  | fuel + 1, verbose, names, choices, items, cs =>
    match skip verbose cs with
    | [] => some (ofChoices (ofItems items :: choices), names, [])
    | c :: rest =>
      if c == ')' then some (ofChoices (ofItems items :: choices), names, c :: rest)
      else if c == '|' then groupFrom? fuel verbose names (ofItems items :: choices) [] rest
      else if c == '(' then
        match opening? verbose rest with
        | none => none
        | some (.switches s, rest) =>
          groupFrom? fuel (s.apply .verbose verbose) names choices (.switches s :: items) rest
        | some (.group s name, rest) =>
          match addName? names name with
          | none => none
          | some names =>
            match groupFrom? fuel (s.apply .verbose verbose) names [] [] rest with
            | some (inner, names, _ :: rest) =>
              groupFrom? fuel verbose names choices (.group s inner :: items) rest
            | _ => none
      else if c == '?' || c == '*' || c == '+' then
        match repeatLast? items with
        | none => none
        | some items => groupFrom? fuel verbose names choices items (afterRepetition rest)
      else if c == '\x7b' then none
      else
        let item :=
          if c == '[' then (set? verbose rest).map fun (s, rest) => (Pattern.set s, rest)
          else if c == '\\' then escape? verbose rest
          else some (ofChar c, rest)
        match item with
        | none => none
        | some (item, rest) => groupFrom? fuel verbose names choices (item :: items) rest

def ofText? (cs : List Char) : Option Pattern :=
  match groupFrom? (cs.length + 1) false [] [] [] cs with
  | some (p, _, []) => some p
  | _ => none

end Pattern
end Log
end PackPlan
