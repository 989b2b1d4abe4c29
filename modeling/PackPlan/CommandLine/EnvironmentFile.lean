import PackPlan.CommandLine.Variables
import PackPlan.Text.Alphanumeric
import PackPlan.Text.Pieces

/-!
# PackPlan.CommandLine.EnvironmentFile

Files of default values for environment variables. An entry is a name, an equals sign and a value,
and ends with its line unless a quote is still open there. A comment starts at a number sign, first
on a line or after a blank. Entries count up to the first one that cannot be read. A value that no
variable can have ends all reading.

In a value, single quotes keep everything, and double quotes keep all but escapes and variables. A
variable is a dollar sign and letters and digits, or any name in braces after the dollar sign.
-/

namespace PackPlan
namespace CommandLine
namespace EnvironmentFile

/-! ## Entries -/

/-- What is open at a place of an entry. -/
inductive Opening where
  | nothing
  | escape
  | blank
  | single
  | singleEscape
  | double
  | doubleEscape
deriving DecidableEq, Repr

namespace Opening

def outside (c : Char) : Opening :=
  if c == '\\' then .escape
  else if c == '"' then .double
  else if c == '\'' then .single
  else .nothing

def next (o : Opening) (c : Char) : Opening :=
  match o with
  | .nothing =>
    if Text.isBlank c && c != '\n' && c != '\r' then .blank else outside c
  | .blank => outside c
  | .escape => .nothing
  | .double => if c == '\\' then .doubleEscape else if c == '"' then .nothing else .double
  | .doubleEscape => .double
  | .single => if c == '\\' then .singleEscape else if c == '\'' then .nothing else .single
  | .singleEscape => .single

end Opening

def lines : List Char → List (List Char)
  | [] => []
  | c :: rest =>
    if c == '\n' then [c] :: lines rest
    else
      match lines rest with
      | [] => [[c]]
      | line :: others => (c :: line) :: others

inductive LineEnd where
  /-- A comment starts after this much of the line. -/
  | comment (kept : List Char)
  | open (opening : Opening)
deriving DecidableEq, Repr

def follow : Opening → List Char → LineEnd
  | o, [] => .open o
  | o, c :: rest =>
    if o = .blank ∧ c = '#' then .comment []
    else
      match follow (o.next c) rest with
      | .comment kept => .comment (c :: kept)
      | stop => stop

/-- A text without the line end it ends with. -/
def chomp (cs : List Char) : List Char :=
  match cs.reverse with
  | '\n' :: '\r' :: before => before.reverse
  | '\n' :: before => before.reverse
  | _ => cs

def isComment (cs : List Char) : Bool := (cs.dropWhile Text.isBlank).head? == some '#'

/-- The entries of some lines; before them stands the start of an entry in which something is open.
An entry that is still open when the lines end is none. -/
def entriesFrom (started : List Char) (o : Opening) : List (List Char) → List (Option (List Char))
  | [] => if o = .nothing then [] else [none]
  | line :: rest =>
    let text := started ++ line
    if isComment text then entriesFrom [] .nothing rest
    else
      match follow o line with
      | .comment kept => some (started ++ kept) :: entriesFrom [] .nothing rest
      | .open .nothing => some (chomp text) :: entriesFrom [] .nothing rest
      | .open opening => entriesFrom text opening rest

/-- The entries of a text. A byte order mark before them is passed over. -/
def entries (text : String) : List (Option (List Char)) :=
  match text.toList with
  | '\ufeff' :: rest => entriesFrom [] .nothing (lines rest)
  | cs => entriesFrom [] .nothing (lines cs)

/-! ## Values -/

inductive Place where
  | plain
  | double
deriving DecidableEq, Repr

inductive Reading where
  | at (place : Place)
  | escape (place : Place)
  | single
  /-- The name of a variable, up to the first other character. -/
  | name (place : Place) (soFar : List Char)
  /-- The name of a variable, up to the brace. -/
  | braced (place : Place) (soFar : List Char)
  /-- The blanks after a value. -/
  | ended
deriving DecidableEq, Repr

def escaped? (c : Char) : Option Char :=
  if c == 'n' then some '\n'
  else if ['\\', '\'', '"', '$', ' '].contains c then some c
  else none

/-- The value of a variable; one that is not set is empty. -/
def substitute (v : Variables) (name : List Char) : List Char :=
  ((v.value? (String.ofList name)).getD "").toList

/-- Reads on at a place outside of single quotes. What is read goes before the rest of the value. -/
def step (place : Place) (c : Char) : Reading × List Char :=
  if c == '$' then (.name place [], [])
  else if c == '\\' then (.escape place, [])
  else
    match place with
    | .double => if c == '"' then (.at .plain, []) else (.at .double, [c])
    | .plain =>
      if c == '\'' then (.single, [])
      else if c == '"' then (.at .double, [])
      else if c == ' ' || c == '\t' then (.ended, [])
      else (.at .plain, [c])

/-- Reads a value to its end. The character that ends the name of a variable stands for itself,
unless it starts another one. -/
def valueFrom (v : Variables) : Reading → List Char → Option (List Char)
  | .at .plain, [] => some []
  | .escape .plain, [] => some []
  | .name .plain name, [] => some (substitute v name)
  | .ended, [] => some []
  | _, [] => none
  | .at place, c :: rest =>
    let (reading, out) := step place c
    (valueFrom v reading rest).map (out ++ ·)
  | .escape place, c :: rest =>
    match escaped? c with
    | some e => (valueFrom v (.at place) rest).map (e :: ·)
    | none => none
  | .single, c :: rest =>
    if c == '\'' then valueFrom v (.at .plain) rest else (valueFrom v .single rest).map (c :: ·)
  | .name place name, c :: rest =>
    if Text.isAlphanumeric c then valueFrom v (.name place (name ++ [c])) rest
    else if c == '{' && name.isEmpty then valueFrom v (.braced place []) rest
    else if c == '$' then (valueFrom v (.name place []) rest).map (substitute v name ++ ·)
    else (valueFrom v (.at place) rest).map (substitute v name ++ c :: ·)
  | .braced place name, c :: rest =>
    if c == '}' then (valueFrom v (.at place) rest).map (substitute v name ++ ·)
    else valueFrom v (.braced place (name ++ [c])) rest
  | .ended, c :: rest =>
    if c == ' ' || c == '\t' then valueFrom v .ended rest
    else if c == '#' then some []
    else none

/-- The value that a text writes, where variables have these values. -/
def value? (v : Variables) (cs : List Char) : Option (List Char) := valueFrom v (.at .plain) cs

/-! ## Names -/

def name? (cs : List Char) : Option (List Char × List Char) :=
  match cs with
  | [] => none
  | c :: _ =>
    if c.isAlpha || c == '_' then
      let part (c : Char) : Bool := c.isAlphanum || c == '_' || c == '.'
      some (cs.takeWhile part, (cs.dropWhile part).dropWhile Text.isBlank)
    else none

def assigned? : List Char → Option (List Char)
  | '=' :: rest => some (rest.dropWhile Text.isBlank)
  | _ => none

/-- The name of an entry and the text of its value. The word `export` may stand before the name. -/
def parts? (cs : List Char) : Option (List Char × List Char) :=
  match name? cs with
  | none => none
  | some (name, rest) =>
    match assigned? rest with
    | some value => some (name, value)
    | none =>
      if name = "export".toList then
        match name? rest with
        | some (name, rest) => (assigned? rest).map fun value => (name, value)
        | none => none
      else none

/-- What an entry says: a name and its value, or nothing; or it cannot be read. -/
def statement? (v : Variables) (cs : List Char) : Option (Option (String × String)) :=
  let cs := Text.trim cs
  if cs.isEmpty || isComment cs then some none
  else
    match parts? cs with
    | none => none
    | some (name, text) =>
      if isComment text then some (some (String.ofList name, ""))
      else (value? v text).map fun value => some (String.ofList name, String.ofList value)

/-! ## Files -/

/-- The variables when the defaults of some entries are added, up to the first one that cannot be
read; `none` if a value that would be added cannot be one. -/
def withEntries? : Variables → List (Option (List Char)) → Option Variables
  | v, [] => some v
  | v, entry :: rest =>
    match entry.bind (statement? v) with
    | none => some v
    | some none => withEntries? v rest
    | some (some (name, value)) => (v.setDefault? name value).bind fun v => withEntries? v rest

/-- The variables when the defaults of a file are added, unless a value cannot be one. -/
def load? (v : Variables) (text : String) : Option Variables := withEntries? v (entries text)

end EnvironmentFile
end CommandLine
end PackPlan
