import PackPlan.Numeral
import PackPlan.Yaml.Text

/-!
# PackPlan.Yaml.Scalar

Reading scalars: plain ones, which end where something else could start, quoted ones, and blocks of
indented lines. Each reader gives the text of the scalar and where reading goes on, or `none` when
the scalar breaks a rule.
-/

namespace PackPlan
namespace Yaml

/-! ## Plain scalars -/

/-- What reading a plain scalar gives: its text, and whether line breaks follow it. -/
structure Plain where
  text : List Char
  broken : Bool
  after : Cursor

/-- The characters that end a plain scalar between brackets. -/
def isFlowIndicator (c : Char) : Bool :=
  c == ',' || c == '[' || c == ']' || c == '\x7b' || c == '\x7d'

/-- Whether a plain scalar goes on with this character: not with a colon before a blank, nor, between
brackets, with an indicator. -/
def plainGoesOn (flow : Bool) (c : Char) (rest : List Char) : Bool :=
  !(c == ':' && atBlank rest) && !(flow && isFlowIndicator c)

/-- A colon between brackets has to be followed by a blank or by a word. -/
def isStrayColon (flow : Bool) (c : Char) : List Char → Bool
  | next :: _ => flow && c == ':' && (isFlowIndicator next || next == '?')
  | [] => false

/-- Reads on in a plain scalar. `done` is the text so far, last character first, and `gap` what
followed it. Lines that go on have to be indented by `indent` columns, except between brackets. -/
def plainFrom (flow : Bool) (indent : Int) (done : List Char) (gap : Gap) (inGap : Bool) :
    Mark → List Char → Option Plain
  | m, [] => some ⟨done.reverse, gap.broken, ⟨m, []⟩⟩
  | m, c :: rest =>
    if isBreak c then plainFrom flow indent done (gap.lineBreak c) true m.nextLine rest
    else if isBlank c then
      if gap.broken && decide (Int.ofNat m.column < indent) && c == '\t' then none
      else plainFrom flow indent done (gap.blank c) true m.right rest
    else
      let ends := inGap &&
        ((!flow && decide (Int.ofNat m.column < indent))
          || (m.column == 0 && atDocumentMark (c :: rest)) || c == '#')
      if ends then some ⟨done.reverse, gap.broken, ⟨m, c :: rest⟩⟩
      else if isStrayColon flow c rest then none
      else if plainGoesOn flow c rest then
        plainFrom flow indent (c :: (gap.text.reverse ++ done)) {} false (m.past c) rest
      else some ⟨done.reverse, gap.broken, ⟨m, c :: rest⟩⟩

/-- Reads a plain scalar whose first character starts one. -/
def plain? (flow : Bool) (indent : Int) (c : Cursor) : Option Plain :=
  plainFrom flow indent [] {} false c.mark c.rest

/-! ## Quoted scalars -/

/-- Reads on in a scalar between single quotes, in which a quote is written twice. -/
def singleQuotedFrom (done : List Char) (gap : Gap) : Mark → List Char → Option (List Char × Cursor)
  | _, [] => none
  | m, '\'' :: '\'' :: rest =>
    singleQuotedFrom ('\'' :: (gap.text.reverse ++ done)) {} (m.rightBy 2) rest
  | m, c :: rest =>
    if isBreak c then singleQuotedFrom done (gap.lineBreak c) m.nextLine rest
    else if isBlank c then singleQuotedFrom done (gap.blank c) m.right rest
    else if m.column == 0 && atDocumentMark (c :: rest) then none
    else if c == '\'' then some ((gap.text.reverse ++ done).reverse, ⟨m.right, rest⟩)
    else singleQuotedFrom (c :: (gap.text.reverse ++ done)) {} (m.past c) rest

/-- The character that a letter after a backslash stands for. -/
def shortEscape? : Char → Option Char
  | '0' => some '\x00'
  | 'a' => some '\x07'
  | 'b' => some '\x08'
  | 't' => some '\t'
  | '\t' => some '\t'
  | 'n' => some '\n'
  | 'v' => some '\x0b'
  | 'f' => some '\x0c'
  | 'r' => some '\r'
  | 'e' => some '\x1b'
  | ' ' => some ' '
  | '\x22' => some '\x22'
  | '/' => some '/'
  | '\\' => some '\\'
  | 'N' => some '\x85'
  | '_' => some '\xa0'
  | 'L' => some '\u2028'
  | 'P' => some '\u2029'
  | _ => none

/-- The character whose number some hexadecimal digits write. -/
def charOfHex? (ds : List Char) : Option Char :=
  match Numeral.natural? 16 ds with
  | some n => if (0xD800 ≤ n ∧ n ≤ 0xDFFF) ∨ 0x10FFFF < n then none else some (Char.ofNat n)
  | none => none

/-- Reads on in a scalar between double quotes, in which a backslash escapes. -/
def doubleQuotedFrom (done : List Char) (gap : Gap) : Mark → List Char → Option (List Char × Cursor)
  | _, [] => none
  | m, '\\' :: 'x' :: a :: b :: rest =>
    match charOfHex? [a, b] with
    | some c => doubleQuotedFrom (c :: (gap.text.reverse ++ done)) {} (m.rightBy 4) rest
    | none => none
  | m, '\\' :: 'u' :: a :: b :: c :: d :: rest =>
    match charOfHex? [a, b, c, d] with
    | some c => doubleQuotedFrom (c :: (gap.text.reverse ++ done)) {} (m.rightBy 6) rest
    | none => none
  | m, '\\' :: 'U' :: a :: b :: c :: d :: e :: f :: g :: h :: rest =>
    match charOfHex? [a, b, c, d, e, f, g, h] with
    | some c => doubleQuotedFrom (c :: (gap.text.reverse ++ done)) {} (m.rightBy 10) rest
    | none => none
  | m, '\\' :: x :: rest =>
    if isBreak x then doubleQuotedFrom (gap.text.reverse ++ done) .escaped m.nextLine rest
    else
      match shortEscape? x with
      | some c => doubleQuotedFrom (c :: (gap.text.reverse ++ done)) {} (m.rightBy 2) rest
      | none => none
  | m, c :: rest =>
    if isBreak c then doubleQuotedFrom done (gap.lineBreak c) m.nextLine rest
    else if isBlank c then doubleQuotedFrom done (gap.blank c) m.right rest
    else if m.column == 0 && atDocumentMark (c :: rest) then none
    else if c == '\x22' then some ((gap.text.reverse ++ done).reverse, ⟨m.right, rest⟩)
    else if c == '\\' then none
    else doubleQuotedFrom (c :: (gap.text.reverse ++ done)) {} (m.past c) rest

def quoted? (c : Cursor) : Option (List Char × Cursor) :=
  match c.rest with
  | '\'' :: rest => singleQuotedFrom [] {} c.mark.right rest
  | '\x22' :: rest => doubleQuotedFrom [] {} c.mark.right rest
  | _ => none

/-! ## Block scalars -/

/-- What becomes of the line breaks at the end of a block. -/
inductive Chomp where
  /-- One is kept. -/
  | clip
  | strip
  | keep
deriving DecidableEq, Repr

/-- The sign that says what becomes of the line breaks at the end. -/
def chomp? : List Char → Option (Chomp × List Char)
  | '+' :: rest => some (.keep, rest)
  | '-' :: rest => some (.strip, rest)
  | _ => none

def increment? : List Char → Option (Nat × List Char)
  | c :: rest => if c.isDigit then some (c.toNat - '0'.toNat, rest) else none
  | [] => none

/-- The signs after the indicator of a block, in either order. A digit zero is refused. -/
def blockHeader? (cs : List Char) : Option (Chomp × Nat × List Char) :=
  let found : Chomp × Option Nat × List Char :=
    match chomp? cs with
    | some (chomp, rest) =>
      match increment? rest with
      | some (n, rest) => (chomp, some n, rest)
      | none => (chomp, none, rest)
    | none =>
      match increment? cs with
      | some (n, rest) =>
        match chomp? rest with
        | some (chomp, rest) => (chomp, some n, rest)
        | none => (.clip, some n, rest)
      | none => (.clip, none, cs)
  match found with
  | (_, some 0, _) => none
  | (chomp, n, rest) => some (chomp, n.getD 0, rest)

/-- The line breaks before the next line of a block. As long as the indentation is not known (zero)
every blank belongs to it; the deepest column is remembered in `deepest`. -/
def blockBreaks (indent : Nat) (breaks : List Char) (deepest : Nat) :
    Mark → List Char → Option (List Char × Nat × Cursor)
  | m, [] => some (breaks, max deepest m.column, ⟨m, []⟩)
  | m, c :: rest =>
    let outside := indent == 0 || decide (m.column < indent)
    if outside && c == ' ' then blockBreaks indent breaks deepest m.right rest
    else if outside && c == '\t' then none
    else if isBreak c then
      blockBreaks indent (breaks ++ [c]) (max deepest m.column) m.nextLine rest
    else some (breaks, max deepest m.column, ⟨m, c :: rest⟩)

/-- A block so far: its text, last character first, and the line breaks after it. -/
structure Block where
  done : List Char
  /-- The break at the end of the last line. -/
  first : List Char
  /-- The breaks of the empty lines after it. -/
  later : List Char
  /-- Whether the last line started with a blank. -/
  blankStart : Bool

/-- The text of a block before its next line, which starts with a blank or does not. -/
def Block.join (literal : Bool) (b : Block) (blankStart : Bool) : List Char :=
  if !literal && b.first = ['\n'] && !b.blankStart && !blankStart then
    if b.later.isEmpty then ' ' :: b.done else b.later.reverse ++ b.done
  else (b.first ++ b.later).reverse ++ b.done

def blockLines (literal : Bool) (indent : Nat) : Nat → Block → Cursor → Option (Block × Cursor)
  | 0, b, c => some (b, c)
  | fuel + 1, b, c =>
    if c.mark.column == indent && !c.rest.isEmpty then
      let blankStart := !atBreak c.rest && atBlank c.rest
      let joined := b.join literal blankStart
      let (line, c) := c.span fun x => !isBreak x
      let ended := c.skipBreak
      match blockBreaks indent [] 0 ended.mark ended.rest with
      | none => none
      | some (later, _, next) =>
        blockLines literal indent fuel
          ⟨line.reverse ++ joined, c.rest.take 1, later, blankStart⟩ next
    else some (b, c)

/-- Reads a block from its indicator on. `indent` is the indentation around it. -/
def block? (literal : Bool) (indent : Int) (c : Cursor) : Option (List Char × Cursor) :=
  match blockHeader? (c.rest.drop 1) with
  | none => none
  | some (chomp, increment, rest) =>
    let header : Cursor := ⟨c.mark.rightBy (c.rest.length - rest.length), rest⟩
    let ended := header.skipBlanks.skipComment
    if atBreak ended.rest then
      let start := ended.skipBreak
      let given := if increment = 0 then 0 else indent.toNat + increment
      match blockBreaks given [] 0 start.mark start.rest with
      | none => none
      | some (later, deepest, first) =>
        let inner := if given = 0 then max (max deepest (indent + 1).toNat) 1 else given
        match blockLines literal inner (first.rest.length + 1) ⟨[], [], later, false⟩ first with
        | none => none
        | some (b, after) =>
          let tail :=
            match chomp with
            | .strip => []
            | .clip => b.first
            | .keep => b.first ++ b.later
          some (b.done.reverse ++ tail, after)
    else none

end Yaml
end PackPlan
