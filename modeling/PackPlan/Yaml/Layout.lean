import PackPlan.Yaml.Property
import PackPlan.Yaml.Scalar

/-!
# PackPlan.Yaml.Layout

From text to tokens. Outside brackets the layout counts: a column deeper than the current block
opens a block, a shallower one closes it. Whether a scalar is the key of a mapping shows only at the
colon after it, so a place where a key may have started is remembered (`Candidate`), and at the
colon the tokens that open the key are put in there. A key that is not announced by a question mark
has to end on its line and within 1024 octets.
-/

namespace PackPlan
namespace Yaml

/-- A place where a key may have started. -/
structure Candidate where
  /-- The number of tokens before it. -/
  index : Nat
  mark : Mark
  /-- Whether nothing but a key may stand there. -/
  required : Bool
deriving DecidableEq, Repr

/-- The state of reading: what is left, the tokens so far, the columns of the open blocks, and where
a key may have started on each level of brackets. -/
structure Scan where
  cursor : Cursor
  tokens : Array Placed
  /-- The column of the innermost block, minus one outside all of them. -/
  indent : Int
  /-- The columns of the blocks around it. -/
  outer : List Int
  candidate : Option Candidate
  /-- The candidates on the levels around the innermost brackets. -/
  outerCandidates : List (Option Candidate)
  /-- Whether a key may start here. -/
  keyAllowed : Bool
deriving DecidableEq, Repr

namespace Scan

def start (cs : List Char) : Scan where
  cursor := ⟨.origin, cs⟩
  tokens := #[]
  indent := -1
  outer := []
  candidate := none
  outerCandidates := []
  keyAllowed := true

def inFlow (s : Scan) : Bool := !s.outerCandidates.isEmpty

def mark (s : Scan) : Mark := s.cursor.mark

def push (s : Scan) (token : Token) (start stop : Mark) : Scan :=
  { s with tokens := s.tokens.push ⟨token, start, stop⟩ }

/-- Puts a token of the layout in before the token with the given index. -/
def insertAt (s : Scan) (index : Nat) (token : Token) (mark : Mark) : Scan :=
  { s with tokens := s.tokens.insertIdxIfInBounds index ⟨token, mark, mark⟩ }

/-! ## Blanks and comments -/

/-- Passes over blanks, comments and line breaks, and over a byte order mark at the start of a line.
A tab counts as a blank except where a key may start outside brackets. After a line break a key may
start. -/
def skipGaps (flow : Bool) (allowed inComment : Bool) : Mark → List Char → Bool × Cursor
  | m, [] => (allowed, ⟨m, []⟩)
  | m, c :: rest =>
    if isBreak c then skipGaps flow (allowed || !flow) false m.nextLine rest
    else if inComment || c == ' ' || (c == '\t' && (flow || !allowed))
        || (c == '\ufeff' && m.column == 0) then
      skipGaps flow allowed inComment (m.past c) rest
    else if c == '#' then skipGaps flow allowed true m.right rest
    else (allowed, ⟨m, c :: rest⟩)

def toNext (s : Scan) : Scan :=
  let (allowed, cursor) := skipGaps s.inFlow s.keyAllowed false s.cursor.mark s.cursor.rest
  { s with cursor := cursor, keyAllowed := allowed }

/-! ## Candidates -/

/-- A candidate that is still one at a mark; `none` if it was required and is none any more. -/
def refresh? (at_ : Mark) : Option Candidate → Option (Option Candidate)
  | none => some none
  | some c =>
    if c.mark.line < at_.line ∨ c.mark.octets + 1024 < at_.octets then
      if c.required then none else some none
    else some (some c)

/-- Forgets the candidates that are none any more. -/
def refreshAll? (s : Scan) : Option Scan :=
  match refresh? s.mark s.candidate, s.outerCandidates.mapM (refresh? s.mark) with
  | some candidate, some outer =>
    some { s with candidate := candidate, outerCandidates := outer }
  | _, _ => none

/-- Gives the candidate of this level up, which is refused if it was required. -/
def dropCandidate? (s : Scan) : Option Scan :=
  match s.candidate with
  | some c => if c.required then none else some { s with candidate := none }
  | none => some s

/-- Remembers that a key may start here. -/
def saveCandidate? (s : Scan) : Option Scan :=
  if s.keyAllowed then
    match s.dropCandidate? with
    | none => none
    | some s =>
      some { s with
        candidate := some {
          index := s.tokens.size
          mark := s.mark
          required := !s.inFlow && s.indent == Int.ofNat s.mark.column } }
  else some s

/-! ## Blocks -/

/-- The columns and tokens after closing the blocks deeper than a column. -/
def closeFrom (column : Int) (mark : Mark) (indent : Int) (tokens : Array Placed) :
    List Int → Int × List Int × Array Placed
  | [] => (indent, [], tokens)
  | around :: outer =>
    if column < indent then
      closeFrom column mark around (tokens.push ⟨.blockEnd, mark, mark⟩) outer
    else (indent, around :: outer, tokens)

/-- Closes the blocks deeper than a column. Between brackets the layout does not count. -/
def closeBlocks (s : Scan) (column : Int) : Scan :=
  if s.inFlow then s
  else
    let (indent, outer, tokens) := closeFrom column s.mark s.indent s.tokens s.outer
    { s with indent := indent, outer := outer, tokens := tokens }

/-- Opens a block at a column if it is deeper than the current one; its token goes before the token
with the given index. -/
def openBlock (s : Scan) (token : Token) (mark : Mark) (index : Nat) : Scan :=
  let column := Int.ofNat mark.column
  if !s.inFlow && s.indent < column then
    let opened := { s with indent := column, outer := s.indent :: s.outer }
    if index < s.tokens.size then opened.insertAt index token mark
    else opened.push token mark mark
  else s

/-! ## Tokens -/

def advance (s : Scan) (n : Nat) : Scan :=
  { s with cursor := ⟨s.mark.rightBy n, s.cursor.rest.drop n⟩ }

def take (s : Scan) (token : Token) (n : Nat) : Scan :=
  (s.push token s.mark (s.mark.rightBy n)).advance n

/-- Ends all blocks before something that belongs to no document. -/
def leaveDocument? (s : Scan) : Option Scan :=
  (s.closeBlocks (-1)).dropCandidate?.map fun s => { s with keyAllowed := false }

def directive? (s : Scan) : Option Scan :=
  match s.leaveDocument? with
  | none => none
  | some s =>
    match Yaml.directive? s.cursor with
    | none => none
    | some (token, cursor) => some { s with tokens := s.tokens.push token, cursor := cursor }

def documentMark? (s : Scan) (token : Token) : Option Scan :=
  s.leaveDocument?.map fun s => s.take token 3

def openFlow? (s : Scan) (token : Token) : Option Scan :=
  s.saveCandidate?.map fun s =>
    { s with
      candidate := none
      outerCandidates := s.candidate :: s.outerCandidates
      keyAllowed := true }.take token 1

def closeFlow? (s : Scan) (token : Token) : Option Scan :=
  s.dropCandidate?.map fun s =>
    let outside :=
      match s.outerCandidates with
      | [] => s
      | candidate :: outer => { s with candidate := candidate, outerCandidates := outer }
    { outside with keyAllowed := false }.take token 1

def flowItem? (s : Scan) : Option Scan :=
  s.dropCandidate?.map fun s => { s with keyAllowed := true }.take .flowEntry 1

def blockItem? (s : Scan) : Option Scan :=
  if !s.inFlow && !s.keyAllowed then none
  else
    (s.openBlock .blockSequenceStart s.mark s.tokens.size).dropCandidate?.map fun s =>
      { s with keyAllowed := true }.take .blockEntry 1

def key? (s : Scan) : Option Scan :=
  if !s.inFlow && !s.keyAllowed then none
  else
    (s.openBlock .blockMappingStart s.mark s.tokens.size).dropCandidate?.map fun s =>
      { s with keyAllowed := !s.inFlow }.take .key 1

/-- Reads the colon before a value, which may make a key of what stands before it. -/
def value? (s : Scan) : Option Scan :=
  match s.candidate with
  | some c =>
    let keyed := (s.insertAt c.index .key c.mark).openBlock .blockMappingStart c.mark c.index
    some ({ keyed with candidate := none, keyAllowed := false }.take .value 1)
  | none =>
    if !s.inFlow && !s.keyAllowed then none
    else
      let opened := s.openBlock .blockMappingStart s.mark s.tokens.size
      some ({ opened with keyAllowed := !s.inFlow }.take .value 1)

def anchor? (s : Scan) (token : List Char → Token) : Option Scan :=
  match s.saveCandidate? with
  | none => none
  | some s =>
    match Yaml.anchor? s.cursor with
    | none => none
    | some (name, after) =>
      some { s.push (token name) s.mark after.mark with cursor := after, keyAllowed := false }

def tag? (s : Scan) : Option Scan :=
  match s.saveCandidate? with
  | none => none
  | some s =>
    match Yaml.tag? s.inFlow s.cursor with
    | none => none
    | some ((handle, suffix), after) =>
      some { s.push (.tag handle suffix) s.mark after.mark with
        cursor := after, keyAllowed := false }

def block? (s : Scan) (literal : Bool) : Option Scan :=
  match s.dropCandidate? with
  | none => none
  | some s =>
    match Yaml.block? literal s.indent s.cursor with
    | none => none
    | some (text, after) =>
      some { s.push (.scalar (if literal then .literal else .folded) text) s.mark after.mark with
        cursor := after, keyAllowed := true }

def quoted? (s : Scan) : Option Scan :=
  match s.saveCandidate? with
  | none => none
  | some s =>
    match Yaml.quoted? s.cursor with
    | none => none
    | some (text, after) =>
      some { s.push (.scalar .quoted text) s.mark after.mark with
        cursor := after, keyAllowed := false }

def plain? (s : Scan) : Option Scan :=
  match s.saveCandidate? with
  | none => none
  | some s =>
    match Yaml.plain? s.inFlow (s.indent + 1) s.cursor with
    | none => none
    | some p =>
      some { s.push (.scalar .plain p.text) s.mark p.after.mark with
        cursor := p.after, keyAllowed := p.broken }

/-- The characters that start no plain scalar, at least not always. -/
def isIndicator (c : Char) : Bool :=
  isFlowIndicator c || c == '-' || c == '?' || c == ':' || c == '#' || c == '&' || c == '*'
    || c == '!' || c == '|' || c == '>' || c == '\'' || c == '\x22' || c == '%' || c == '@'
    || c == '\x60'

/-- Whether a plain scalar may start with this character. -/
def startsPlain (flow : Bool) (c : Char) (rest : List Char) : Bool :=
  !(atBlank [c] || isIndicator c) || (c == '-' && !(rest.head?.any isBlank))
    || (!flow && (c == '?' || c == ':') && !atBlank rest)

/-- Reads the token that starts with the given character. -/
def token? (s : Scan) (c : Char) (rest : List Char) : Option Scan :=
  if s.mark.column == 0 && c == '%' then s.directive?
  else if s.mark.column == 0 && atDocumentMark (c :: rest) then
    s.documentMark? (if c == '-' then .documentStart else .documentEnd)
  else if c == '[' then s.openFlow? .flowSequenceStart
  else if c == '\x7b' then s.openFlow? .flowMappingStart
  else if c == ']' then s.closeFlow? .flowSequenceEnd
  else if c == '\x7d' then s.closeFlow? .flowMappingEnd
  else if c == ',' then s.flowItem?
  else if c == '-' && atBlank rest then s.blockItem?
  else if c == '?' && (s.inFlow || atBlank rest) then s.key?
  else if c == ':' && (s.inFlow || atBlank rest) then s.value?
  else if c == '*' then s.anchor? .alias
  else if c == '&' then s.anchor? .anchor
  else if c == '!' then s.tag?
  else if c == '|' && !s.inFlow then s.block? true
  else if c == '>' && !s.inFlow then s.block? false
  else if c == '\'' || c == '\x22' then s.quoted?
  else if startsPlain s.inFlow c rest then s.plain?
  else none

/-- Ends the text: all blocks are closed on a line of their own. -/
def finish? (s : Scan) : Option Scan :=
  let m := if s.mark.column = 0 then s.mark else s.mark.nextLine
  let ended : Scan := { s with cursor := ⟨m, []⟩ }
  (ended.closeBlocks (-1)).dropCandidate?.map fun s => s.push .streamEnd m m

/-- Reads tokens to the end of the text, at most so many. -/
def run? : Nat → Scan → Option Scan
  | 0, _ => none
  | fuel + 1, s =>
    match s.toNext.refreshAll? with
    | none => none
    | some s =>
      let s := s.closeBlocks s.mark.column
      match s.cursor.rest with
      | [] => s.finish?
      | c :: rest =>
        match s.token? c rest with
        | none => none
        | some s => run? fuel s

end Scan

/-- The tokens of a text. Each takes a character, so there are no more than characters. -/
def tokens? (text : String) : Option (List Placed) :=
  match content? text with
  | none => none
  | some cs => (Scan.run? (cs.length + 1) (.start cs)).map fun s => s.tokens.toList

end Yaml
end PackPlan
