import PackPlan.Yaml.Token

/-!
# PackPlan.Yaml.Text

The characters of YAML text. A text may hold printable characters, tabs and line breaks only. The
common ways to end a line are made one before anything else is read (`normalize`); the two Unicode
separators end lines as well, but stay what they are inside a scalar.

Blanks and line breaks between the words of a scalar are gathered in a `Gap`: a gap within a line is
kept, one line break becomes a blank, and of several breaks all but the first are kept.
-/

namespace PackPlan
namespace Yaml

def isAllowed (c : Char) : Bool :=
  let n := c.toNat
  n == 0x09 || n == 0x0A || n == 0x0D || (0x20 ≤ n && n ≤ 0x7E) || n == 0x85
    || (0xA0 ≤ n && n ≤ 0xD7FF) || (0xE000 ≤ n && n ≤ 0xFFFD) || 0x10000 ≤ n

/-- Makes one line break of each of the common ways to end a line. -/
def normalize : List Char → List Char
  | '\r' :: '\n' :: rest => '\n' :: normalize rest
  | c :: rest => (if c == '\r' || c == '\x85' then '\n' else c) :: normalize rest
  | [] => []

def content? (text : String) : Option (List Char) :=
  if text.toList.all isAllowed then some (normalize text.toList) else none

/-- Blank and tab. -/
def isBlank (c : Char) : Bool := c == ' ' || c == '\t'

def isBreak (c : Char) : Bool := c == '\n' || c == '\u2028' || c == '\u2029'

def atBreak : List Char → Bool
  | [] => true
  | c :: _ => isBreak c

def atBlank : List Char → Bool
  | [] => true
  | c :: _ => isBlank c || isBreak c

/-- Whether three dashes or three points stand here, and nothing directly after them. Between
documents they stand at the start of a line. -/
def atDocumentMark : List Char → Bool
  | '-' :: '-' :: '-' :: rest => atBlank rest
  | '.' :: '.' :: '.' :: rest => atBlank rest
  | _ => false

/-- The characters of the names of anchors, tag handles and directives. -/
def isNameChar (c : Char) : Bool := c.isAlphanum || c == '_' || c == '-'

/-- Takes the characters of a kind that holds no line break. -/
def Cursor.span (c : Cursor) (p : Char → Bool) : List Char × Cursor :=
  let (taken, rest) := c.rest.span p
  (taken, ⟨taken.foldl Mark.past c.mark, rest⟩)

def Cursor.skipBlanks (c : Cursor) : Cursor := (c.span isBlank).2

def Cursor.skipComment (c : Cursor) : Cursor :=
  match c.rest with
  | '#' :: _ => (c.span fun x => !isBreak x).2
  | _ => c

def Cursor.skipBreak (c : Cursor) : Cursor :=
  match c.rest with
  | x :: rest => if isBreak x then ⟨c.mark.nextLine, rest⟩ else c
  | [] => c

/-! ## Gaps -/

/-- The blanks and line breaks since the last word of a scalar. -/
structure Gap where
  /-- Whether there was a line break. Blanks count only before it. -/
  broken : Bool := false
  blanks : List Char := []
  /-- The first line break, unless it was escaped. -/
  first : List Char := []
  /-- The other line breaks. -/
  later : List Char := []
deriving DecidableEq, Repr

def Gap.blank (g : Gap) (c : Char) : Gap :=
  if g.broken then g else { g with blanks := g.blanks ++ [c] }

def Gap.lineBreak (g : Gap) (c : Char) : Gap :=
  if g.broken then { g with later := g.later ++ [c] }
  else { broken := true, blanks := [], first := [c], later := [] }

/-- The gap after a line break that was escaped. -/
def Gap.escaped : Gap := { broken := true }

/-- What a gap between two words stands for. -/
def Gap.text (g : Gap) : List Char :=
  if g.broken then
    if g.first = ['\n'] then if g.later.isEmpty then [' '] else g.later else g.first ++ g.later
  else g.blanks

end Yaml
end PackPlan
