/-!
# PackPlan.Yaml.Token

The tokens of YAML text and the marks where they stand. A mark counts lines and characters from
zero; a byte order mark is a character like others there. Besides the tokens that are written
there are those that the layout makes: the start of a block by a deeper column, its end by a
shallower one, and the key that turns out to be one at the colon after it.
-/

namespace PackPlan
namespace Yaml

/-- A place in a text, counted from zero. -/
structure Mark where
  line : Nat
  /-- The number of characters before it on its line. -/
  column : Nat
  /-- The number of octets that these take in UTF-8. -/
  octets : Nat
deriving DecidableEq, Repr, Inhabited

def Mark.origin : Mark := ⟨0, 0, 0⟩

/-- The mark after so many characters that take one octet each. -/
def Mark.rightBy (m : Mark) (n : Nat) : Mark := ⟨m.line, m.column + n, m.octets + n⟩

def Mark.right (m : Mark) : Mark := m.rightBy 1

def Mark.past (m : Mark) (c : Char) : Mark := ⟨m.line, m.column + 1, m.octets + c.utf8Size⟩

def Mark.nextLine (m : Mark) : Mark := ⟨m.line + 1, 0, 0⟩

@[simp] theorem Mark.past_line (m : Mark) (c : Char) : (m.past c).line = m.line := rfl

@[simp] theorem Mark.past_column (m : Mark) (c : Char) : (m.past c).column = m.column + 1 := rfl

/-- A character that takes one octet is passed like any other. -/
theorem Mark.past_eq_right {m : Mark} {c : Char} (h : c.utf8Size = 1) : m.past c = m.right := by
  simp [Mark.past, Mark.right, Mark.rightBy, h]

inductive Style where
  | plain
  | quoted
  /-- A block that keeps its lines. -/
  | literal
  /-- A block that joins its lines. -/
  | folded
deriving DecidableEq, Repr

inductive Token where
  | version (major minor : Nat)
  /-- A name for the first part of tags. -/
  | tagDirective (handle lead : List Char)
  | documentStart
  | documentEnd
  | streamEnd
  | blockSequenceStart
  | blockMappingStart
  | blockEnd
  | blockEntry
  | flowSequenceStart
  | flowSequenceEnd
  | flowMappingStart
  | flowMappingEnd
  | flowEntry
  | key
  | value
  | anchor (name : List Char)
  | alias (name : List Char)
  | tag (handle suffix : List Char)
  | scalar (style : Style) (text : List Char)
deriving DecidableEq, Repr

structure Placed where
  token : Token
  start : Mark
  stop : Mark
deriving DecidableEq, Repr

/-- What is left of a text, and the mark where it starts. -/
structure Cursor where
  mark : Mark
  rest : List Char
deriving DecidableEq, Repr

end Yaml
end PackPlan
