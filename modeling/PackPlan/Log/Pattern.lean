/-!
# PackPlan.Log.Pattern

Patterns for the values that a directive asks for: regular expressions. Only some can be used
(`Pattern.isUsable`): a value is matched octet by octet and without tables of characters. So a
pattern over characters can ask neither for letters of either case nor for classes by a letter nor
for the edges of words, and one over octets never leaves ASCII. Nor may a pattern be nested too deep.
-/

namespace PackPlan
namespace Log
namespace Pattern

/-! ## Switches -/

inductive Switch where
  | ignoreCase
  | multiLine
  | dotMatchesBreak
  | swapGreed
  | unicode
  | carriageReturns
  /-- Blanks and comments do not count. -/
  | verbose
deriving DecidableEq, Repr

def Switch.ofChar? : Char → Option Switch
  | 'i' => some .ignoreCase
  | 'm' => some .multiLine
  | 's' => some .dotMatchesBreak
  | 'U' => some .swapGreed
  | 'u' => some .unicode
  | 'R' => some .carriageReturns
  | 'x' => some .verbose
  | _ => none

/-- Switches that are turned on, and others that are turned off. -/
structure Switches where
  on : List Switch
  off : List Switch
deriving DecidableEq, Repr

namespace Switches

def none : Switches := ⟨[], []⟩

def mentions (s : Switches) (switch : Switch) : Bool := s.on.contains switch || s.off.contains switch

def apply (s : Switches) (switch : Switch) (before : Bool) : Bool :=
  if s.on.contains switch then true else if s.off.contains switch then false else before

end Switches

/-- What the rest of a pattern is about: characters or octets, and whether case counts. -/
structure Mode where
  ignoreCase : Bool := false
  unicode : Bool := true
deriving DecidableEq, Repr

def Mode.switch (m : Mode) (s : Switches) : Mode :=
  ⟨s.apply .ignoreCase m.ignoreCase, s.apply .unicode m.unicode⟩

/-! ## Literals and sets -/

structure Literal where
  char : Char
  /-- Whether it is written by two hexadecimal digits, as an octet. -/
  octet : Bool
deriving DecidableEq, Repr

def Literal.isAscii (l : Literal) : Bool := l.char.toNat ≤ 0x7F

/-- Whether a literal can be used outside of sets. -/
def Literal.isUsable (m : Mode) (l : Literal) : Bool :=
  if m.unicode then !m.ignoreCase else !l.octet || l.isAscii

/-- Whether a literal can be used in a set. -/
def Literal.isMember (m : Mode) (l : Literal) : Bool :=
  if m.unicode then !m.ignoreCase else l.isAscii

inductive CharSet where
  | empty
  | literal (l : Literal)
  | range (first last : Literal)
  /-- A class by its name. -/
  | named (negated : Bool)
  /-- A class by its letter. -/
  | lettered (negated : Bool)
  | bracket (negated : Bool) (inner : CharSet)
  | union (items : List CharSet)
  /-- The common part of two sets, or their difference. -/
  | operation (left right : CharSet)

mutual

def CharSet.isUsable (m : Mode) : CharSet → Bool
  | .empty => true
  | .literal l => l.isMember m
  | .range first last => first.isMember m && last.isMember m
  | .named negated => if m.unicode then !m.ignoreCase else !negated
  | .lettered negated => !m.unicode && !negated
  | .bracket negated inner => (m.unicode || !negated) && inner.isUsable m
  | .union items => CharSet.areUsable m items
  | .operation left right => left.isUsable m && right.isUsable m

def CharSet.areUsable (m : Mode) : List CharSet → Bool
  | [] => true
  | item :: rest => item.isUsable m && CharSet.areUsable m rest

end

mutual

def CharSet.depth : CharSet → Nat
  | .bracket _ inner => inner.depth + 1
  | .union items => CharSet.depthOfAll items + 1
  | .operation left right => max left.depth right.depth + 1
  | _ => 0

def CharSet.depthOfAll : List CharSet → Nat
  | [] => 0
  | item :: rest => max item.depth (CharSet.depthOfAll rest)

end

end Pattern

/-! ## Patterns -/

inductive Pattern where
  | empty
  /-- A change of switches for the rest of the group. -/
  | switches (s : Pattern.Switches)
  | literal (l : Pattern.Literal)
  /-- Any character. -/
  | any
  /-- The start or the end of a line or of the text. -/
  | edge
  | wordEdge
  /-- A class by its letter. -/
  | lettered (negated : Bool)
  | set (s : Pattern.CharSet)
  | repeated (p : Pattern)
  | group (s : Pattern.Switches) (p : Pattern)
  | sequence (ps : List Pattern)
  | choice (ps : List Pattern)

namespace Pattern

mutual

def depth : Pattern → Nat
  | .set s => s.depth
  | .repeated p => p.depth + 1
  | .group _ p => p.depth + 1
  | .sequence ps => depthOfAll ps + 1
  | .choice ps => depthOfAll ps + 1
  | _ => 0

def depthOfAll : List Pattern → Nat
  | [] => 0
  | p :: rest => max p.depth (depthOfAll rest)

end

mutual

/-- The mode after a pattern, if the pattern can be used. A change of switches goes on to the end of
the group that it stands in, through all of its choices. -/
def modeAfter? (m : Mode) : Pattern → Option Mode
  | .empty => some m
  | .switches s => some (m.switch s)
  | .literal l => if l.isUsable m then some m else none
  | .any => if m.unicode then some m else none
  | .edge => some m
  | .wordEdge => if m.unicode then none else some m
  | .lettered negated => if m.unicode || negated then none else some m
  | .set s => if s.isUsable m then some m else none
  | .repeated p => p.modeAfter? m
  | .group s p => (p.modeAfter? (m.switch s)).map fun _ => m
  | .sequence ps => modeAfterAll? m ps
  | .choice ps => modeAfterAll? m ps

/-- The mode after some patterns, if all of them can be used. -/
def modeAfterAll? (m : Mode) : List Pattern → Option Mode
  | [] => some m
  | p :: rest => (p.modeAfter? m).bind fun m => modeAfterAll? m rest

end

def maxDepth : Nat := 250

def isUsable (p : Pattern) : Bool := p.depth ≤ maxDepth && (p.modeAfter? {}).isSome

end Pattern
end Log
end PackPlan
