import Mathlib.Data.List.Forall2
import PackPlan.Json.Text
import PackPlan.Proofs.Numeral

/-!
# PackPlan.Proofs.Json.Value

The grammar of JSON, apart from reading it. `IsValue` says which rows of tokens are a value: a value
is held as its tokens, a list as the tokens of its items, an object as its members. `Spells` says
which characters write a row of tokens, with white space anywhere between them. A string has many
spellings, as each of its characters may be escaped, and a number keeps the digits it is written
with.
-/

namespace PackPlan
namespace Json

open Numeral (IsDigits)

/-! ## Values -/

def listTokens (items : List (List Token)) : List Token :=
  .openList :: [.comma].intercalate items ++ [.closeList]

/-- A member of an object: the spelling of its name, and its value. -/
structure Member where
  name : List Piece
  value : List Token

def Member.tokens (m : Member) : List Token := .text m.name :: .colon :: m.value

def objectTokens (members : List Member) : List Token :=
  .openObject :: [.comma].intercalate (members.map Member.tokens) ++ [.closeObject]

inductive IsValue : List Token → Prop where
  | null : IsValue [.null]
  | boolean (value : Bool) : IsValue [.boolean value]
  | number (literal : Literal) : IsValue [.number literal]
  | text (pieces : List Piece) : IsValue [.text pieces]
  | list {items : List (List Token)} : (∀ item ∈ items, IsValue item) → IsValue (listTokens items)
  | object {members : List Member} :
      (∀ m ∈ members, IsValue m.value) → IsValue (objectTokens members)

/-! ## Spellings -/

/-- The letters that stand after a backslash, and what each stands for. -/
def shortEscapes : List (Char × Char) :=
  [('\x22', '\x22'), ('\\', '\\'), ('/', '/'), ('b', '\x08'), ('f', '\x0c'), ('n', '\n'),
    ('r', '\r'), ('t', '\t')]

/-- A hexadecimal digit in either case. -/
def IsHexDigit (c : Char) (n : Nat) : Prop :=
  n < 16 ∧ (c = Nat.digitChar n ∨ c = (Nat.digitChar n).toUpper)

inductive Piece.Spells : Piece → List Char → Prop where
  | plain {c : Char} : c ≠ '\x22' → c ≠ '\\' → 0x20 ≤ c.toNat → Piece.Spells (.plain c) [c]
  | short {letter c : Char} : (letter, c) ∈ shortEscapes → Piece.Spells (.short c) ['\\', letter]
  | unit {a b c d : Char} {w x y z : Nat} :
      IsHexDigit a w → IsHexDigit b x → IsHexDigit c y → IsHexDigit d z →
      Piece.Spells (.unit (((w * 16 + x) * 16 + y) * 16 + z)) ['\\', 'u', a, b, c, d]

inductive SpellsFraction : Option (List Char) → List Char → Prop where
  | none : SpellsFraction none []
  | some {digits : List Char} : IsDigits digits → SpellsFraction (some digits) ('.' :: digits)

inductive SpellsSign : Option Bool → List Char → Prop where
  | none : SpellsSign none []
  | plus : SpellsSign (some false) ['+']
  | minus : SpellsSign (some true) ['-']

inductive SpellsExponent : Option Exponent → List Char → Prop where
  | none : SpellsExponent none []
  | some {letter : Char} {sign : Option Bool} {signText digits : List Char} :
      letter = 'e' ∨ letter = 'E' → SpellsSign sign signText → IsDigits digits →
      SpellsExponent (some ⟨sign, digits⟩) (letter :: (signText ++ digits))

/-- A whole part of more than one digit does not start with zero. -/
inductive Literal.Spells : Literal → List Char → Prop where
  | mk {negative : Bool} {whole fractionText exponentText : List Char}
      {fraction : Option (List Char)} {exponent : Option Exponent} :
      IsDigits whole → (∀ others, whole = '0' :: others → others = []) →
      SpellsFraction fraction fractionText → SpellsExponent exponent exponentText →
      Literal.Spells ⟨negative, whole, fraction, exponent⟩
        ((if negative then ['-'] else []) ++ (whole ++ (fractionText ++ exponentText)))

inductive Token.Spells : Token → List Char → Prop where
  | openList : Token.Spells .openList ['[']
  | closeList : Token.Spells .closeList [']']
  | openObject : Token.Spells .openObject ['\x7b']
  | closeObject : Token.Spells .closeObject ['\x7d']
  | comma : Token.Spells .comma [',']
  | colon : Token.Spells .colon [':']
  | null : Token.Spells .null ['n', 'u', 'l', 'l']
  | yes : Token.Spells (.boolean true) ['t', 'r', 'u', 'e']
  | no : Token.Spells (.boolean false) ['f', 'a', 'l', 's', 'e']
  | number {literal : Literal} {word : List Char} :
      literal.Spells word → Token.Spells (.number literal) word
  | text {pieces : List Piece} {words : List (List Char)} :
      List.Forall₂ Piece.Spells pieces words →
      Token.Spells (.text pieces) ('\x22' :: (words.flatten ++ ['\x22']))

def AllSpace (cs : List Char) : Prop := ∀ c ∈ cs, isSpace c = true

/-- The characters write the tokens, with white space before each and after the last. -/
inductive Spells : List Token → List Char → Prop where
  | finish {space : List Char} : AllSpace space → Spells [] space
  | token {token : Token} {others : List Token} {space word rest : List Char} :
      AllSpace space → token.Spells word → Spells others rest →
      Spells (token :: others) (space ++ (word ++ rest))

end Json
end PackPlan
