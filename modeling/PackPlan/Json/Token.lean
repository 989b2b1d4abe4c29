/-!
# PackPlan.Json.Token

The tokens of JSON text and the places where they stand. A place is a line, counted from one, and
the number of bytes before it on this line. The width of a token follows from its parts, so places
are worked out while the text is read (`Json.Text`).
-/

namespace PackPlan
namespace Json

/-- A line, and the number of bytes before the place on this line. -/
structure Place where
  line : Nat
  column : Nat
deriving DecidableEq, Repr

def Place.advance (p : Place) (bytes : Nat) : Place := ⟨p.line, p.column + bytes⟩

inductive Piece where
  | plain (c : Char)
  /-- A character written with a backslash and one letter. -/
  | short (c : Char)
  /-- A UTF-16 unit written with a backslash and four hexadecimal digits. -/
  | unit (n : Nat)
deriving DecidableEq, Repr

def Piece.width : Piece → Nat
  | .plain c => c.utf8Size
  | .short _ => 2
  | .unit _ => 6

/-- The text of some pieces. Two units in a row that are the halves of a pair make one character,
any other half makes the text unreadable. -/
def Piece.content? : List Piece → Option (List Char)
  | [] => some []
  | .plain c :: rest => (content? rest).map (c :: ·)
  | .short c :: rest => (content? rest).map (c :: ·)
  | .unit n :: rest =>
    if n < 0xD800 ∨ 0xDFFF < n then (content? rest).map (Char.ofNat n :: ·)
    else
      match rest with
      | .unit m :: rest =>
        if n < 0xDC00 ∧ 0xDC00 ≤ m ∧ m ≤ 0xDFFF then
          let code := 0x10000 + (n - 0xD800) * 0x400 + (m - 0xDC00)
          (content? rest).map (Char.ofNat code :: ·)
        else none
      | _ => none

/-- The exponent of a number: its sign, if it is written, and its digits. -/
structure Exponent where
  negative? : Option Bool
  digits : List Char
deriving DecidableEq, Repr

/-- A number as it is written. -/
structure Literal where
  negative : Bool
  whole : List Char
  fraction : Option (List Char)
  exponent : Option Exponent
deriving DecidableEq, Repr

def Literal.width (n : Literal) : Nat :=
  (if n.negative then 1 else 0) + n.whole.length
    + (match n.fraction with
      | none => 0
      | some digits => 1 + digits.length)
    + (match n.exponent with
      | none => 0
      | some e => 1 + (if e.negative?.isSome then 1 else 0) + e.digits.length)

/-- The tokens of JSON. Reading stops at `broken`, and `finish` stands at the end of the text. -/
inductive Token where
  | openList
  | closeList
  | openObject
  | closeObject
  | comma
  | colon
  | null
  | boolean (value : Bool)
  | number (literal : Literal)
  | text (pieces : List Piece)
  | finish
  | broken
deriving DecidableEq, Repr

def Token.width : Token → Nat
  | .null => 4
  | .boolean true => 4
  | .boolean false => 5
  | .number literal => literal.width
  | .text pieces => pieces.foldr (fun piece n => piece.width + n) 2
  | .finish => 0
  | .broken => 0
  | _ => 1

structure Placed where
  token : Token
  start : Place
deriving DecidableEq, Repr

def Placed.stop (t : Placed) : Place := t.start.advance t.token.width

end Json
end PackPlan
