import PackPlan.Json.Token
import PackPlan.Numeral

/-!
# PackPlan.Json.Text

From text to tokens. `tokens` always ends with `finish` or `broken`: the rest of a text is not looked
at once a token cannot be read.
-/

namespace PackPlan
namespace Json

def isSpace (c : Char) : Bool := c == ' ' || c == '\t' || c == '\n' || c == '\r'

/-- The character that a letter after a backslash stands for. -/
def shortEscape? : Char → Option Char
  | '\x22' => some '\x22'
  | '\\' => some '\\'
  | '/' => some '/'
  | 'b' => some '\x08'
  | 'f' => some '\x0c'
  | 'n' => some '\n'
  | 'r' => some '\r'
  | 't' => some '\t'
  | _ => none

/-- The pieces up to the closing quote, and what follows it. -/
def pieces? : List Char → Option (List Piece × List Char)
  | [] => none
  | '\x22' :: rest => some ([], rest)
  | '\\' :: 'u' :: a :: b :: c :: d :: rest =>
    match Numeral.natural? 16 [a, b, c, d], pieces? rest with
    | some n, some (others, rest) => some (.unit n :: others, rest)
    | _, _ => none
  | '\\' :: letter :: rest =>
    match shortEscape? letter, pieces? rest with
    | some c, some (others, rest) => some (.short c :: others, rest)
    | _, _ => none
  | c :: rest =>
    if c == '\\' || c.toNat < 0x20 then none
    else
      match pieces? rest with
      | some (others, rest) => some (.plain c :: others, rest)
      | none => none

def digits (cs : List Char) : List Char × List Char := cs.span Char.isDigit

/-- The fraction at the front, if a point announces one. -/
def fraction? : List Char → Option (Option (List Char) × List Char)
  | '.' :: rest =>
    match digits rest with
    | ([], _) => none
    | (ds, rest) => some (some ds, rest)
  | cs => some (none, cs)

def exponentSign : List Char → Option Bool × List Char
  | '+' :: rest => (some false, rest)
  | '-' :: rest => (some true, rest)
  | cs => (none, cs)

/-- The exponent at the front, if a letter announces one. -/
def exponent? : List Char → Option (Option Exponent × List Char)
  | c :: rest =>
    if c == 'e' || c == 'E' then
      let (sign, rest) := exponentSign rest
      match digits rest with
      | ([], _) => none
      | (ds, rest) => some (some ⟨sign, ds⟩, rest)
    else some (none, c :: rest)
  | [] => some (none, [])

/-- The number at the front. A whole part of more than one digit does not start with zero. -/
def literal? (negative : Bool) (cs : List Char) : Option (Literal × List Char) :=
  match digits cs with
  | ([], _) => none
  | ('0' :: _ :: _, _) => none
  | (whole, rest) =>
    match fraction? rest with
    | none => none
    | some (fraction, rest) =>
      match exponent? rest with
      | none => none
      | some (exponent, rest) => some (⟨negative, whole, fraction, exponent⟩, rest)

/-- A token at the front of a text that starts with no space, and what follows it. -/
def token? : List Char → Option (Token × List Char)
  | '[' :: rest => some (.openList, rest)
  | ']' :: rest => some (.closeList, rest)
  | '\x7b' :: rest => some (.openObject, rest)
  | '\x7d' :: rest => some (.closeObject, rest)
  | ',' :: rest => some (.comma, rest)
  | ':' :: rest => some (.colon, rest)
  | 'n' :: 'u' :: 'l' :: 'l' :: rest => some (.null, rest)
  | 't' :: 'r' :: 'u' :: 'e' :: rest => some (.boolean true, rest)
  | 'f' :: 'a' :: 'l' :: 's' :: 'e' :: rest => some (.boolean false, rest)
  | '\x22' :: rest => (pieces? rest).map fun (pieces, rest) => (.text pieces, rest)
  | '-' :: rest => (literal? true rest).map fun (literal, rest) => (.number literal, rest)
  | cs => (literal? false cs).map fun (literal, rest) => (.number literal, rest)

/-- The place after the spaces at the front, and what follows them. -/
def skipSpace : Place → List Char → Place × List Char
  | p, [] => (p, [])
  | p, c :: rest =>
    if c == '\n' then skipSpace ⟨p.line + 1, 0⟩ rest
    else if isSpace c then skipSpace (p.advance 1) rest
    else (p, c :: rest)

/-- The tokens from a place on, at most so many. -/
def tokensFrom : Nat → Place → List Char → List Placed
  | 0, p, _ => [⟨.broken, p⟩]
  | fuel + 1, p, cs =>
    match skipSpace p cs with
    | (p, []) => [⟨.finish, p⟩]
    | (p, cs) =>
      match token? cs with
      | none => [⟨.broken, p⟩]
      | some (token, rest) => ⟨token, p⟩ :: tokensFrom fuel (p.advance token.width) rest

/-- The tokens of a text. Each takes a character, so there are no more than characters. -/
def tokens (text : String) : List Placed :=
  let cs := text.toList
  tokensFrom (cs.length + 1) ⟨1, 0⟩ cs

end Json
end PackPlan
