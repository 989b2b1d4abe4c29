import PackPlan.Decimal.Shortest
import PackPlan.Document.Problem
import PackPlan.Numeral
import PackPlan.Yaml.Node

/-!
# PackPlan.Yaml.Value

What a scalar means. A plain scalar may be an integer, in a base of its own, a number with a
fraction, a truth value or nothing; all else is a text. Digits after a leading zero are a text. The
common tags choose one of these meanings, whatever the form of the scalar.
-/

namespace PackPlan
namespace Yaml

open Document

/-! ## Integers -/

/-- Whether a text is made of digits after a leading zero, which is no number. -/
def hasLeadingZero (cs : List Char) : Bool :=
  let digits :=
    match cs with
    | '-' :: rest => rest
    | '+' :: rest => rest
    | cs => cs
  match digits with
  | '0' :: c :: rest => (c :: rest).all Char.isDigit
  | _ => false

/-- The number after the sign of a base, if the text has one. -/
def based? : List Char → Option Nat
  | '0' :: 'x' :: ds => Numeral.natural? 16 ds
  | '0' :: 'o' :: ds => Numeral.natural? 8 ds
  | '0' :: 'b' :: ds => Numeral.natural? 2 ds
  | _ => none

/-- The text without a plus sign at its front, unless another sign follows. -/
def withoutPlus? : List Char → Option (List Char)
  | '+' :: '+' :: _ => none
  | '+' :: '-' :: _ => none
  | '+' :: rest => some rest
  | cs => some cs

def unsigned? (cs : List Char) : Option Nat :=
  match withoutPlus? cs with
  | none => none
  | some ds =>
    match based? ds with
    | some n => some n
    | none => if hasLeadingZero cs then none else Numeral.natural? 10 ds

/-- The number that a text with or without minus sign writes. -/
def signed? (cs : List Char) : Option Int :=
  match cs with
  | '-' :: ds =>
    match based? ds with
    | some n => some (-Int.ofNat n)
    | none => if hasLeadingZero cs then none else (Numeral.natural? 10 ds).map fun n => -Int.ofNat n
  | cs => (unsigned? cs).map Int.ofNat

/-! ## Numbers with a fraction -/

def digits (cs : List Char) : List Char × List Char := cs.span Char.isDigit

/-- The value of an exponent, if there is one and nothing follows it. -/
def exponent? : List Char → Option Int
  | [] => some 0
  | c :: rest =>
    if c == 'e' || c == 'E' then Numeral.integer? 10 rest else none

/-- The double nearest to `value * 10 ^ power`, if it is finite. -/
def nearest? (value : Nat) (power : Int) : Option Float :=
  let magnitude := (Nat.toDigits 10 value).length + power
  if value = 0 ∨ magnitude < -400 then some 0
  else if 400 < magnitude then none
  else
    let x := Float.ofScientific value (power < 0) power.natAbs
    if x.isInf then none else some x

/-- The size of a number with digits on at least one side of the point. -/
def size? (cs : List Char) : Option Float :=
  let (whole, rest) := digits cs
  let (fraction, rest) :=
    match rest with
    | '.' :: rest => digits rest
    | rest => ([], rest)
  match Numeral.natural? 10 (whole ++ fraction), exponent? rest with
  | some value, some power => nearest? value (power - Int.ofNat fraction.length)
  | _, _ => none

def double? (cs : List Char) : Option Float :=
  match withoutPlus? cs with
  | none => none
  | some ds =>
    if ds = ".inf".toList ∨ ds = ".Inf".toList ∨ ds = ".INF".toList then some (1.0 / 0.0)
    else if cs = "-.inf".toList ∨ cs = "-.Inf".toList ∨ cs = "-.INF".toList then some (-1.0 / 0.0)
    else if cs = ".nan".toList ∨ cs = ".NaN".toList ∨ cs = ".NAN".toList then some (0.0 / 0.0)
    else
      match ds with
      | '-' :: ds => (size? ds).map fun x => -x
      | ds => size? ds

/-- Numbers in messages are always written in positions. -/
def layout : Decimal.Layout := ⟨none, .above⟩

/-- A number in messages. -/
def doubleText (x : Float) : String :=
  if x.isNaN then "NaN"
  else if x.isInf then if x < 0 then "-inf" else "inf"
  else layout.render x.toBits

/-! ## Scalars -/

def boolean? (cs : List Char) : Option Bool :=
  if cs = "true".toList ∨ cs = "True".toList ∨ cs = "TRUE".toList then some true
  else if cs = "false".toList ∨ cs = "False".toList ∨ cs = "FALSE".toList then some false
  else none

def isNull (cs : List Char) : Bool :=
  cs = "null".toList || cs = "Null".toList || cs = "NULL".toList || cs = "~".toList

/-- The integer that a text writes, as it is named in messages: with its type, if it needs more than
64 bits. -/
def integer? (cs : List Char) : Option Found :=
  match signed? cs with
  | none => none
  | some n =>
    if minQuantity ≤ n ∧ n ≤ maxCount then some (.integer n)
    else if 0 ≤ n ∧ n < Int.pow 2 128 then some (.wideInteger n "u128")
    else if -Int.pow 2 127 ≤ n ∧ n < 0 then some (.wideInteger n "i128")
    else none

def plainFound (cs : List Char) : Found :=
  if cs.isEmpty || isNull cs then .unit
  else
    match boolean? cs with
    | some b => .boolean b
    | none =>
      match integer? cs with
      | some found => found
      | none =>
        match if hasLeadingZero cs then none else double? cs with
        | some x => .floating (doubleText x)
        | none => .text cs

def commonTag (name : String) : List Char := "tag:yaml.org,2002:".toList ++ name.toList

namespace Scalar

def plain (s : Scalar) : Bool := s.style == .plain

/-- Whether a scalar may be an integer: plain ones may, whatever their tag, and literal ones with the
tag of integers. -/
def mayCount (s : Scalar) : Bool :=
  s.plain || (s.style == .literal && s.tag == some (commonTag "int"))

/-- What is wrong with a scalar that is not of the expected type. A common tag that the text does not
fit is a problem of its own. -/
def problem (s : Scalar) (expected : String) : Problem :=
  let as (found : Option Found) (meaning : String) : Problem :=
    match found with
    | some found => .wrongType found expected
    | none => .wrongValue (.text s.text) meaning
  match s.tag with
  | none => .wrongType (if s.plain then plainFound s.text else .text s.text) expected
  | some tag =>
    if tag = commonTag "bool" then as ((boolean? s.text).map .boolean) "a boolean"
    else if tag = commonTag "int" then as (integer? s.text) "an integer"
    else if tag = commonTag "float" then
      as ((double? s.text).map fun x => .floating (doubleText x)) "a float"
    else if tag = commonTag "null" then as (if isNull s.text then some .unit else none) "null"
    else if tag.head? = some '!' ∧ s.plain then .wrongType (plainFound s.text) expected
    else .wrongType (.text s.text) expected

/-- Whether a scalar is left out. -/
def isEmpty (s : Scalar) : Bool := s.plain && s.text.isEmpty

end Scalar
end Yaml
end PackPlan
