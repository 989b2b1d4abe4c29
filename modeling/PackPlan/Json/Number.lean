import PackPlan.Decimal.Shortest
import PackPlan.Document.Problem
import PackPlan.Json.Token
import PackPlan.Numeral

/-!
# PackPlan.Json.Number

The value of a number. Without fraction and exponent it is an integer as far as 64 bits hold it, all
else is a double: the first digits, as many as 64 bits hold, scaled by a power of ten. Minus zero is
a double as well. A number beyond the largest double has no value.
-/

namespace PackPlan
namespace Json

inductive Number where
  | integer (value : Int)
  | double (bits : UInt64)
deriving DecidableEq, Repr

/-- Numbers in messages: in positions from `1e-5` up to below `1e16`, else with an exponent; of two
decimals that are equally near, the even one. -/
def layout : Decimal.Layout := ⟨some (-5, 15), .even⟩

def Number.found : Number → Document.Found
  | .integer value => .integer value
  | .double bits => .floating (layout.render bits)

/-- Takes digits into a number while it stays a count, and gives the digits that were left over. -/
def absorb : Nat → List Char → Nat × List Char
  | value, [] => (value, [])
  | value, c :: rest =>
    let next := value * 10 + (c.toNat - '0'.toNat)
    if next ≤ maxCount then absorb next rest else (value, c :: rest)

/-- Divides by a power of ten, in steps that doubles hold. -/
def scaleDown (x : Float) (power : Nat) : Float :=
  if power ≤ 308 then x / Float.ofScientific 1 false power
  else if x == 0 then x
  else scaleDown (x / 1e308) (power - 308)
termination_by power
decreasing_by omega

/-- The double `value * 10 ^ power`, if it is finite. -/
def scale? (value : Nat) (power : Int) : Option Float :=
  let x := Float.ofNat value
  if power < 0 then some (scaleDown x power.natAbs)
  else if x == 0 then some x
  else if 308 < power then none
  else
    let scaled := x * Float.ofScientific 1 false power.natAbs
    if scaled.isInf then none else some scaled

def Exponent.value (e : Exponent) : Int :=
  let size := Int.ofNat ((Numeral.natural? 10 e.digits).getD 0)
  if e.negative? = some true then -size else size

def Literal.double? (n : Literal) : Option UInt64 :=
  let (whole, wholeLeft) := absorb 0 n.whole
  let fraction := n.fraction.getD []
  let (value, fractionLeft) := absorb whole fraction
  let taken := fraction.length - fractionLeft.length
  let power := wholeLeft.length - taken + (n.exponent.map Exponent.value).getD 0
  (scale? value power).map fun x => (if n.negative then -x else x).toBits

/-- The integer that a number writes, if it is written as one and is in range. -/
def Literal.integer? (n : Literal) : Option Int :=
  match n.fraction, n.exponent, Numeral.natural? 10 n.whole with
  | none, none, some value =>
    if n.negative then
      if 0 < value ∧ value ≤ minQuantity.natAbs then some (-Int.ofNat value) else none
    else if value ≤ maxCount then some (Int.ofNat value) else none
  | _, _, _ => none

def Literal.value? (n : Literal) : Option Number :=
  match n.integer? with
  | some value => some (.integer value)
  | none => n.double?.map .double

end Json
end PackPlan
