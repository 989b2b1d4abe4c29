/-!
# PackPlan.Decimal.Shortest

The shortest decimal that reads back as a given double. A positive double is `m * 2 ^ q`; the reals
that round to it form an interval, whose ends belong to it exactly when `m` is even. For one digit,
two digits and so on, the two neighbours of the double on the grid of decimals with so many digits
are tried; the first grid with a neighbour inside the interval wins, and of two neighbours the
nearer. Seventeen digits always suffice.
-/

namespace PackPlan
namespace Decimal

/-- The number `significand * 2 ^ exponent`. -/
structure Binary where
  significand : Nat
  exponent : Int
deriving DecidableEq, Repr

/-- The number `digits * 10 ^ exponent`. -/
structure Scaled where
  digits : Nat
  exponent : Int
deriving DecidableEq, Repr

/-- Two to the power of 52, the leading bit that a double leaves out. -/
def leadingBit : Nat := 0x10000000000000

/-- The size of a finite double, without its sign. -/
def Binary.ofBits (bits : UInt64) : Binary :=
  let n := bits.toNat
  let fraction := n % leadingBit
  let biased := n / leadingBit % 0x800
  if biased = 0 then ⟨fraction, -1074⟩ else ⟨fraction + leadingBit, Int.ofNat biased - 1075⟩

structure Ratio where
  num : Nat
  den : Nat

/-- The fraction `n * 2 ^ e`. -/
def Ratio.ofBinary (n : Nat) (e : Int) : Ratio :=
  if 0 ≤ e then ⟨n <<< e.toNat, 1⟩ else ⟨n, 1 <<< (-e).toNat⟩

/-- The fraction `n * 10 ^ e`. -/
def Ratio.ofDecimal (n : Nat) (e : Int) : Ratio :=
  if 0 ≤ e then ⟨n * Nat.pow 10 e.toNat, 1⟩ else ⟨n, Nat.pow 10 (-e).toNat⟩

/-- Less than, by cross multiplication. -/
def Ratio.lt (a b : Ratio) : Bool := a.num * b.den < b.num * a.den

/-- Whole part of a fraction divided by `10 ^ e`. -/
def Ratio.floorDiv (a : Ratio) (e : Int) : Nat :=
  if 0 ≤ e then a.num / (a.den * Nat.pow 10 e.toNat) else a.num * Nat.pow 10 (-e).toNat / a.den

/-- The power of ten of the leading digit of a positive fraction, searched from `e` on downwards. -/
def Ratio.leadingPower (a : Ratio) : Nat → Int → Int
  | 0, e => e
  | fuel + 1, e => if a.lt (.ofDecimal 1 e) then leadingPower a fuel (e - 1) else e

/-- The reals that round to `m * 2 ^ q`: their bounds, and whether these belong to them. -/
structure Rounding where
  low : Ratio
  high : Ratio
  closed : Bool

/-- The rounding interval of a positive double. Below a power of two the gap is half as wide. -/
def Rounding.ofBinary (b : Binary) : Rounding :=
  let m := b.significand
  let below := if m = leadingBit ∧ -1074 < b.exponent then 1 else 2
  { low := .ofBinary (4 * m - below) (b.exponent - 2)
    high := .ofBinary (4 * m + 2) (b.exponent - 2)
    closed := m % 2 == 0 }

def Rounding.holds (r : Rounding) (x : Ratio) : Bool :=
  if r.closed then !x.lt r.low && !r.high.lt x else r.low.lt x && x.lt r.high

/-- Which of two decimals is taken that are equally near. -/
inductive Tie where
  /-- The one with the even last digit. -/
  | even
  /-- The larger one. -/
  | above
deriving DecidableEq, Repr

/-- Whether the decimal above `d` is taken in a tie. -/
def Tie.goesAbove (t : Tie) (d : Nat) : Bool :=
  match t with
  | .even => d % 2 == 1
  | .above => true

/-- Whether `x`, which lies between `d * 10 ^ e` and the next multiple of `10 ^ e`, goes to the
latter. -/
def nearerAbove (t : Tie) (x : Ratio) (d : Nat) (e : Int) : Bool :=
  let middle := Ratio.ofDecimal (10 * d + 5) (e - 1)
  if middle.lt x then true else if x.lt middle then false else t.goesAbove d

/-- The better neighbour on the grid of multiples of `10 ^ e` that reads back, if one does. -/
def onGrid? (t : Tie) (r : Rounding) (x : Ratio) (e : Int) : Option Scaled :=
  let d := x.floorDiv e
  let below := r.holds (.ofDecimal d e)
  let above := r.holds (.ofDecimal (d + 1) e)
  if below && above then some ⟨if nearerAbove t x d e then d + 1 else d, e⟩
  else if below then some ⟨d, e⟩
  else if above then some ⟨d + 1, e⟩
  else none

def trimZeros : Nat → Scaled → Scaled
  | 0, d => d
  | fuel + 1, d =>
    if d.digits ≠ 0 ∧ d.digits % 10 = 0 then trimZeros fuel ⟨d.digits / 10, d.exponent + 1⟩ else d

/-- The shortest decimal that reads back as a double, nearest to it among those. -/
def shortest (t : Tie) (b : Binary) : Scaled :=
  if b.significand = 0 then ⟨0, 0⟩
  else
    let x := Ratio.ofBinary b.significand b.exponent
    let r := Rounding.ofBinary b
    let power := x.leadingPower 640 309
    let found := (List.range 17).findSome? fun n => onGrid? t r x (power - Int.ofNat n)
    trimZeros 20 (found.getD ⟨x.floorDiv (power - 16), power - 16⟩)

/-- How a decimal is laid out. The power of ten of its leading digit decides between positions and
an exponent, which has a sign. -/
structure Layout where
  /-- The smallest and largest power written in positions; none if every number is. -/
  positional : Option (Int × Int)
  /-- The decimal that is taken of two. -/
  tie : Tie

def Scaled.text (d : Scaled) : List Char := Nat.toDigits 10 d.digits

def Scaled.leading (d : Scaled) : Int := d.exponent + d.text.length - 1

/-- The decimal in positions, with at least one digit on either side of the point. -/
def Scaled.positional (d : Scaled) : List Char :=
  let ds := d.text
  let whole := d.leading + 1
  if 0 ≤ d.exponent then ds ++ List.replicate d.exponent.toNat '0' ++ ['.', '0']
  else if 0 < whole then ds.take whole.toNat ++ '.' :: ds.drop whole.toNat
  else '0' :: '.' :: List.replicate (-whole).toNat '0' ++ ds

/-- The decimal with one digit before the point, if it needs one, and a signed exponent. -/
def Scaled.scientific (d : Scaled) : List Char :=
  let mantissa :=
    match d.text with
    | first :: second :: rest => first :: '.' :: second :: rest
    | ds => ds
  let sign := if d.leading < 0 then '-' else '+'
  mantissa ++ 'e' :: sign :: Nat.toDigits 10 d.leading.natAbs

def Layout.render (l : Layout) (bits : UInt64) : String :=
  let d := shortest l.tie (.ofBits bits)
  let sign := if bits.toNat < 0x8000000000000000 then [] else ['-']
  let size :=
    match l.positional with
    | none => d.positional
    | some (lowest, highest) =>
      if d.digits = 0 ∨ (lowest ≤ d.leading ∧ d.leading ≤ highest) then d.positional
      else d.scientific
  String.ofList (sign ++ size)

end Decimal
end PackPlan
