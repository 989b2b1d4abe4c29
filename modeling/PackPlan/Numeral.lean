/-!
# PackPlan.Numeral

The ranges of the numbers in orders, size sets and shipments, and reading whole numbers from their
digits.

A quantity is a signed 64-bit number and may be negative; a size, a count and a total are unsigned
64-bit numbers. Inside the library both are unbounded (`Int` and `Nat`), and each place where a bound
shows names it.

`natural?` reads an unsigned numeral in a base up to sixteen, `quantity?` a decimal one with an
optional sign, in the range of a quantity. `isReal` only tells whether a text writes a number, which
may have a fraction. Digits are the ASCII ones only.
-/

namespace PackPlan

/-! ## Ranges -/

/-- The largest size, count or total. -/
def maxCount : Nat := 0xffffffffffffffff

def maxQuantity : Int := 0x7fffffffffffffff

def minQuantity : Int := -0x8000000000000000

/-- A quantity is in range when 64 bits with a sign hold it. -/
def IsQuantity (q : Int) : Prop := minQuantity ≤ q ∧ q ≤ maxQuantity

instance (q : Int) : Decidable (IsQuantity q) := inferInstanceAs (Decidable (_ ∧ _))

/-- A count that does not fit is replaced by the largest one. -/
def clampCount (n : Nat) : Nat := min n maxCount

theorem clampCount_of_le {n : Nat} (h : n ≤ maxCount) : clampCount n = n := Nat.min_eq_left h

theorem clampCount_le (n : Nat) : clampCount n ≤ maxCount := Nat.min_le_right n maxCount

/-! ## Numerals -/

namespace Numeral

/-- The value of a digit, letters of either case counting from ten. -/
def digitValue? (c : Char) : Option Nat :=
  if '0' ≤ c ∧ c ≤ '9' then some (c.toNat - '0'.toNat)
  else if 'a' ≤ c ∧ c ≤ 'f' then some (c.toNat - 'a'.toNat + 10)
  else if 'A' ≤ c ∧ c ≤ 'F' then some (c.toNat - 'A'.toNat + 10)
  else none

def digit? (base : Nat) (c : Char) : Option Nat :=
  (digitValue? c).filter (· < base)

def extend? (base : Nat) : Nat → List Char → Option Nat
  | value, [] => some value
  | value, c :: rest =>
    match digit? base c with
    | some d => extend? base (value * base + d) rest
    | none => none

/-- An unsigned numeral: at least one digit and nothing else. -/
def natural? (base : Nat) : List Char → Option Nat
  | [] => none
  | cs => extend? base 0 cs

/-- A numeral with an optional sign. -/
def integer? (base : Nat) : List Char → Option Int
  | '+' :: digits => (natural? base digits).map Int.ofNat
  | '-' :: digits => (natural? base digits).map fun n => -Int.ofNat n
  | digits => (natural? base digits).map Int.ofNat

def quantity? (cs : List Char) : Option Int :=
  (integer? 10 cs).filter fun q => decide (IsQuantity q)

def isExponent : List Char → Bool
  | [] => true
  | c :: rest => (c == 'e' || c == 'E') && (integer? 10 rest).isSome

/-- Whether a text writes a number without sign: digits with a point before, between or after them
and an exponent, the latter two if need be. -/
def isSize (cs : List Char) : Bool :=
  let (whole, rest) := cs.span Char.isDigit
  let (fraction, rest) :=
    match rest with
    | '.' :: rest => rest.span Char.isDigit
    | rest => ([], rest)
  !(whole.isEmpty && fraction.isEmpty) && isExponent rest

/-- The words for what is no finite number. -/
def isUnbounded (cs : List Char) : Bool :=
  ["inf", "infinity", "nan"].contains (String.ofList (cs.map Char.toLower))

/-- Whether a text writes a number with an optional sign. -/
def isReal (cs : List Char) : Bool :=
  match cs with
  | '+' :: size => isSize size || isUnbounded size
  | '-' :: size => isSize size || isUnbounded size
  | size => isSize size || isUnbounded size

end Numeral
end PackPlan
