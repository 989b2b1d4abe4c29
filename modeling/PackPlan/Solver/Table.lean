import PackPlan.Numeral
import PackPlan.Solver.Error

/-!
# PackPlan.Solver.Table

The table of fewest packs. For each total from zero up to a ceiling it holds how many packs make up
exactly that total, as few as possible, and the position of the size to take off first on the way
back to zero. Cells are 32 bits wide and the largest value stands for "none".

The table grows by one total at a time (`Table.grow`): a row looks only at rows below it. Sizes are
tried in the order of their list and only a strictly smaller number of packs replaces a choice, so
of equally good sizes the one listed first is recorded.
-/

namespace PackPlan

/-- The value of a cell that holds nothing. -/
def vacant : Nat := 0xffffffff

/-- Fewest packs, and the position of the size to take off, for each total from zero. -/
structure Table where
  counts : Array Nat
  choices : Array Nat
deriving DecidableEq, Repr

namespace Table

/-- The table of the total zero, which no packs make up. -/
def zero : Table := ⟨#[0], #[vacant]⟩

/-- The best count and choice for a total, after those of the sizes before position `i`. -/
def best (counts : Array Nat) (total : Nat) : List Nat → Nat → Nat → Nat → Nat × Nat
  | [], _, count, choice => (count, choice)
  | size :: rest, i, count, choice =>
    if size ≤ total then
      let candidate := counts.getD (total - size) vacant + 1
      if candidate < count then best counts total rest (i + 1) candidate i
      else best counts total rest (i + 1) count choice
    else best counts total rest (i + 1) count choice

def grow (sizes : List Nat) (t : Table) : Except Fault Table :=
  match best t.counts t.counts.size sizes 0 vacant vacant with
  | (count, choice) =>
    if choice ≤ vacant then .ok ⟨t.counts.push count, t.choices.push choice⟩
    else .error .positionTooLarge

def growBy (sizes : List Nat) : Nat → Table → Except Fault Table
  | 0, t => .ok t
  | n + 1, t =>
    match grow sizes t with
    | .error f => .error f
    | .ok t => growBy sizes n t

/-- The table for the totals up to a ceiling. Room is taken as given: at four bytes a cell a machine of
64 bits has none for ceilings from 2^61 - 1 on, and breaks off where this goes on. -/
def build (sizes : List Nat) (ceiling : Nat) : Except Fault Table :=
  if ceiling < maxCount then growBy sizes ceiling zero else .error .tableTooLong

def cell? (cells : Array Nat) (total : Nat) : Option Nat :=
  let value := cells.getD total vacant
  if value = vacant then none else some value

/-- The fewest packs that make up a total, if any do. -/
def minPacks? (t : Table) (total : Nat) : Option Nat := cell? t.counts total

/-- The position of the size recorded for a total. -/
def choice? (t : Table) (total : Nat) : Option Nat := cell? t.choices total

def isReachable (t : Table) (total : Nat) : Bool := (t.minPacks? total).isSome

/-- The first total from `start` on that can be made up. -/
def firstFrom? (t : Table) (start : Nat) : Option Nat :=
  if start < t.counts.size then
    if t.isReachable start then some start else firstFrom? t (start + 1)
  else none
termination_by t.counts.size - start

def setCount (t : Table) (total : Nat) (value : Option Nat) : Table :=
  { t with counts := t.counts.setIfInBounds total (value.getD vacant) }

def setChoice (t : Table) (total : Nat) (value : Option Nat) : Table :=
  { t with choices := t.choices.setIfInBounds total (value.getD vacant) }

end Table
end PackPlan
