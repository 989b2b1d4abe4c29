import PackPlan.Json.Writer
import PackPlan.Text.Quoted

/-!
# PackPlan.SizeSet

Sets of pack sizes. A set is held as its strictly descending list, largest first, so two sets are
equal exactly when they hold the same sizes. `SizeSet.ofList` refuses a size that is not positive,
`SizeSet.ofPositives?` leaves it out; what they keep is the same where nothing is refused
(`SizeSet.positivesFrom_eq_ok`). Neither makes an empty set.
-/

namespace PackPlan

/-! ## Descending lists -/

theorem eraseReps_loop (size : Nat) (sizes acc : List Nat) :
    List.eraseRepsBy.loop (· == ·) size sizes acc =
      acc.reverse ++ List.eraseRepsBy.loop (· == ·) size sizes [] := by
  induction sizes generalizing size acc with
  | nil => simp [List.eraseRepsBy.loop]
  | cons next rest ih =>
    simp only [List.eraseRepsBy.loop]
    split
    · exact ih size acc
    · rw [ih next (size :: acc), ih next [size]]
      simp

theorem eraseReps_cons_cons (size next : Nat) (rest : List Nat) :
    (size :: next :: rest).eraseReps =
      if size = next then (next :: rest).eraseReps else size :: (next :: rest).eraseReps := by
  simp only [List.eraseReps, List.eraseRepsBy, List.eraseRepsBy.loop]
  by_cases h : size = next
  · subst h
    simp
  · rw [if_neg h, beq_false_of_ne h]
    exact eraseReps_loop next rest [size]

theorem mem_eraseReps {x : Nat} {sizes : List Nat} : x ∈ sizes.eraseReps ↔ x ∈ sizes := by
  match sizes with
  | [] => rfl
  | [size] => rfl
  | size :: next :: rest =>
    rw [eraseReps_cons_cons]
    have ih : x ∈ (next :: rest).eraseReps ↔ x ∈ next :: rest := mem_eraseReps
    split
    · next h => rw [ih, h]; simp
    · rw [List.mem_cons, ih, ← List.mem_cons]

theorem pairwise_eraseReps {sizes : List Nat} (h : sizes.Pairwise (· ≥ ·)) :
    sizes.eraseReps.Pairwise (· > ·) := by
  match sizes with
  | [] => exact .nil
  | [size] => exact List.pairwise_singleton ..
  | size :: next :: rest =>
    obtain ⟨hsize, hrest⟩ := List.pairwise_cons.1 h
    have ih : (next :: rest).eraseReps.Pairwise (· > ·) := pairwise_eraseReps hrest
    rw [eraseReps_cons_cons]
    split
    · exact ih
    · refine List.pairwise_cons.2 ⟨fun x hx => ?_, ih⟩
      have hx := mem_eraseReps.1 hx
      have hle := hsize next List.mem_cons_self
      rcases List.mem_cons.1 hx with rfl | hx
      · omega
      · have := (List.pairwise_cons.1 hrest).1 x hx
        omega

/-- The members of a list in strictly descending order: the list is sorted, and then of equal members
next to each other only the first is kept. -/
def descending (sizes : List Nat) : List Nat := (sizes.mergeSort fun a b => b ≤ a).eraseReps

@[simp] theorem mem_descending {x : Nat} {sizes : List Nat} : x ∈ descending sizes ↔ x ∈ sizes :=
  mem_eraseReps.trans List.mem_mergeSort

theorem pairwise_descending (sizes : List Nat) : (descending sizes).Pairwise (· > ·) := by
  have hsorted : (sizes.mergeSort fun a b => b ≤ a).Pairwise fun a b => decide (b ≤ a) = true := by
    refine List.pairwise_mergeSort ?_ ?_ sizes
    · intro a b c hab hbc
      simp only [decide_eq_true_eq] at *
      omega
    · intro a b
      simp only [Bool.or_eq_true, decide_eq_true_eq]
      omega
  exact pairwise_eraseReps (hsorted.imp of_decide_eq_true)

/-! ## Sets -/

/-- A set of positive pack sizes, largest first. -/
structure SizeSet where
  toList : List Nat
  ne_nil : toList ≠ []
  pairwise : toList.Pairwise (· > ·)
  pos : ∀ size ∈ toList, 0 < size
deriving DecidableEq

inductive SizeSetError where
  /-- There are no sizes. -/
  | empty
  /-- The first size that is zero or negative, and its position in the list as given. -/
  | nonPositive (position : Nat) (size : Int)
  /-- A part of a text that is not a number in range. -/
  | unreadable (part : List Char)
deriving DecidableEq

def SizeSetError.message : SizeSetError → String
  | .empty => "pack size set is empty"
  | .nonPositive position size =>
    "pack size " ++ toString size ++ " at position " ++ toString position ++ " is not positive"
  | .unreadable part => "invalid pack size: " ++ String.ofList (Text.quote part)

namespace SizeSet

/-- A size that a set can have. -/
abbrev Positive : Type := { size : Nat // 0 < size }

def Positive.ofInt? (size : Int) : Option Positive :=
  if h : 0 < size then some ⟨size.toNat, Int.pos_iff_toNat_pos.1 h⟩ else none

/-- The set of some sizes, if there are any. -/
def ofSizes? (sizes : List Positive) : Option SizeSet :=
  let kept := descending (sizes.map Subtype.val)
  if h : kept = [] then none
  else some {
    toList := kept
    ne_nil := h
    pairwise := pairwise_descending _
    pos := fun size hs => by
      obtain ⟨positive, -, rfl⟩ := List.mem_map.1 (mem_descending.1 hs)
      exact positive.2 }

/-- The set of the positive sizes in a list, whatever else the list holds. -/
def ofPositives? (sizes : List Int) : Option SizeSet :=
  ofSizes? (sizes.filterMap Positive.ofInt?)

/-- The sizes from a position on, up to the first one that is not positive. -/
def positivesFrom (position : Nat) : List Int → Except SizeSetError (List Positive)
  | [] => .ok []
  | size :: rest =>
    match Positive.ofInt? size with
    | none => .error (.nonPositive position size)
    | some positive => (positivesFrom (position + 1) rest).map (positive :: ·)

/-- The set of the sizes in a list, all of which have to be positive. -/
def ofList (sizes : List Int) : Except SizeSetError SizeSet :=
  match positivesFrom 0 sizes with
  | .error e => .error e
  | .ok positives =>
    match ofSizes? positives with
    | some set => .ok set
    | none => .error .empty

/-- The sizes in force where no others are configured. -/
def standard : SizeSet where
  toList := [5000, 2000, 1000, 500, 250]
  ne_nil := by decide
  pairwise := by decide
  pos := by decide

instance : Inhabited SizeSet := ⟨standard⟩

def size (s : SizeSet) : Nat := s.toList.length

/-- Whether there is no size, which a set never is. -/
def isEmpty (s : SizeSet) : Bool := s.toList.isEmpty

def largest (s : SizeSet) : Nat := s.toList.head s.ne_nil

def smallest (s : SizeSet) : Nat := s.toList.getLast s.ne_nil

def text (s : SizeSet) : String := ",".intercalate (s.toList.map toString)

def json (s : SizeSet) : String := Json.array (s.toList.map toString)

@[ext] theorem ext {s t : SizeSet} (h : s.toList = t.toList) : s = t := by
  cases s; cases t; simp_all

@[simp] theorem isEmpty_eq_false (s : SizeSet) : s.isEmpty = false := by
  cases hs : s.toList with
  | nil => exact absurd hs s.ne_nil
  | cons first rest => simp [isEmpty, hs]

theorem Positive.ofInt?_eq_some {size : Int} {positive : Positive} :
    ofInt? size = some positive ↔ size = (positive.1 : Int) := by
  have hpos := positive.2
  rw [ofInt?]
  split
  · rw [Option.some.injEq, Subtype.ext_iff]
    show size.toNat = positive.1 ↔ size = (positive.1 : Int)
    omega
  · refine iff_of_false nofun ?_
    omega

theorem Positive.ofInt?_eq_none {size : Int} : ofInt? size = none ↔ size ≤ 0 := by
  rw [ofInt?]
  split
  · refine iff_of_false nofun ?_
    omega
  · refine iff_of_true rfl ?_
    omega

theorem toList_of_ofSizes? {sizes : List Positive} {s : SizeSet} (h : ofSizes? sizes = some s) :
    s.toList = descending (sizes.map Subtype.val) := by
  simp only [ofSizes?] at h
  split at h
  · cases h
  · cases h; rfl

theorem ofSizes?_eq_none {sizes : List Positive} : ofSizes? sizes = none ↔ sizes = [] := by
  have hmem : descending (sizes.map Subtype.val) = [] ↔ sizes = [] := by
    simp only [List.eq_nil_iff_forall_not_mem, mem_descending, List.mem_map]
    grind
  simp only [ofSizes?]
  split
  · next h => exact iff_of_true rfl (hmem.1 h)
  · next h => exact iff_of_false nofun (mt hmem.2 h)

/-- Membership in the set made from a list is membership in the list, for positive sizes. -/
theorem mem_ofPositives? {sizes : List Int} {s : SizeSet} (h : ofPositives? sizes = some s)
    {x : Nat} : x ∈ s.toList ↔ (x : Int) ∈ sizes ∧ 0 < x := by
  rw [toList_of_ofSizes? h, mem_descending, List.mem_map]
  simp only [List.mem_filterMap, Positive.ofInt?_eq_some]
  constructor
  · rintro ⟨positive, ⟨size, hm, rfl⟩, rfl⟩
    exact ⟨hm, positive.2⟩
  · rintro ⟨hm, hpos⟩
    exact ⟨⟨x, hpos⟩, ⟨x, hm, rfl⟩, rfl⟩

theorem ofPositives?_eq_none {sizes : List Int} : ofPositives? sizes = none ↔ ∀ x ∈ sizes, x ≤ 0 := by
  simp only [ofPositives?, ofSizes?_eq_none, List.filterMap_eq_nil_iff, Positive.ofInt?_eq_none]

/-- Where nothing is refused, nothing is left out. -/
theorem positivesFrom_eq_ok {sizes : List Int} {positives : List Positive} {position : Nat} :
    positivesFrom position sizes = .ok positives ↔
      (∀ size ∈ sizes, 0 < size) ∧ sizes.filterMap Positive.ofInt? = positives := by
  induction sizes generalizing position positives with
  | nil => simp [positivesFrom]
  | cons size rest ih =>
    rw [positivesFrom, List.forall_mem_cons, List.filterMap_cons]
    cases hs : Positive.ofInt? size with
    | none =>
      have hle := Positive.ofInt?_eq_none.1 hs
      exact iff_of_false nofun fun h => absurd h.1.1 (by omega)
    | some positive =>
      have hpos : 0 < size := by
        have hsize := Positive.ofInt?_eq_some.1 hs
        have := positive.2
        omega
      cases hrest : positivesFrom (position + 1) rest with
      | error e =>
        refine iff_of_false nofun fun h => ?_
        rw [ih.2 ⟨h.1.2, rfl⟩] at hrest
        cases hrest
      | ok others =>
        obtain ⟨hall, rfl⟩ := ih.1 hrest
        simp only [Except.map, Except.ok.injEq, and_iff_right (And.intro hpos hall)]

theorem toList_eq_cons (s : SizeSet) : s.toList = s.largest :: s.toList.tail :=
  (List.cons_head_tail s.ne_nil).symm

theorem largest_pos (s : SizeSet) : 0 < s.largest := s.pos s.largest (List.head_mem s.ne_nil)

theorem smallest_pos (s : SizeSet) : 0 < s.smallest := s.pos s.smallest (List.getLast_mem s.ne_nil)

theorem le_largest (s : SizeSet) {size : Nat} (h : size ∈ s.toList) : size ≤ s.largest := by
  have hdesc := s.pairwise
  rw [toList_eq_cons] at h hdesc
  rcases List.mem_cons.1 h with rfl | htail
  · exact Nat.le_refl _
  · exact Nat.le_of_lt ((List.pairwise_cons.1 hdesc).1 size htail)

theorem smallest_le (s : SizeSet) {size : Nat} (h : size ∈ s.toList) : s.smallest ≤ size := by
  have hdesc := s.pairwise
  rw [← List.dropLast_concat_getLast s.ne_nil] at h hdesc
  rcases List.mem_append.1 h with hfront | hend
  · exact Nat.le_of_lt ((List.pairwise_append.1 hdesc).2.2 size hfront s.smallest
      (List.mem_singleton.2 rfl))
  · rw [List.mem_singleton.1 hend]
    exact Nat.le_refl _

/-- There are at most as many different positive sizes as the largest of them. -/
theorem size_le_largest (s : SizeSet) : s.size ≤ s.largest := by
  have bound : ∀ (rest : List Nat) (first : Nat), (first :: rest).Pairwise (· > ·) →
      (∀ x ∈ first :: rest, 0 < x) → (first :: rest).length ≤ first := by
    intro rest
    induction rest with
    | nil => intro first _ hpos; exact hpos first (List.mem_singleton.2 rfl)
    | cons next rest ih =>
      intro first hdesc hpos
      rw [List.pairwise_cons] at hdesc
      have hlt : first > next := hdesc.1 next (List.mem_cons_self ..)
      have hlen := ih next hdesc.2 fun x hx => hpos x (List.mem_cons_of_mem _ hx)
      simp only [List.length_cons] at hlen ⊢
      omega
  have hdesc := s.pairwise
  have hpos := s.pos
  rw [size]
  rw [toList_eq_cons] at hdesc hpos ⊢
  exact bound _ _ hdesc hpos

end SizeSet
end PackPlan
