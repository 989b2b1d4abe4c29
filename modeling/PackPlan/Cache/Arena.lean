/-!
# PackPlan.Cache.Arena

Slots that values are put into and taken out of, under keys that stay good until the value is taken
out. A slot that was freed is used again before a new one is made. The view of an arena is `get?`:
each operation has a lemma that says what it does to it.
-/

namespace PackPlan

/-- Slots, some of them free. -/
structure Arena (α : Type) where
  slots : Array (Option α)
  free : List Nat
  free_vacant : ∀ key ∈ free, slots[key]? = some none
  free_nodup : free.Nodup

namespace Arena

variable {α : Type}

def empty : Arena α := ⟨#[], [], by simp, by simp⟩

def get? (a : Arena α) (key : Nat) : Option α := (a.slots[key]?).join

/-- The keys in use, in the order of their slots. -/
def keys (a : Arena α) : List Nat :=
  (List.range a.slots.size).filter fun key => (a.get? key).isSome

def size (a : Arena α) : Nat := a.keys.length

def nextKey (a : Arena α) : Nat := a.free.headD a.slots.size

def insert (a : Arena α) (x : α) : Arena α :=
  match h : a.free with
  | [] => ⟨a.slots.push (some x), [], by simp, by simp⟩
  | key :: rest =>
    { slots := a.slots.setIfInBounds key (some x)
      free := rest
      free_vacant := fun other ho => by
        have hnd := a.free_nodup
        rw [h, List.nodup_cons] at hnd
        have hne : key ≠ other := fun e => hnd.1 (e ▸ ho)
        rw [Array.getElem?_setIfInBounds_ne hne]
        exact a.free_vacant other (by rw [h]; exact List.mem_cons_of_mem _ ho)
      free_nodup := by
        have hnd := a.free_nodup
        rw [h, List.nodup_cons] at hnd
        exact hnd.2 }

def modify (a : Arena α) (key : Nat) (f : α → α) : Arena α where
  slots := a.slots.modify key (Option.map f)
  free := a.free
  free_vacant := fun other ho => by
    have := a.free_vacant other ho
    rw [Array.getElem?_modify]
    split <;> simp_all
  free_nodup := a.free_nodup

def remove (a : Arena α) (key : Nat) : Arena α :=
  if h : (a.get? key).isSome then
    { slots := a.slots.setIfInBounds key none
      free := key :: a.free
      free_vacant := fun other ho => by
        by_cases hk : key = other
        · subst hk
          have : key < a.slots.size := by
            by_cases hlt : key < a.slots.size
            · exact hlt
            · simp [get?, Array.getElem?_eq_none (Nat.le_of_not_lt hlt)] at h
          simp [this]
        · rw [Array.getElem?_setIfInBounds_ne hk]
          exact a.free_vacant other ((List.mem_cons.1 ho).resolve_left fun e => hk e.symm)
      free_nodup := by
        refine List.nodup_cons.2 ⟨fun hm => ?_, a.free_nodup⟩
        simp [get?, a.free_vacant key hm] at h }
  else a

@[simp] theorem get?_empty (key : Nat) : (empty : Arena α).get? key = none := by
  simp [empty, get?]

/-- The next key is not in use. -/
theorem get?_nextKey (a : Arena α) : a.get? a.nextKey = none := by
  simp only [nextKey, get?]
  match h : a.free with
  | [] => simp
  | key :: rest => simp [a.free_vacant key (by simp [h])]

theorem get?_insert (a : Arena α) (x : α) (key : Nat) :
    (a.insert x).get? key = if key = a.nextKey then some x else a.get? key := by
  unfold insert
  split
  · next h =>
    simp only [get?, nextKey, h, List.headD_nil, Array.getElem?_push]
    by_cases hk : key = a.slots.size <;> simp [hk]
  · next first rest h =>
    simp only [get?, nextKey, h, List.headD_cons]
    by_cases hk : key = first
    · subst hk
      have hv := a.free_vacant key (by simp [h])
      have hlt : key < a.slots.size := by
        by_cases hlt : key < a.slots.size
        · exact hlt
        · rw [Array.getElem?_eq_none (Nat.le_of_not_lt hlt)] at hv; simp at hv
      simp [hlt]
    · rw [Array.getElem?_setIfInBounds_ne (fun e => hk e.symm)]
      simp [hk]

theorem get?_modify (a : Arena α) (key : Nat) (f : α → α) (other : Nat) :
    (a.modify key f).get? other = if key = other then (a.get? other).map f else a.get? other := by
  simp only [get?, modify, Array.getElem?_modify]
  split
  · cases a.slots[other]? with
    | none => rfl
    | some x => cases x <;> rfl
  · rfl

theorem get?_remove (a : Arena α) (key other : Nat) :
    (a.remove key).get? other = if key = other then none else a.get? other := by
  unfold remove
  split
  · next h =>
    simp only [get?]
    by_cases hk : key = other
    · subst hk
      by_cases hlt : key < a.slots.size <;> simp [hlt]
    · rw [Array.getElem?_setIfInBounds_ne hk]; simp [hk]
  · next h =>
    by_cases hk : key = other
    · subst hk; simpa using h
    · simp [hk]

theorem mem_keys {a : Arena α} {key : Nat} : key ∈ a.keys ↔ (a.get? key).isSome = true := by
  simp only [keys, List.mem_filter, List.mem_range, and_iff_right_iff_imp]
  intro h
  by_cases hlt : key < a.slots.size
  · exact hlt
  · simp [get?, Array.getElem?_eq_none (Nat.le_of_not_lt hlt)] at h

theorem nodup_keys (a : Arena α) : a.keys.Nodup := List.nodup_range.filter _

end Arena
end PackPlan
