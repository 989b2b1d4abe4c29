import PackPlan.Json.Reader

/-!
# PackPlan.Proofs.Json.Reader

What every value that was read satisfies. An integer lies between its bounds, the items of a list
have what the reader of an item promises, and a record has what each of its fields keeps.
-/

namespace PackPlan
namespace Json

theorem integer_ok {type : String} {low high : Int} {ts rest : List Placed} {value : Int}
    (h : integer type low high ts = .ok (value, rest)) : low ≤ value ∧ value ≤ high := by
  cases ts with
  | nil => cases h
  | cons t ts =>
    simp only [integer] at h
    split at h
    · split at h
      · cases h
      · split at h
        · rename_i hrange; cases h; exact hrange
        · cases h
      · cases h
    · cases h

section List

variable {α : Type} {read : Reader α} {P : α → Prop}

theorem items_ok (hread : ∀ ts x rest, read ts = .ok (x, rest) → P x) :
    ∀ (fuel : Nat) (ts : List Placed) (xs : List α) (rest : List Placed),
      items read fuel ts = .ok (xs, rest) → ∀ x ∈ xs, P x := by
  intro fuel
  induction fuel with
  | zero => intro ts xs rest h; cases h
  | succ fuel ih =>
    intro ts xs rest h
    simp only [items] at h
    split at h
    · cases h
    · -- the last item
      rename_i item _ _ hitem; cases h
      intro x hx
      rw [List.mem_singleton] at hx
      subst hx
      exact hread _ _ _ hitem
    · cases h
    · rename_i item _ _ _ hitem
      split at h
      · cases h
      · rename_i others _ hothers; cases h
        intro x hx
        rcases List.mem_cons.1 hx with rfl | hx
        · exact hread _ _ _ hitem
        · exact ih _ _ _ hothers x hx
    · cases h

theorem list_ok (hread : ∀ ts x rest, read ts = .ok (x, rest) → P x) {ts rest : List Placed}
    {xs : List α} (h : list read ts = .ok (xs, rest)) : ∀ x ∈ xs, P x := by
  simp only [list] at h
  split at h
  · cases h; simp
  · exact items_ok hread _ _ _ _ h
  · cases h

end List

/-! ## Records -/

section Record

open Document

variable {σ α : Type} {r : Record σ α} {P : σ → Prop} {Q : α → Prop}

/-- A field keeps what holds of the fields before it. -/
def Field.Keeps (f : Field σ) (P : σ → Prop) : Prop :=
  ∀ state ts state' rest, P state → f.read state ts = .ok (.ok state', rest) → P state'

theorem Field.plain_keeps {name : String} {given : σ → Bool} {read : Reader α} {put : σ → α → σ}
    (h : ∀ state ts x rest, P state → read ts = .ok (x, rest) → P (put state x)) :
    (Field.plain name given read put).Keeps P := by
  intro state ts state' rest hp hr
  simp only [Field.plain] at hr
  split at hr
  · cases hr
  · rename_i x left hx; cases hr
    exact h state ts x _ hp hx

/-- What has to hold of a record's ends, so that all it reads satisfies `Q`. -/
structure Record.Yields (r : Record σ α) (P : σ → Prop) (Q : α → Prop) : Prop where
  blank : P r.blank
  fields : ∀ f ∈ r.fields, f.Keeps P
  object : ∀ state a, P state → r.ofObject state = .ok a → Q a
  list : ∀ n state a, P state → r.ofList n state = .ok a → Q a

theorem Record.member_ok (hy : r.Yields P Q) {state state' : σ} {name : List Char}
    {ts rest : List Placed} (hp : P state) (h : r.member state name ts = .ok (state', rest)) :
    P state' := by
  simp only [Record.member] at h
  split at h
  · -- a name that is no field leaves the state as it is
    split at h
    · cases h
    · split at h
      · split at h
        · cases h
        · cases h; exact hp
      · cases h
  · rename_i f hf
    split at h
    · cases h
    · split at h
      · split at h
        · cases h
        · cases h
        · rename_i hread; cases h
          exact hy.fields f (List.mem_of_find?_eq_some hf) _ _ _ _ hp hread
      · cases h

theorem Record.members_ok (hy : r.Yields P Q) {fuel : Nat} {state : σ} {ts rest : List Placed}
    {a : α} (hp : P state) (h : r.members fuel state ts = .ok (a, rest)) : Q a := by
  fun_induction Record.members r fuel state ts with
  | case5 fuel state pieces _ after name _ state' p left hm record ho =>
    cases h
    exact hy.object _ _ (member_ok hy hp hm) ho
  | case6 fuel state pieces _ after name _ state' _ left hm ih => exact ih (member_ok hy hp hm) h
  | _ => cases h

theorem Record.entries_ok (hy : r.Yields P Q) {fields : List (Field σ)} {n : Nat} {state : σ}
    {ts rest : List Placed} {a : α} (hmem : ∀ f ∈ fields, f ∈ r.fields) (hp : P state)
    (h : r.entries fields n state ts = .ok (a, rest)) : Q a := by
  fun_induction Record.entries r fields n state ts with
  | case1 => cases h
  | case2 fields n state _ _ record ho => cases h; exact hy.list _ _ _ hp ho
  | case3 => cases h
  | case4 => cases h
  | case5 => cases h
  | case6 => cases h
  | case7 field fields n state ts _ more _ state' left hread ih =>
    refine ih (fun f hf => hmem f (List.mem_cons_of_mem _ hf)) ?_ h
    exact hy.fields field (hmem field (List.mem_cons_self ..)) _ _ _ _ hp hread

theorem Record.read_ok (hy : r.Yields P Q) {ts rest : List Placed} {a : α}
    (h : r.read ts = .ok (a, rest)) : Q a := by
  simp only [Record.read] at h
  split at h
  · split at h
    · cases h
    · rename_i record ho; cases h
      exact hy.object _ _ hy.blank ho
  · exact members_ok hy hy.blank h
  · exact entries_ok hy (fun _ hf => hf) hy.blank h
  · cases h

theorem decode_ok {read : Reader α} (hread : ∀ ts a rest, read ts = .ok (a, rest) → Q a)
    {text : String} {a : α} (h : decode read text = .ok a) : Q a := by
  simp only [decode] at h
  split at h
  · cases h
  · rename_i value _ hv; cases h
    exact hread _ _ _ hv
  · cases h

end Record
end Json
end PackPlan
