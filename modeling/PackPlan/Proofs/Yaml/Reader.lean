import PackPlan.Yaml.Reader

/-!
# PackPlan.Proofs.Yaml.Reader

What every value that was read from a document satisfies: a quantity is in range, the items of a list
have what the reader of an item promises, and a record has what each of its fields keeps.
-/

namespace PackPlan
namespace Yaml

theorem quantity_ok {t : Tree} {path : Path} {n : Node} {q : Int}
    (h : quantity t path n = .ok q) : IsQuantity q := by
  simp only [quantity] at h
  split at h
  · split at h
    · rename_i found hq; cases h
      split at hq
      · exact of_decide_eq_true (Option.filter_eq_some_iff.1 hq).2
      · cases hq
    · cases h
  · cases h

section List

variable {α : Type} {read : Reader α} {P : α → Prop} {t : Tree}

theorem items_ok (hread : ∀ path n x, read t path n = .ok x → P x) {path : Path} {i : Nat}
    {nodes : List Node} {xs : List α} (h : items read t path i nodes = .ok xs) :
    ∀ x ∈ xs, P x := by
  induction nodes generalizing i xs with
  | nil => cases h; simp
  | cons n rest ih =>
    simp only [items] at h
    split at h
    · cases h
    · rename_i item hitem
      split at h
      · cases h
      · rename_i others hothers; cases h
        intro x hx
        rcases List.mem_cons.1 hx with rfl | hx
        · exact hread _ _ _ hitem
        · exact ih hothers x hx

theorem mapError_eq_ok {ε ε' β : Type} {f : ε → ε'} {r : Except ε β} {b : β}
    (h : r.mapError f = .ok b) : r = .ok b := by
  cases r with
  | error e => cases h
  | ok x => cases h; rfl

theorem list_ok (hread : ∀ path n x, read t path n = .ok x → P x) {path : Path} {n : Node}
    {xs : List α} (h : list read t path n = .ok xs) : ∀ x ∈ xs, P x := by
  simp only [list] at h
  split at h
  · exact items_ok hread (mapError_eq_ok h)
  · split at h
    · cases h; simp
    · cases h
  · cases h

end List

/-! ## Records -/

section Record

variable {σ α : Type} {r : Record σ α} {P : σ → Prop} {t : Tree}

/-- A field keeps what holds of the fields before it. -/
def Field.Keeps (f : Field σ) (P : σ → Prop) : Prop :=
  ∀ state t path n state', P state → f.read state t path n = .ok state' → P state'

theorem Field.plain_keeps {name : String} {given : σ → Bool} {read : Reader α} {put : σ → α → σ}
    (h : ∀ state t path n x, P state → read t path n = .ok x → P (put state x)) :
    (Field.plain name given read put).Keeps P := by
  intro state t path n state' hp hr
  simp only [Field.plain] at hr
  cases hx : read t path n with
  | error e => rw [hx] at hr; cases hr
  | ok x => rw [hx] at hr; cases hr; exact h state t path n x hp hx

theorem Record.field_mem {path : Path} {key : Node} {f : Field σ}
    (h : r.field t path key = .ok f) : f ∈ r.fields := by
  simp only [Record.field] at h
  split at h
  · split at h
    · rename_i found hf; cases h
      exact List.mem_of_find?_eq_some hf
    · cases h
  · cases h

theorem Record.members_ok (hfields : ∀ f ∈ r.fields, f.Keeps P) {path : Path} {state state' : σ}
    {pairs : List (Node × Node)} (hp : P state)
    (h : r.members t path state pairs = .ok state') : P state' := by
  fun_induction Record.members r t path state pairs with
  | case1 => cases h; exact hp
  | case5 state key value rest f hf _ state1 hread ih =>
    exact ih (hfields f (field_mem hf) _ _ _ _ _ hp hread) h
  | _ => cases h

theorem Record.read_ok (hblank : P r.blank) (hfields : ∀ f ∈ r.fields, f.Keeps P) {path : Path}
    {n : Node} {a : α} (h : r.read t path n = .ok a) : ∃ state, P state ∧ a = r.complete state := by
  simp only [Record.read] at h
  split at h
  · rename_i m pairs _
    have hm := mapError_eq_ok h
    cases hs : r.members t path r.blank pairs with
    | error e => rw [hs] at hm; cases hm
    | ok state => rw [hs] at hm; cases hm; exact ⟨state, members_ok hfields hblank hs, rfl⟩
  · split at h
    · cases h; exact ⟨r.blank, hblank, rfl⟩
    · cases h
  · cases h

/-- What a text writes is made of a state that all fields have kept. -/
theorem Record.decode_ok (hblank : P r.blank) (hfields : ∀ f ∈ r.fields, f.Keeps P) {text : String}
    {a : α} (h : r.decode text = .ok a) : ∃ state, P state ∧ a = r.complete state := by
  simp only [Record.decode] at h
  split at h
  · cases h
  · split at h
    · cases h; exact ⟨r.blank, hblank, rfl⟩
    · exact read_ok hblank hfields (mapError_eq_ok h)

end Record
end Yaml
end PackPlan
