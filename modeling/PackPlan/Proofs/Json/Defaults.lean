import PackPlan.Proofs.Json.Record

/-!
# PackPlan.Proofs.Json.Defaults

Records whose fields may all be left out. `ShowsFields` says which values give some of the fields: the
object of those that are given, in any order, or the list of them where they come first. Whatever value
shows the fields, the record takes it and is made of what is given (`Record.takes_fields`). A record
that is strict takes no object with another name in it or a name that stands twice
(`Record.not_takes_of_spoils`).
-/

namespace PackPlan
namespace Json

open Document

/-- What shows the value of a field, if it is given. -/
abbrev Shown := Option (List Token → Prop)

/-- The members give the fields, in any order, and nothing else. -/
structure Gives (fields : List (String × Shown)) (members : List Member) : Prop where
  known : ∀ m ∈ members, ∃ f ∈ fields, Piece.content? m.name = some f.1.toList
  absent : ∀ f ∈ fields, f.2 = none → valuesOf f.1 members = []
  present : ∀ f ∈ fields, ∀ shows ∈ f.2, ∃ value, valuesOf f.1 members = [value] ∧ shows value

/-- The items give the fields, which come before those that are left out. -/
inductive Leads : List (String × Shown) → List (List Token) → Prop where
  | stop {fields : List (String × Shown)} : (∀ f ∈ fields, f.2 = none) → Leads fields []
  | next {name : String} {shows : List Token → Prop} {fields : List (String × Shown)}
      {row : List Token} {rows : List (List Token)} :
      shows row → Leads fields rows → Leads ((name, some shows) :: fields) (row :: rows)

/-- The values that give the fields. -/
inductive ShowsFields (fields : List (String × Shown)) : List Token → Prop where
  | object {members : List Member} : Gives fields members → ShowsFields fields (objectTokens members)
  | list {rows : List (List Token)} : Leads fields rows → ShowsFields fields (listTokens rows)

/-- A member has another name than these, or one of these stands twice. -/
def Spoils (names : List String) (members : List Member) : Prop :=
  (∃ m ∈ members, ∀ name ∈ names, Piece.content? m.name ≠ some name.toList) ∨
    ∃ name ∈ names, 2 ≤ (valuesOf name members).length

variable {σ α : Type}

/-- The field has this name and reads what shows its value, and something stays true of the state. -/
structure Field.Reads (f : Field σ) (P : σ → Prop) (g : String × Shown) : Prop where
  name : f.name = g.1
  value : ∀ shows ∈ g.2, ∀ value, shows value → IsValue value ∧
    ∀ state, P state → ∃ next, Takes (f.read state) value (.ok next) ∧ P next

/-! ## Values -/

section Values

variable {P : σ → Prop} {fs : List (Field σ)} {fields : List (String × Shown)}
  {members : List Member} {rows : List (List Token)} {ts : List Token}

theorem Gives.isValue (hg : Gives fields members)
    (h : List.Forall₂ (fun f g => Field.Reads f P g) fs fields) : ∀ m ∈ members, IsValue m.value := by
  intro m hm
  obtain ⟨g, hgf, hname⟩ := hg.known m hm
  have hmem : m.value ∈ valuesOf g.1 members := mem_valuesOf.2 ⟨m, hm, hname, rfl⟩
  obtain ⟨f, -, hreads⟩ := exists_of_forall₂ h.flip g hgf
  cases hshows : g.2 with
  | none =>
    rw [hg.absent g hgf hshows] at hmem
    cases hmem
  | some shows =>
    obtain ⟨value, hvalues, hvalue⟩ := hg.present g hgf shows hshows
    rw [hvalues, List.mem_singleton] at hmem
    rw [hmem]
    exact (hreads.value shows hshows value hvalue).1

/-- A field is named once if it is given, and else never. -/
theorem Gives.length_valuesOf (hg : Gives fields members) {g : String × Shown} (h : g ∈ fields) :
    (valuesOf g.1 members).length = g.2.isSome.toNat := by
  cases hshows : g.2 with
  | none => rw [hg.absent g h hshows]; rfl
  | some shows =>
    obtain ⟨value, hvalues, -⟩ := hg.present g h shows hshows
    rw [hvalues]
    rfl

theorem Leads.isValue (hleads : Leads fields rows)
    (hreads : List.Forall₂ (fun f g => Field.Reads f P g) fs fields) : ∀ row ∈ rows, IsValue row := by
  induction hleads generalizing fs with
  | stop => exact List.forall_mem_nil _
  | next hshows _ ih =>
    cases hreads with
    | cons hfg hrest =>
      exact List.forall_mem_cons.2 ⟨(hfg.value _ rfl _ hshows).1, ih hrest⟩

theorem ShowsFields.isValue (hreads : List.Forall₂ (fun f g => Field.Reads f P g) fs fields)
    (h : ShowsFields fields ts) : IsValue ts := by
  cases h with
  | object hg => exact .object (hg.isValue hreads)
  | list hleads => exact .list (hleads.isValue hreads)

end Values

namespace Record

variable {r : Record σ α} {P : σ → Prop} {fields : List (String × Shown)} {members : List Member}
  {ts : List Token} {a : α}

/-! ## Reading what is given -/

theorem takes_given (hw : r.HasWholeFields) (ht : r.Tracks) (hP : P r.blank)
    (hreads : List.Forall₂ (fun f g => Field.Reads f P g) r.fields fields)
    (hmade : ∀ last, P last →
      List.Forall₂ (fun f g => f.given last = g.2.isSome) r.fields fields → r.ofObject last = .ok a)
    (hg : Gives fields members) : Takes r.read (objectTokens members) a := by
  refine takes_members hw ht hP (hg.isValue hreads) ?_ ?_ ?_ ?_ ?_
  · intro m hm
    obtain ⟨g, -, hname⟩ := hg.known m hm
    exact ⟨_, hname⟩
  · intro _ m hm
    obtain ⟨g, hgf, hname⟩ := hg.known m hm
    obtain ⟨f, hf, hfg⟩ := exists_of_forall₂ hreads.flip g hgf
    exact ⟨f, hf, hfg.name ▸ hname⟩
  · intro f hf value hvalue
    obtain ⟨g, hgf, hfg⟩ := exists_of_forall₂ hreads f hf
    rw [hfg.name] at hvalue
    cases hshows : g.2 with
    | none => rw [hg.absent g hgf hshows] at hvalue; cases hvalue
    | some shows =>
      obtain ⟨other, hvalues, hother⟩ := hg.present g hgf shows hshows
      rw [hvalues, List.mem_singleton] at hvalue
      subst hvalue
      exact (hfg.value shows hshows value hother).2
  · intro f hf
    obtain ⟨g, hgf, hfg⟩ := exists_of_forall₂ hreads f hf
    rw [hfg.name, hg.length_valuesOf hgf]
    exact Bool.toNat_le _
  · intro last hlast hgiven
    refine hmade last hlast (forall₂_of_mem hreads fun f hf g hgf hfg => ?_)
    have htoNat : ∀ b c : Bool, b.toNat = c.toNat → b = c := by decide
    have hcount := hgiven f hf
    rw [hfg.name, hg.length_valuesOf hgf] at hcount
    exact htoNat _ _ hcount

/-- The first fields take the items, and the fields after them are as they were. -/
theorem exists_fills (ht : r.Tracks) {fs : List (Field σ)} {rows : List (List Token)} {state : σ}
    (hsub : ∀ f ∈ fs, f ∈ r.fields) (hnames : (fs.map Field.name).Nodup)
    (hreads : List.Forall₂ (fun f g => Field.Reads f P g) fs fields) (hleads : Leads fields rows)
    (hstate : P state) (hfree : ∀ f ∈ fs, f.given state = false) :
    ∃ last, Fills fs rows state last ∧ P last ∧
      List.Forall₂ (fun f g => f.given last = g.2.isSome) fs fields ∧
        ∀ g ∈ r.fields, g.name ∉ fs.map Field.name → g.given last = g.given state := by
  induction hreads generalizing rows state with
  | nil =>
    cases hleads
    exact ⟨state, .nil, hstate, .nil, fun _ _ _ => rfl⟩
  | @cons f g fs fields hfg hrest ih =>
    obtain ⟨hf, hfs⟩ := List.forall_mem_cons.1 hsub
    rw [List.map_cons, List.nodup_cons] at hnames
    cases hleads with
    | stop hnone =>
      refine ⟨state, .nil, hstate, ?_, fun _ _ _ => rfl⟩
      refine forall₂_of_mem (.cons hfg hrest) fun f hf g hg _ => ?_
      rw [hfree f hf, hnone g hg]
      rfl
    | next hshows hleads =>
      obtain ⟨next, htakes, hnext⟩ := (hfg.value _ rfl _ hshows).2 state hstate
      have hgiven : ∀ h ∈ r.fields, h.given next = (h.given state || h.name == f.name) :=
        fun h hh => ht.given hf hh htakes
      have hfree' : ∀ h ∈ fs, h.given next = false := by
        intro h hh
        have hne : h.name ≠ f.name := fun heq => hnames.1 (heq ▸ List.mem_map_of_mem hh)
        rw [hgiven h (hfs h hh), hfree h (List.mem_cons_of_mem _ hh), beq_eq_false_iff_ne.2 hne]
        rfl
      obtain ⟨last, hfills, hlast, hmatch, hkept⟩ := ih hfs hnames.2 hleads hnext hfree'
      refine ⟨last, .cons htakes hfills, hlast, .cons ?_ hmatch, fun h hh hnot => ?_⟩
      · rw [hkept f hf hnames.1, hgiven f hf, beq_self_eq_true, Bool.or_true]
        rfl
      · rw [List.map_cons, List.mem_cons, not_or] at hnot
        rw [hkept h hh hnot.2, hgiven h hh, beq_eq_false_iff_ne.2 hnot.1, Bool.or_false]

/-- Whatever value gives the fields, the record is made of them. -/
theorem takes_fields (hw : r.HasWholeFields) (ht : r.Tracks) (hP : P r.blank)
    (hreads : List.Forall₂ (fun f g => Field.Reads f P g) r.fields fields)
    (hmade : ∀ last, P last → List.Forall₂ (fun f g => f.given last = g.2.isSome) r.fields fields →
      r.ofObject last = .ok a ∧ ∀ n, r.ofList n last = .ok a)
    (h : ShowsFields fields ts) : Takes r.read ts a := by
  cases h with
  | object hg => exact takes_given hw ht hP hreads (fun last hl hm => (hmade last hl hm).1) hg
  | list hleads =>
    obtain ⟨last, hfills, hlast, hmatch, -⟩ :=
      exists_fills ht (fun _ hf => hf) ht.names hreads hleads hP ht.blank
    exact takes_list hw (hleads.isValue hreads) hfills ((hmade last hlast hmatch).2 _)

/-! ## Objects that are refused -/

/-- A strict record is taken of no object with another name than those of its fields, nor of one that
gives a field twice. -/
theorem not_takes_of_spoils (hw : r.HasWholeFields) (ht : r.Tracks) (hstrict : r.strict = true)
    (hmembers : ∀ m ∈ members, IsValue m.value) (h : Spoils (r.fields.map Field.name) members) :
    ¬Takes r.read (objectTokens members) a := by
  intro htakes
  obtain ⟨last, hsteps, -⟩ := (takes_object_iff hw hmembers).1 htakes
  rcases h with ⟨m, hm, hname⟩ | ⟨name, hname, htwice⟩
  · obtain ⟨f, hf, hfm⟩ := hsteps.known hstrict m hm
    exact hname f.name (List.mem_map_of_mem hf) hfm
  · obtain ⟨f, hf, rfl⟩ := List.mem_map.1 hname
    have hcount := hsteps.count ht hf
    have hle := Bool.toNat_le (f.given last)
    omega

end Record
end Json
end PackPlan
