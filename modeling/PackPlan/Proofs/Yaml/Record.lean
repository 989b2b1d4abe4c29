import Mathlib.Data.List.Nodup
import PackPlan.Proofs.Json.Record
import PackPlan.Proofs.Yaml.Reader
import PackPlan.Proofs.Yaml.Tree
import PackPlan.Proofs.Yaml.Value

/-!
# PackPlan.Proofs.Yaml.Record

Reading documents of lines. A reader takes a content when it reads every node of it as the same value
(`Takes`), and refuses it when it reads none (`Refuses`). Lines that give fields of a record, in any
order and none twice (`Gives`), are taken as the record that is made of what is given
(`Record.takes_lines`); lines are refused when a key is no field, or the content after it is refused by
the field that it names (`Record.refuses_lines`).
-/

namespace PackPlan
namespace Yaml

open Document

/-- The reader reads every node of the content as this value. -/
def Takes {α : Type} (read : Reader α) (content : Content) (x : α) : Prop :=
  ∀ t path n, content.Shows n → read t path n = .ok x

/-- The reader reads no node of the content. -/
def Refuses {α : Type} (read : Reader α) (content : Content) : Prop :=
  ∀ t path n x, content.Shows n → read t path n ≠ .ok x

/-! ## Numbers and lists -/

section Values

variable {α : Type} {read : Reader α} {x : Int} {blanks : Nat} {ws : List Word}

theorem takes_count {type : String} {n : Nat} (h : n ≤ maxCount) :
    Takes (count type) (.word (.ofInt n)) n := by
  rintro t path _ ⟨m, rfl⟩
  have hmay : Scalar.mayCount ⟨none, .plain, (Word.ofInt n).text⟩ = true := rfl
  simp only [count, Tree.deref, hmay, if_true, unsigned?_ofNat, Option.filter_some, decide_eq_true h]

theorem takes_quantity (h : IsQuantity x) : Takes quantity (.word (.ofInt x)) x := by
  rintro t path _ ⟨m, rfl⟩
  have hmay : Scalar.mayCount ⟨none, .plain, (Word.ofInt x).text⟩ = true := rfl
  simp only [quantity, Tree.deref, hmay, if_true, signed?_ofInt, Option.filter_some, decide_eq_true h]

/-- What is read of a number is this number. -/
theorem eq_of_quantity {t : Tree} {path : Path} {n : Node} {y : Int} (hn : (Word.ofInt x).IsNode n)
    (h : quantity t path n = .ok y) : y = x := by
  obtain ⟨m, rfl⟩ := hn
  have hmay : Scalar.mayCount ⟨none, .plain, (Word.ofInt x).text⟩ = true := rfl
  simp only [quantity, Tree.deref, hmay, if_true, signed?_ofInt] at h
  split at h
  · rename_i hfilter
    cases h
    exact (Option.some.inj (Option.filter_eq_some_iff.1 hfilter).1).symm
  · cases h

theorem takes_list {xs : List α} (h : List.Forall₂ (fun w x => Takes read (.word w) x) ws xs) :
    Takes (list read) (.words blanks ws) xs := by
  rintro t path _ ⟨m, nodes, rfl, hnodes⟩
  have hitems : ∀ i, items read t path i nodes = .ok xs := by
    induction h generalizing nodes with
    | nil => cases hnodes; exact fun _ => rfl
    | cons hw _ ih =>
      cases hnodes with
      | cons hn hrest =>
        intro i
        simp only [items, hw t _ _ hn, ih _ hrest]
  simp only [list, Tree.deref, hitems]
  rfl

theorem items_eq_ok {t : Tree} {path : Path} {i : Nat} {nodes : List Node} {xs : List α}
    (h : items read t path i nodes = .ok xs) :
    List.Forall₂ (fun n x => ∃ path, read t path n = .ok x) nodes xs := by
  fun_induction items read t path i nodes generalizing xs with
  | case1 => cases h; exact .nil
  | case4 i n rest x hx others hothers ih => cases h; exact .cons ⟨_, hx⟩ (ih hothers)
  | _ => cases h

/-- Every number of a list is among what is read. -/
theorem mem_of_list {t : Tree} {path : Path} {n : Node} {xs : List Int}
    (hn : (Content.words blanks ws).Shows n) (h : list quantity t path n = .ok xs)
    (hx : Word.ofInt x ∈ ws) : x ∈ xs := by
  obtain ⟨m, nodes, rfl, hnodes⟩ := hn
  obtain ⟨node, hnode, hshows⟩ := exists_of_forall₂ hnodes _ hx
  obtain ⟨y, hy, _, hread⟩ := exists_of_forall₂ (items_eq_ok (mapError_eq_ok h)) node hnode
  rwa [eq_of_quantity hshows hread] at hy

end Values

/-! ## Lines -/

/-- The member is that of the line. -/
structure IsMember (line : Word × Content) (pair : Node × Node) : Prop where
  key : line.1.IsNode pair.1
  value : line.2.Shows pair.2

theorem Lines.members (ls : Lines) {pairs : List (Node × Node)} (h : ls.Shows pairs) :
    List.Forall₂ IsMember ls.toList pairs := by
  match ls with
  | .one key content =>
    obtain ⟨k, v, rfl, hk, hv⟩ := h
    exact .cons ⟨hk, hv⟩ .nil
  | .cons key content others =>
    obtain ⟨k, v, rest, rfl, hk, hv, hrest⟩ := h
    exact .cons ⟨hk, hv⟩ (others.members hrest)

/-- What shows the value of a field, if it is given. -/
abbrev Shown := Option (Content → Prop)

/-- The lines give the fields, each of them on one line, and nothing else. -/
structure Gives (fields : List (String × Shown)) (lines : List (Word × Content)) : Prop where
  nodup : (lines.map fun line => line.1.text).Nodup
  known : ∀ line ∈ lines, ∃ f ∈ fields, line.1.text = f.1.toList ∧ ∃ shows ∈ f.2, shows line.2
  given : ∀ f ∈ fields, f.2.isSome = true ↔ ∃ line ∈ lines, line.1.text = f.1.toList

variable {σ α : Type}

/-- The field has this name and takes what shows its value, and something stays true of the state. -/
structure Field.Reads (f : Field σ) (P : σ → Prop) (g : String × Shown) : Prop where
  name : f.name = g.1
  value : ∀ shows ∈ g.2, ∀ content, shows content → content.KeysFit ∧
    ∀ state, P state → ∃ next, Takes (f.read state) content next ∧ P next

section Field

variable {name : String} {given : σ → Bool} {read : Reader α} {put : σ → α → σ} {state next : σ}
  {content : Content} {x : α} {t : Tree} {path : Path} {n : Node}

theorem Field.plain_eq_ok : (Field.plain name given read put).read state t path n = .ok next ↔
    ∃ x, read t path n = .ok x ∧ next = put state x := by
  simp only [Field.plain]
  cases read t path n with
  | error e => simp [Except.map]
  | ok x => simp [Except.map, eq_comm]

theorem Field.plain_takes (h : Takes read content x) :
    Takes ((Field.plain name given read put).read state) content (put state x) :=
  fun t path n hn => Field.plain_eq_ok.2 ⟨x, h t path n hn, rfl⟩

theorem Field.plain_refuses (h : Refuses read content) :
    Refuses ((Field.plain name given read put).read state) content := by
  intro t path n next hn hread
  obtain ⟨x, hx, -⟩ := Field.plain_eq_ok.1 hread
  exact h t path n x hn hx

end Field

namespace Record

variable {r : Record σ α} {P : σ → Prop} {state last : σ} {fields : List (String × Shown)}
  {lines : List (Word × Content)} {ls : Lines} {more : Nat} {a : α}

/-- The fields have names of their own that fit as keys, and reading one makes this one given and no
other. -/
structure Tracks (r : Record σ α) : Prop where
  names : (r.fields.map Field.name).Nodup
  fit : ∀ f ∈ r.fields, f.name.length ≤ 1024
  blank : ∀ f ∈ r.fields, f.given r.blank = false
  read : ∀ f ∈ r.fields, ∀ state t path n next, f.read state t path n = .ok next →
    ∀ g ∈ r.fields, g.given next = (g.given state || g.name == f.name)

theorem field_eq_ok {t : Tree} {path : Path} {key : Node} {f : Field σ} {w : Word}
    (hkey : w.IsNode key) (h : r.field t path key = .ok f) : f ∈ r.fields ∧ w.text = f.name.toList := by
  obtain ⟨m, rfl⟩ := hkey
  simp only [field, Tree.deref] at h
  split at h
  · rename_i found hfind
    cases h
    have hname := List.find?_some hfind
    exact ⟨List.mem_of_find?_eq_some hfind, (eq_of_beq hname).symm⟩
  · cases h

theorem field_of_name (ht : r.Tracks) {t : Tree} {path : Path} {key : Node} {f : Field σ} {w : Word}
    (hkey : w.IsNode key) (hf : f ∈ r.fields) (hname : w.text = f.name.toList) :
    r.field t path key = .ok f := by
  obtain ⟨m, rfl⟩ := hkey
  have hfind : r.fields.find? (fun f => f.name.toList == w.text) = some f := by
    cases hfound : r.fields.find? (fun f => f.name.toList == w.text) with
    | none =>
      exact absurd (beq_iff_eq.2 hname.symm) (List.find?_eq_none.1 hfound f hf)
    | some g =>
      have hg := List.find?_some hfound
      have heq : g.name.toList = f.name.toList := (eq_of_beq hg).trans hname
      rw [List.inj_on_of_nodup_map ht.names (List.mem_of_find?_eq_some hfound) hf
        (String.toList_injective heq)]
  simp only [field, Tree.deref, hfind]

/-- Lines can be read in any order when no two have one key and each content is taken, here into a
state of which something holds. A field is given at the end if it was at the start or a line has its
name. -/
theorem exists_last (ht : r.Tracks) (hstate : P state)
    (hnodup : (lines.map fun line => line.1.text).Nodup)
    (hread : ∀ line ∈ lines, ∃ f ∈ r.fields, line.1.text = f.name.toList ∧ f.given state = false ∧
      ∀ state, P state → ∃ next, Takes (f.read state) line.2 next ∧ P next)
    {pairs : List (Node × Node)} (hpairs : List.Forall₂ IsMember lines pairs) (t : Tree) (path : Path) :
    ∃ last, r.members t path state pairs = .ok last ∧ P last ∧ ∀ f ∈ r.fields, f.given last = true ↔
      f.given state = true ∨ f.name.toList ∈ lines.map fun line => line.1.text := by
  induction hpairs generalizing state with
  | nil => exact ⟨state, rfl, hstate, fun f _ => by simp⟩
  | @cons line pair others rest hmember _ ih =>
    obtain ⟨⟨f, hf, hname, hfree, htakes⟩, hothers⟩ := List.forall_mem_cons.1 hread
    obtain ⟨hnew, hnodup⟩ := List.nodup_cons.1 hnodup
    obtain ⟨next, hnext, hP⟩ := htakes state hstate
    have hvalue := hnext t (valuePath path pair.1) pair.2 hmember.value
    have hgiven := ht.read f hf _ _ _ _ _ hvalue
    have hlater : ∀ line ∈ others, ∃ g ∈ r.fields, line.1.text = g.name.toList ∧
        g.given next = false ∧ ∀ state, P state → ∃ next, Takes (g.read state) line.2 next ∧ P next := by
      intro other hother
      obtain ⟨g, hg, hgname, hgfree, hgtakes⟩ := hothers other hother
      refine ⟨g, hg, hgname, ?_, hgtakes⟩
      have hne : g.name ≠ f.name := by
        intro heq
        refine hnew (List.mem_map.2 ⟨other, hother, ?_⟩)
        exact (hgname.trans (congrArg String.toList heq)).trans hname.symm
      rw [hgiven g hg, hgfree, beq_eq_false_iff_ne.2 hne, Bool.or_false]
    obtain ⟨last, hmembers, hlast, hmatch⟩ := ih hP hnodup hlater
    refine ⟨last, ?_, hlast, fun g hg => ?_⟩
    · obtain ⟨key, value⟩ := pair
      simp only [members, field_of_name ht hmember.key hf hname, hfree, Bool.false_eq_true, if_false]
      rw [hvalue]
      exact hmembers
    · have hself : g.name.toList = line.1.text ↔ g.name = f.name := by
        rw [hname]
        exact ⟨String.toList_injective, congrArg String.toList⟩
      rw [hmatch g hg, hgiven g hg, Bool.or_eq_true, beq_iff_eq, List.map_cons, List.mem_cons, hself,
        or_assoc]

/-- Lines that give fields are taken as the record that is made of them. -/
theorem takes_lines (ht : r.Tracks) (hblank : P r.blank)
    (hreads : List.Forall₂ (fun f g => Field.Reads f P g) r.fields fields)
    (hmade : ∀ last, P last →
      List.Forall₂ (fun f g => f.given last = g.2.isSome) r.fields fields → r.complete last = a)
    (hgives : Gives fields ls.toList) : Takes r.read (.lines more ls) a := by
  rintro t path _ ⟨m, pairs, rfl, hpairs⟩
  have hread : ∀ line ∈ ls.toList, ∃ f ∈ r.fields, line.1.text = f.name.toList ∧
      f.given r.blank = false ∧
        ∀ state, P state → ∃ next, Takes (f.read state) line.2 next ∧ P next := by
    intro line hline
    obtain ⟨g, hg, hname, shows, hshows, hcontent⟩ := hgives.known line hline
    obtain ⟨f, hf, hfg⟩ := exists_of_forall₂ hreads.flip g hg
    refine ⟨f, hf, by rw [hname, hfg.name], ht.blank f hf, ?_⟩
    exact (hfg.value shows hshows line.2 hcontent).2
  obtain ⟨last, hmembers, hlast, hgiven⟩ :=
    exists_last ht hblank hgives.nodup hread (ls.members hpairs) t path
  have hmatch : List.Forall₂ (fun f g => f.given last = g.2.isSome) r.fields fields := by
    refine forall₂_of_mem hreads fun f hf g hg hfg => ?_
    rw [Bool.eq_iff_iff, hgiven f hf, ht.blank f hf, hfg.name, hgives.given g hg, List.mem_map]
    exact or_iff_right Bool.false_ne_true
  simp only [read, Tree.deref, hmembers]
  exact congrArg Except.ok (hmade last hlast hmatch)

/-- Lines that give fields have keys that fit. -/
theorem keysFit (ht : r.Tracks)
    (hreads : List.Forall₂ (fun f g => Field.Reads f P g) r.fields fields)
    (hgives : Gives fields ls.toList) : ls.KeysFit := by
  rw [ls.keysFit_iff]
  intro line hline
  obtain ⟨g, hg, hname, shows, hshows, hcontent⟩ := hgives.known line hline
  obtain ⟨f, hf, hfg⟩ := exists_of_forall₂ hreads.flip g hg
  refine ⟨?_, (hfg.value shows hshows line.2 hcontent).1⟩
  rw [hname, String.length_toList, ← hfg.name]
  exact ht.fit f hf

/-! ## Lines that are refused -/

theorem exists_read {t : Tree} {path : Path} {pairs : List (Node × Node)}
    (hpairs : List.Forall₂ IsMember lines pairs) (h : r.members t path state pairs = .ok last) :
    ∀ line ∈ lines, ∃ f ∈ r.fields, line.1.text = f.name.toList ∧
      ∃ before path n after, line.2.Shows n ∧ f.read before t path n = .ok after := by
  induction hpairs generalizing state with
  | nil => exact List.forall_mem_nil _
  | @cons line pair others rest hmember _ ih =>
    obtain ⟨key, value⟩ := pair
    simp only [members] at h
    split at h
    · cases h
    · rename_i f hfield
      split at h
      · cases h
      · split at h
        · cases h
        · rename_i next hvalue
          obtain ⟨hf, hname⟩ := field_eq_ok hmember.key hfield
          exact List.forall_mem_cons.2
            ⟨⟨f, hf, hname, _, _, _, _, hmember.value, hvalue⟩, ih h⟩

/-- Lines are refused if the content of one is, by the field that its key names; a key that is no
field at all is enough. -/
theorem refuses_lines {line : Word × Content} (hline : line ∈ ls.toList)
    (h : ∀ f ∈ r.fields, line.1.text = f.name.toList → ∀ state, Refuses (f.read state) line.2) :
    Refuses r.read (.lines more ls) := by
  rintro t path _ a ⟨m, pairs, rfl, hpairs⟩ hread
  simp only [read, Tree.deref] at hread
  have hmembers := mapError_eq_ok hread
  cases hlast : r.members t path r.blank pairs with
  | error e => rw [hlast] at hmembers; cases hmembers
  | ok last =>
    obtain ⟨f, hf, hname, before, inner, n, after, hn, hvalue⟩ :=
      exists_read (ls.members hpairs) hlast line hline
    exact h f hf hname before t inner n after hn hvalue

/-! ## Whole texts -/

theorem decode_lines {text : String} (h : Takes r.read (.lines 0 ls) a) (hfit : ls.KeysFit)
    (ht : ls.WritesText text) : r.decode text = .ok a := by
  obtain ⟨m, pairs, hparse, hpairs⟩ := Lines.parse? ht hfit
  simp only [decode, hparse, h _ .root (.mapping m pairs) ⟨m, pairs, rfl, hpairs⟩]
  rfl

theorem decode_refused {text : String} (h : Refuses r.read (.lines 0 ls)) (ht : ls.WritesText text) :
    ∃ e, r.decode text = .error e := by
  by_cases hfit : ls.KeysFit
  · obtain ⟨m, pairs, hparse, hpairs⟩ := Lines.parse? ht hfit
    cases hread : r.read ⟨some (.mapping m pairs), .none⟩ .root (.mapping m pairs) with
    | error e => exact ⟨.data e, by simp only [decode, hparse, hread]; rfl⟩
    | ok a => exact absurd hread (h _ _ _ a ⟨m, pairs, rfl, hpairs⟩)
  · exact ⟨.malformed, by simp only [decode, Lines.parse?_eq_none ht hfit]⟩

end Record

end Yaml
end PackPlan
