import PackPlan.Config.Json
import PackPlan.Config.Yaml
import PackPlan.Proofs.Json.Reader
import PackPlan.Proofs.Yaml.Reader
import PackPlan.SizeSet.Reader

/-!
# PackPlan.Proofs.SizeSet.Attainable

The sets of sizes that there can be. `SizeSet.Attainable` lists the ways to one: from a list of
quantities, refusing or leaving out what is not positive, from a text, from JSON, from the settings
of a calculator in JSON or YAML, and the one that is in force without settings. Whichever way it
came, its sizes fit a quantity (`Attainable.isInRange`), so that no sum of a quantity and a size
leaves 64 bits.
-/

namespace PackPlan
namespace SizeSet

/-- The sizes fit a quantity. -/
def IsInRange (s : SizeSet) : Prop := ∀ size ∈ s.toList, (size : Int) ≤ maxQuantity

/-- The ways to a set of sizes. -/
inductive Attainable : SizeSet → Prop where
  | standard : Attainable .standard
  | ofList {sizes : List Int} {s : SizeSet} :
      (∀ q ∈ sizes, IsQuantity q) → ofList sizes = .ok s → Attainable s
  | ofPositives {sizes : List Int} {s : SizeSet} :
      (∀ q ∈ sizes, IsQuantity q) → ofPositives? sizes = some s → Attainable s
  | read {text : String} {s : SizeSet} : read text = .ok s → Attainable s
  | ofJson {text : String} {s : SizeSet} : ofJson text = .ok s → Attainable s
  | jsonConfig {text : String} {c : Config} : Config.ofJson text = .ok c → Attainable c.defaultSizes
  | yamlConfig {text : String} {c : Config} : Config.ofYaml text = .ok c → Attainable c.defaultSizes

section Lists

variable {sizes : List Int} {s : SizeSet}

theorem ofPositives?_of_ofList (h : ofList sizes = .ok s) : ofPositives? sizes = some s := by
  simp only [ofList] at h
  split at h
  · cases h
  · rename_i positives hpositives
    obtain ⟨-, rfl⟩ := positivesFrom_eq_ok.1 hpositives
    split at h
    · rename_i set hset; cases h; exact hset
    · cases h

theorem isInRange_of_ofPositives? (hq : ∀ q ∈ sizes, IsQuantity q)
    (h : ofPositives? sizes = some s) : s.IsInRange := by
  intro x hx
  exact (hq x ((mem_ofPositives? h).1 hx).1).2

theorem isInRange_of_ofList (hq : ∀ q ∈ sizes, IsQuantity q) (h : ofList sizes = .ok s) :
    s.IsInRange :=
  isInRange_of_ofPositives? hq (ofPositives?_of_ofList h)

end Lists

/-! ## Texts and documents -/

theorem quantity?_ok {part : List Char} {q : Int} (h : Numeral.quantity? part = some q) :
    IsQuantity q :=
  of_decide_eq_true (Option.filter_eq_some_iff.1 h).2

theorem readParts_ok {parts : List (List Char)} {sizes : List Int}
    (h : readParts parts = .ok sizes) : ∀ q ∈ sizes, IsQuantity q := by
  induction parts generalizing sizes with
  | nil => cases h; simp
  | cons part rest ih =>
    simp only [readParts] at h
    split at h
    · cases h
    · rename_i size hsize
      split at h
      · cases h
      · rename_i others hothers; cases h
        intro q hq
        rcases List.mem_cons.1 hq with rfl | hq
        · exact quantity?_ok hsize
        · exact ih hothers q hq

theorem isInRange_of_read {text : String} {s : SizeSet} (h : read text = .ok s) : s.IsInRange := by
  simp only [read] at h
  split at h
  · cases h
  · rename_i sizes hsizes
    exact isInRange_of_ofList (readParts_ok hsizes) h

theorem isInRange_of_jsonReader {ts rest : List Json.Placed} {s : SizeSet}
    (h : jsonReader ts = .ok (.ok s, rest)) : s.IsInRange := by
  simp only [jsonReader] at h
  split at h
  · cases h
  · rename_i sizes _ hsizes
    have hset : ofList sizes = .ok s := by
      cases hl : ofList sizes with
      | error e => rw [hl] at h; cases h
      | ok set => rw [hl] at h; cases h; rfl
    exact isInRange_of_ofList (Json.list_ok (fun _ _ _ hq => Json.integer_ok hq) hsizes) hset

theorem isInRange_of_ofJson {text : String} {s : SizeSet} (h : ofJson text = .ok s) :
    s.IsInRange := by
  refine Json.decode_ok (fun ts set rest hread => ?_) h
  split at hread
  · cases hread
  · cases hread
  · rename_i hset; cases hread
    exact isInRange_of_jsonReader hset

theorem isInRange_standard : standard.IsInRange := by
  unfold IsInRange
  decide

/-- Settings of which the sizes, if they are given, fit a quantity. -/
def DraftInRange (d : Config.Draft) : Prop := ∀ s, d.defaultSizes = some s → s.IsInRange

theorem isInRange_complete {d : Config.Draft} (h : DraftInRange d) :
    d.complete.defaultSizes.IsInRange := by
  simp only [Config.Draft.complete]
  cases hs : d.defaultSizes with
  | none => exact isInRange_standard
  | some s => exact h s hs

theorem jsonRecord_yields :
    Config.jsonRecord.Yields DraftInRange fun c => c.defaultSizes.IsInRange where
  blank := by intro s h; cases h
  fields := by
    intro f hf
    simp only [Config.jsonRecord, List.mem_cons, List.not_mem_nil, or_false] at hf
    rcases hf with rfl | rfl | rfl
    · intro state ts state' rest _ hread
      simp only [Config.sizesField] at hread
      split at hread
      · cases hread
      · rename_i sizes _ hsizes
        cases sizes with
        | error e => cases hread
        | ok set =>
          cases hread
          intro s hs; cases hs
          exact isInRange_of_jsonReader hsizes
    · exact Json.Field.plain_keeps fun _ _ _ _ hp _ => hp
    · exact Json.Field.plain_keeps fun _ _ _ _ hp _ => hp
  object := by intro state c hp hc; cases hc; exact isInRange_complete hp
  list := by intro n state c hp hc; cases hc; exact isInRange_complete hp

theorem yamlRecord_keeps : ∀ f ∈ Config.yamlRecord.fields, f.Keeps DraftInRange := by
  intro f hf
  simp only [Config.yamlRecord, List.mem_cons, List.not_mem_nil, or_false] at hf
  rcases hf with rfl | rfl | rfl
  · refine Yaml.Field.plain_keeps fun state t path n set _ hread => ?_
    intro s hs; cases hs
    simp only [Config.sizesReader] at hread
    split at hread
    · cases hread
    · rename_i sizes hsizes
      exact isInRange_of_ofList (Yaml.list_ok (fun _ _ _ hq => Yaml.quantity_ok hq) hsizes)
        (Yaml.mapError_eq_ok hread)
  · exact Yaml.Field.plain_keeps fun _ _ _ _ _ hp _ => hp
  · exact Yaml.Field.plain_keeps fun _ _ _ _ _ hp _ => hp

/-- Whichever way a set came about, its sizes fit a quantity. -/
theorem Attainable.isInRange {s : SizeSet} (h : Attainable s) : s.IsInRange := by
  cases h with
  | standard => exact isInRange_standard
  | ofList hq h => exact isInRange_of_ofList hq h
  | ofPositives hq h => exact isInRange_of_ofPositives? hq h
  | read h => exact isInRange_of_read h
  | ofJson h => exact isInRange_of_ofJson h
  | jsonConfig h => exact Json.decode_ok (fun _ _ _ hr => Json.Record.read_ok jsonRecord_yields hr) h
  | yamlConfig h =>
    obtain ⟨d, hd, rfl⟩ := Yaml.Record.decode_ok (P := DraftInRange) (by intro s hs; cases hs)
      yamlRecord_keeps h
    exact isInRange_complete hd

end SizeSet
end PackPlan
