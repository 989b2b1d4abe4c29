import PackPlan.Json.Writer
import PackPlan.Proofs.Json.Taking

/-!
# PackPlan.Proofs.Json.Writer

What is written in JSON. Compact texts are spelled out piece by piece: texts that write rows of tokens
write, one after another, the rows together (`Spells.append`), so an array writes the list of what its
items write (`spells_array`) and an object its members (`spells_object`). An integer is written by its
own digits (`numeral`), and in the ranges of quantities and counts it is read again as itself.
-/

namespace PackPlan

theorem forall₂_map {α β γ : Type} {R : β → γ → Prop} {f : α → β} {g : α → γ} {xs : List α}
    (h : ∀ x ∈ xs, R (f x) (g x)) : List.Forall₂ R (xs.map f) (xs.map g) := by
  rwa [List.forall₂_map_left_iff, List.forall₂_map_right_iff, List.forall₂_same]

namespace Json

open Numeral

/-- The number that writes an integer. -/
def Literal.ofInt (x : Int) : Literal := ⟨decide (x < 0), Nat.toDigits 10 x.natAbs, none, none⟩

def numeral (x : Int) : List Token := [.number (.ofInt x)]

theorem isValue_numeral (x : Int) : IsValue (numeral x) := .number _

/-! ## Reading numerals -/

section Numerals

variable {x : Int}

theorem integer?_ofInt (hlow : minQuantity ≤ x) (hhigh : x ≤ maxCount) :
    (Literal.ofInt x).integer? = some x := by
  simp only [Literal.integer?, Literal.ofInt, natural?_toDigits, decide_eq_true_eq]
  by_cases hx : x < 0
  · have hpos : 0 < x.natAbs ∧ x.natAbs ≤ minQuantity.natAbs := by omega
    rw [if_pos hx, if_pos hpos, Option.some.injEq, Int.ofNat_eq_natCast, Int.ofNat_natAbs_of_nonpos]
    · omega
    · omega
  · have hle : x.natAbs ≤ maxCount := by omega
    rw [if_neg hx, if_pos hle, Option.some.injEq]
    exact Int.natAbs_of_nonneg (by omega)

theorem takes_quantity (h : IsQuantity x) : Takes quantity (numeral x) x := by
  have hmax : maxQuantity ≤ maxCount := by decide
  have hx := h.2
  exact takes_integer (integer?_ofInt h.1 (by omega)) h

theorem takes_count_numeral {type : String} {n : Nat} (h : n ≤ maxCount) :
    Takes (count type) (numeral n) n := by
  have hmin : minQuantity ≤ 0 := by decide
  exact takes_count (integer?_ofInt (by omega) (by omega)) h

end Numerals

/-! ## Writing numerals -/

theorem Literal.spells_ofInt (x : Int) : (Literal.ofInt x).Spells (toString x).toList := by
  have h := @Literal.Spells.mk (decide (x < 0)) _ [] [] _ _ (isDigits_toDigits x.natAbs)
    (fun _ => toDigits_zero_cons) .none .none
  rwa [List.append_nil, List.append_nil, ← toList_toString_int] at h

/-! ## Writing values -/

section Writing

variable {ts others : List Token} {cs word : List Char}

theorem Spells.space (h : Spells ts cs) {space : List Char} (hs : AllSpace space) :
    Spells ts (space ++ cs) := by
  cases h with
  | finish hall => exact .finish (List.forall_mem_append.2 ⟨hs, hall⟩)
  | token hall hword hrest =>
    rw [← List.append_assoc]
    exact .token (List.forall_mem_append.2 ⟨hs, hall⟩) hword hrest

theorem Spells.append (h : Spells ts cs) (hothers : Spells others word) :
    Spells (ts ++ others) (cs ++ word) := by
  induction h with
  | finish hall => exact hothers.space hall
  | token hall hword _ ih =>
    rw [List.append_assoc, List.append_assoc]
    exact .token hall hword ih

theorem Spells.cons {token : Token} (hword : token.Spells word) (h : Spells ts cs) :
    Spells (token :: ts) (word ++ cs) :=
  @Spells.token token ts [] word cs (List.forall_mem_nil _) hword h

theorem Spells.single {token : Token} (hword : token.Spells word) : Spells [token] word := by
  have h := Spells.cons hword (.finish (List.forall_mem_nil _))
  rwa [List.append_nil] at h

theorem spells_numeral (x : Int) : Spells (numeral x) (toString x).toList :=
  .single (.number (Literal.spells_ofInt x))

theorem spells_numeral_nat (n : Nat) : Spells (numeral n) (toString n).toList :=
  spells_numeral n

theorem spells_intercalate {rows : List (List Token)} {texts : List (List Char)}
    (h : List.Forall₂ Json.Spells rows texts) :
    Spells ([.comma].intercalate rows) ([','].intercalate texts) := by
  induction h with
  | nil => exact .finish (List.forall_mem_nil _)
  | @cons row text rows texts hrow hrows ih =>
    cases hrows with
    | nil => rwa [List.intercalate_singleton, List.intercalate_singleton]
    | cons =>
      rw [List.intercalate_cons_cons, List.intercalate_cons_cons]
      exact (hrow.append (.single .comma)).append ih

theorem spells_array {rows : List (List Token)} {texts : List String}
    (h : List.Forall₂ (fun row text => Spells row text.toList) rows texts) :
    Spells (listTokens rows) (array texts).toList := by
  have hitems := spells_intercalate (List.forall₂_map_right_iff.2 h)
  have hlist := (Spells.cons .openList hitems).append (.single .closeList)
  simpa [array, listTokens, String.toList_intercalate] using hlist

/-- The name is written as it is. -/
def isPlain (name : String) : Bool :=
  name.toList.all fun c => c != '\x22' && c != '\\' && decide (0x20 ≤ c.toNat)

/-- A member whose name is written as it is. -/
def Member.plain (name : String) (value : List Token) : Member :=
  ⟨name.toList.map .plain, value⟩

theorem content?_plain (cs : List Char) : Piece.content? (cs.map .plain) = some cs := by
  induction cs with
  | nil => rfl
  | cons c rest ih => rw [List.map_cons, Piece.content?, ih]; rfl

@[simp] theorem Member.content?_plain (name : String) (value : List Token) :
    Piece.content? (Member.plain name value).name = some name.toList :=
  Json.content?_plain _

@[simp] theorem Member.value_plain (name : String) (value : List Token) :
    (Member.plain name value).value = value := rfl

/-- The name and the text of a member write it. -/
inductive Member.Writes : Member → String × String → Prop where
  | mk {name text : String} {value : List Token} :
      isPlain name = true → Spells value text.toList →
      Member.Writes (.plain name value) (name, text)

theorem spells_name {cs : List Char}
    (h : cs.all (fun c => c != '\x22' && c != '\\' && decide (0x20 ≤ c.toNat)) = true) :
    (Token.text (cs.map .plain)).Spells ('\x22' :: (cs ++ ['\x22'])) := by
  have hpieces : List.Forall₂ Piece.Spells (cs.map .plain) (cs.map fun c => [c]) := by
    refine forall₂_map fun c hc => ?_
    have hplain := List.all_eq_true.1 h c hc
    simp only [Bool.and_eq_true, bne_iff_ne, decide_eq_true_eq] at hplain
    exact .plain hplain.1.1 hplain.1.2 hplain.2
  have hflat : (cs.map fun c => [c]).flatten = cs := by
    rw [← List.flatMap_def, List.flatMap_singleton']
  simpa only [hflat] using Token.Spells.text hpieces

theorem spells_member {m : Member} {w : String × String} (h : m.Writes w) :
    Spells m.tokens (member w.1 w.2).toList := by
  cases h with
  | mk hplain hvalue =>
    have hmember := Spells.cons (spells_name hplain) (Spells.cons .colon hvalue)
    simpa [member, Member.tokens, Member.plain] using hmember

theorem spells_object {members : List Member} {texts : List (String × String)}
    (h : List.Forall₂ Member.Writes members texts) :
    Spells (objectTokens members) (object texts).toList := by
  have hrows : List.Forall₂ Json.Spells (members.map Member.tokens)
      ((texts.map fun m => member m.1 m.2).map String.toList) := by
    rw [List.map_map, List.forall₂_map_left_iff, List.forall₂_map_right_iff]
    exact h.imp fun _ _ => spells_member
  have hobject := (Spells.cons .openObject (spells_intercalate hrows)).append (.single .closeObject)
  simpa [object, objectTokens, String.toList_intercalate] using hobject

end Writing
end Json
end PackPlan
