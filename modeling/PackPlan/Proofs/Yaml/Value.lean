import PackPlan.Proofs.Numeral
import PackPlan.Proofs.Yaml.Document
import PackPlan.Yaml.Value

/-!
# PackPlan.Proofs.Yaml.Value

Integers in YAML. An integer is written by its own digits (`Word.ofInt`), which are read as nothing else:
they have no base, no plus sign and no leading zero (`signed?_ofInt`, `unsigned?_ofNat`).
-/

namespace PackPlan
namespace Yaml

open Numeral

theorem isWordChar_of_isDigit {c : Char} (h : c.isDigit = true) : isWordChar c = true := by
  simp only [isWordChar, Char.isAlphanum, h, Bool.or_true, Bool.true_or]

/-- The word that writes an integer. -/
def Word.ofInt (x : Int) : Word where
  minus := decide (x < 0)
  body := Nat.toDigits 10 x.natAbs
  ne_nil := (isDigits_toDigits _).ne_nil
  chars := fun c hc => isWordChar_of_isDigit ((isDigits_toDigits _).digits c hc)

theorem Word.text_ofInt (x : Int) : (Word.ofInt x).text = (toString x).toList := by
  rw [toList_toString_int, text, ofInt]
  cases decide (x < 0) <;> rfl

section Digits

variable {cs : List Char}

/-- Digits are not in a base of their own. -/
theorem based?_digits (h : IsDigits cs) : based? cs = none := by
  rw [based?.eq_def]
  split
  · exact absurd (List.mem_cons_of_mem _ List.mem_cons_self) (h.not_mem (c := 'x') rfl)
  · exact absurd (List.mem_cons_of_mem _ List.mem_cons_self) (h.not_mem (c := 'o') rfl)
  · exact absurd (List.mem_cons_of_mem _ List.mem_cons_self) (h.not_mem (c := 'b') rfl)
  · rfl

theorem withoutPlus?_digits (h : IsDigits cs) : withoutPlus? cs = some cs := by
  rw [withoutPlus?.eq_def]
  split
  · exact absurd List.mem_cons_self (h.not_mem (c := '+') rfl)
  · exact absurd List.mem_cons_self (h.not_mem (c := '+') rfl)
  · exact absurd List.mem_cons_self (h.not_mem (c := '+') rfl)
  · rfl

end Digits

/-- Digits that start with zero are zero alone. -/
theorem hasLeadingZero_toDigits (n : Nat) : hasLeadingZero (Nat.toDigits 10 n) = false := by
  have hd := isDigits_toDigits n
  have hsign : ∀ c rest, Nat.toDigits 10 n = c :: rest → c.isDigit = false → False :=
    fun c rest heq hc => hd.not_mem hc (heq ▸ List.mem_cons_self)
  simp only [hasLeadingZero]
  split
  · rename_i heq
    split at heq
    · rename_i hminus; exact (hsign _ _ hminus rfl).elim
    · rename_i hplus; exact (hsign _ _ hplus rfl).elim
    · cases toDigits_zero_cons heq
  · rfl

theorem hasLeadingZero_minus (n : Nat) : hasLeadingZero ('-' :: Nat.toDigits 10 n) = false := by
  simp only [hasLeadingZero]
  split
  · rename_i heq
    cases toDigits_zero_cons heq
  · rfl

theorem unsigned?_toDigits (n : Nat) : unsigned? (Nat.toDigits 10 n) = some n := by
  have hd := isDigits_toDigits n
  simp only [unsigned?, withoutPlus?_digits hd, based?_digits hd, hasLeadingZero_toDigits,
    Bool.false_eq_true, if_false, natural?_toDigits]

theorem unsigned?_ofNat (n : Nat) : unsigned? (Word.ofInt n).text = some n := by
  have htext : (Word.ofInt n).text = Nat.toDigits 10 n := by
    rw [Word.text_ofInt, toList_toString_int, decide_eq_false (by omega)]
    rfl
  rw [htext, unsigned?_toDigits]

theorem signed?_ofInt (x : Int) : signed? (Word.ofInt x).text = some x := by
  rw [Word.text_ofInt, toList_toString_int]
  have hd := isDigits_toDigits x.natAbs
  by_cases hx : x < 0
  · rw [decide_eq_true hx, if_pos rfl, List.singleton_append, signed?]
    simp only [based?_digits hd, hasLeadingZero_minus, Bool.false_eq_true, if_false, natural?_toDigits,
      Option.map_some, Option.some.injEq, Int.ofNat_eq_natCast]
    omega
  · rw [decide_eq_false hx, if_neg Bool.false_ne_true, List.nil_append, signed?.eq_def]
    split
    · rename_i heq
      exact absurd (heq ▸ List.mem_cons_self) (hd.not_mem (c := '-') rfl)
    · rw [unsigned?_toDigits, Option.map_some, Option.some.injEq, Int.ofNat_eq_natCast]
      omega

end Yaml
end PackPlan
