import Mathlib.Data.List.Basic
import PackPlan.Numeral

/-!
# PackPlan.Proofs.Numeral

Which texts write which number. `Writes` is the grammar of signed decimal numerals, with the value
that the core library gives to a row of digits; `quantity?_eq_some` says that a text is read as a
quantity exactly when it writes one. A number is written by its own digits, with any zeros before
them (`isDigits_zeros`), and the text that it is shown as writes it (`writes_toString`).
-/

namespace PackPlan
namespace Numeral

/-- At least one ASCII digit and nothing else. -/
structure IsDigits (cs : List Char) : Prop where
  ne_nil : cs ≠ []
  digits : ∀ c ∈ cs, c.isDigit = true

theorem IsDigits.not_mem {cs : List Char} (h : IsDigits cs) {c : Char} (hc : c.isDigit = false) :
    c ∉ cs := by
  intro hm
  have hd := h.digits c hm
  rw [hc] at hd
  cases hd

/-- Signed decimal numerals and their values. -/
inductive Writes : List Char → Int → Prop where
  | plain {digits : List Char} : IsDigits digits → Writes digits (Nat.ofDigitChars 10 digits 0)
  | plus {digits : List Char} :
      IsDigits digits → Writes ('+' :: digits) (Nat.ofDigitChars 10 digits 0)
  | minus {digits : List Char} :
      IsDigits digits → Writes ('-' :: digits) (-(Nat.ofDigitChars 10 digits 0 : Int))

/-- The text writes this quantity. -/
def WritesQuantity (cs : List Char) (q : Int) : Prop := Writes cs q ∧ IsQuantity q

theorem digit?_ten (c : Char) :
    digit? 10 c = if c.isDigit then some (c.toNat - '0'.toNat) else none := by
  by_cases h : c.isDigit
  · have hrange := Char.isDigit_iff_toNat.1 h
    have hle : '0' ≤ c ∧ c ≤ '9' := ⟨hrange.1, hrange.2⟩
    have hlt : c.toNat - '0'.toNat < 10 := by
      have := hrange.2
      simp only [Char.reduceToNat] at *
      omega
    simp only [digit?, digitValue?, if_pos hle, if_pos h, Option.filter_some, decide_eq_true hlt,
      if_true]
  · have hle : ¬('0' ≤ c ∧ c ≤ '9') := fun hc => h (Char.isDigit_iff_toNat.2 ⟨hc.1, hc.2⟩)
    simp only [digit?, digitValue?, if_neg hle, if_neg h]
    -- a letter counts from ten, so it is no decimal digit
    split
    · exact Option.filter_some_neg (by simp)
    · split
      · exact Option.filter_some_neg (by simp)
      · rfl

theorem extend?_ten (value : Nat) (cs : List Char) :
    extend? 10 value cs =
      if cs.all Char.isDigit then some (Nat.ofDigitChars 10 cs value) else none := by
  induction cs generalizing value with
  | nil => simp [extend?]
  | cons c rest ih =>
    simp only [extend?, digit?_ten]
    by_cases h : c.isDigit
    · simp only [h, if_true, ih, List.all_cons, Bool.true_and, Nat.ofDigitChars_cons, Nat.mul_comm]
    · simp [h]

theorem natural?_ten {cs : List Char} {n : Nat} :
    natural? 10 cs = some n ↔ IsDigits cs ∧ n = Nat.ofDigitChars 10 cs 0 := by
  cases cs with
  | nil => simp only [natural?, reduceCtorEq, false_iff]; exact fun h => h.1.ne_nil rfl
  | cons c rest =>
    simp only [natural?, extend?_ten]
    split
    · rename_i h
      rw [Option.some.injEq, eq_comm, and_iff_right ⟨List.cons_ne_nil c rest, List.all_eq_true.1 h⟩]
    · rename_i h
      simp only [reduceCtorEq, false_iff]
      exact fun hd => h (List.all_eq_true.2 hd.1.digits)

theorem not_isDigits_sign {c : Char} {rest : List Char} (h : c.isDigit = false) :
    ¬IsDigits (c :: rest) := by
  intro hd
  have hc := hd.digits c List.mem_cons_self
  rw [h] at hc
  cases hc

theorem integer?_ten {cs : List Char} {q : Int} : integer? 10 cs = some q ↔ Writes cs q := by
  constructor
  · intro h
    simp only [integer?] at h
    split at h
    all_goals
      obtain ⟨n, hn, rfl⟩ := Option.map_eq_some_iff.1 h
      obtain ⟨hd, rfl⟩ := natural?_ten.1 hn
    · exact .plus hd
    · exact .minus hd
    · exact .plain hd
  · intro h
    cases h with
    | plus hd => simp only [integer?, natural?_ten.2 ⟨hd, rfl⟩]; rfl
    | minus hd => simp only [integer?, natural?_ten.2 ⟨hd, rfl⟩]; rfl
    | plain hd =>
      simp only [integer?]
      split
      · exact absurd hd (not_isDigits_sign rfl)
      · exact absurd hd (not_isDigits_sign rfl)
      · rw [natural?_ten.2 ⟨hd, rfl⟩]; rfl

/-- A text is read as a quantity exactly when it writes one. -/
theorem quantity?_eq_some {cs : List Char} {q : Int} :
    quantity? cs = some q ↔ WritesQuantity cs q := by
  rw [quantity?, Option.filter_eq_some_iff, integer?_ten, decide_eq_true_iff, WritesQuantity]

theorem quantity?_eq_none {cs : List Char} :
    quantity? cs = none ↔ ¬∃ q, WritesQuantity cs q := by
  rw [Option.eq_none_iff_forall_ne_some]
  simp only [ne_eq, quantity?_eq_some, not_exists]

/-- The digits of a number after any zeros write it. -/
theorem isDigits_zeros (zeros n : Nat) :
    IsDigits (List.replicate zeros '0' ++ Nat.toDigits 10 n) ∧
      Nat.ofDigitChars 10 (List.replicate zeros '0' ++ Nat.toDigits 10 n) 0 = n := by
  refine ⟨⟨by simp, ?_⟩, ?_⟩
  · intro c hc
    rcases List.mem_append.1 hc with hz | hd
    · rw [List.eq_of_mem_replicate hz]; rfl
    · exact Nat.isDigit_of_mem_toDigits (by decide) (by decide) hd
  · rw [Nat.ofDigitChars_append, Nat.ofDigitChars_replicate_zero, Nat.mul_zero,
      Nat.ofDigitChars_ten_toDigits]

theorem isDigits_toDigits (n : Nat) : IsDigits (Nat.toDigits 10 n) := (isDigits_zeros 0 n).1

theorem natural?_toDigits (n : Nat) : natural? 10 (Nat.toDigits 10 n) = some n :=
  natural?_ten.2 ⟨isDigits_toDigits n, Nat.ofDigitChars_ten_toDigits.symm⟩

/-! ## Written numbers -/

/-- The digits of a positive number do not start with zero. -/
theorem head_toDigits {n : Nat} (h : 0 < n) : ∀ c ∈ (Nat.toDigits 10 n).head?, c ≠ '0' := by
  induction n using Nat.strongRecOn with
  | ind n ih =>
    by_cases hlt : n < 10
    · rw [Nat.toDigits_of_lt_base hlt]
      intro c hc
      obtain rfl := Option.some.inj hc
      rw [ne_eq, Nat.digitChar_eq_zero]
      omega
    · have hdiv : 0 < n / 10 := Nat.div_pos (by omega) (by decide)
      have hne : Nat.toDigits 10 (n / 10) ≠ [] := (isDigits_toDigits _).ne_nil
      rw [Nat.toDigits_of_base_le (by decide) (by omega), List.head?_append_of_ne_nil _ hne]
      exact ih (n / 10) (Nat.div_lt_self h (by decide)) hdiv

theorem toDigits_zero_cons {n : Nat} {others : List Char} (h : Nat.toDigits 10 n = '0' :: others) :
    others = [] := by
  rcases Nat.eq_zero_or_pos n with rfl | hn
  · rw [Nat.toDigits_zero] at h
    exact (List.cons.inj h).2.symm
  · exact absurd rfl (head_toDigits hn '0' (by rw [h]; rfl))

theorem toList_toString_nat (n : Nat) : (toString n).toList = Nat.toDigits 10 n := Nat.toList_repr

theorem toList_toString_int (x : Int) :
    (toString x).toList = (if decide (x < 0) then ['-'] else []) ++ Nat.toDigits 10 x.natAbs := by
  rw [Int.toString_eq_repr, Int.repr_eq_if]
  by_cases hx : x < 0
  · have hneg : (-x).toNat = x.natAbs := by omega
    simp [hx, Int.not_le.2 hx, hneg, Nat.toList_repr]
  · have hpos : x.toNat = x.natAbs := by omega
    simp [hx, Int.not_lt.1 hx, hpos, Nat.toList_repr]

/-- A written integer holds digits, and a minus sign at most. -/
theorem mem_toString_int {x : Int} {c : Char} (h : c ∈ (toString x).toList) :
    c = '-' ∨ c.isDigit = true := by
  rw [toList_toString_int] at h
  rcases List.mem_append.1 h with hs | hd
  · split at hs
    · exact .inl (List.mem_singleton.1 hs)
    · cases hs
  · exact .inr ((isDigits_toDigits _).digits c hd)

theorem not_mem_toString_int {c : Char} (x : Int) (hsign : c ≠ '-') (hdigit : c.isDigit = false) :
    c ∉ (toString x).toList := by
  intro h
  rcases mem_toString_int h with rfl | hd
  · exact hsign rfl
  · rw [hdigit] at hd
    cases hd

theorem not_mem_toString_nat {c : Char} (n : Nat) (hdigit : c.isDigit = false) :
    c ∉ (toString n).toList := by
  rw [toList_toString_nat]
  exact (isDigits_toDigits n).not_mem hdigit

theorem writes_toString (x : Int) : Writes (toString x).toList x := by
  rw [toList_toString_int]
  by_cases hx : x < 0
  · have hneg : x = -(Nat.ofDigitChars 10 (Nat.toDigits 10 x.natAbs) 0 : Int) := by
      rw [Nat.ofDigitChars_ten_toDigits]
      omega
    rw [if_pos (decide_eq_true hx), List.singleton_append]
    nth_rewrite 2 [hneg]
    exact .minus (isDigits_toDigits _)
  · have hpos : x = (Nat.ofDigitChars 10 (Nat.toDigits 10 x.natAbs) 0 : Int) := by
      rw [Nat.ofDigitChars_ten_toDigits]
      omega
    rw [if_neg (by simpa using hx), List.nil_append]
    nth_rewrite 2 [hpos]
    exact .plain (isDigits_toDigits _)

theorem integer?_toString (x : Int) : integer? 10 (toString x).toList = some x :=
  integer?_ten.2 (writes_toString x)

theorem natural?_toString (n : Nat) : natural? 10 (toString n).toList = some n := by
  rw [toList_toString_nat]
  exact natural?_toDigits n

end Numeral
end PackPlan
