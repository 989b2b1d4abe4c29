import Mathlib.Data.List.Chain
import Mathlib.Data.List.TakeDrop
import PackPlan.Proofs.Json.Value

/-!
# PackPlan.Proofs.Json.Text

From characters back to the tokens they write (`tokens_of_spells`), one lemma for each part of a
token. A number ends where the next character cannot be a part of it (`Detached`); in a value, no
number comes right after another (`IsValue.apart`), so what follows a number is detached from it.
-/

namespace PackPlan
namespace Json

open Numeral (IsDigits)

/-! ## Numbers -/

/-- The characters that follow are no part of a number before them. -/
def Detached (cs : List Char) : Prop :=
  ∀ c ∈ cs.head?, c.isDigit = false ∧ c ≠ '.' ∧ c ≠ 'e' ∧ c ≠ 'E'

section Number

variable {cs ds rest text : List Char}

theorem digits_append (hds : ∀ c ∈ ds, c.isDigit = true)
    (hrest : ∀ c ∈ rest.head?, c.isDigit = false) : digits (ds ++ rest) = (ds, rest) := by
  rw [digits, List.span_eq_takeWhile_dropWhile, List.takeWhile_append_of_pos hds,
    List.dropWhile_append_of_pos hds]
  cases rest with
  | nil => simp
  | cons c others =>
    have hc : ¬c.isDigit = true := by simp [hrest c rfl]
    rw [List.takeWhile_cons_of_neg hc, List.dropWhile_cons_of_neg hc, List.append_nil]

theorem fraction?_append {fraction : Option (List Char)} (h : SpellsFraction fraction text)
    (hrest : ∀ c ∈ rest.head?, c.isDigit = false ∧ c ≠ '.') :
    fraction? (text ++ rest) = some (fraction, rest) := by
  cases h with
  | none =>
    rw [List.nil_append, fraction?]
    rintro others rfl
    exact (hrest '.' rfl).2 rfl
  | @some ds hd =>
    rw [List.cons_append, fraction?, digits_append hd.digits fun c hc => (hrest c hc).1]
    cases ds with
    | nil => exact absurd rfl hd.ne_nil
    | cons c others => rfl

theorem exponentSign_append {sign : Option Bool} (h : SpellsSign sign text) (hd : IsDigits ds) :
    exponentSign (text ++ (ds ++ rest)) = (sign, ds ++ rest) := by
  cases h with
  | plus => rfl
  | minus => rfl
  | none =>
    cases ds with
    | nil => exact absurd rfl hd.ne_nil
    | cons c others =>
      have hc := hd.digits c List.mem_cons_self
      rw [List.nil_append, List.cons_append, exponentSign]
      all_goals
        rintro others' heq
        rw [(List.cons.inj heq).1] at hc
        exact absurd hc (by decide)

theorem exponent?_append {exponent : Option Exponent} (h : SpellsExponent exponent text)
    (hrest : Detached rest) : exponent? (text ++ rest) = some (exponent, rest) := by
  cases h with
  | none =>
    rw [List.nil_append]
    cases rest with
    | nil => rfl
    | cons c others =>
      obtain ⟨-, -, he, hE⟩ := hrest c rfl
      simp [exponent?, he, hE]
  | @some letter sign signText ds hletter hsign hd =>
    have hl : (letter == 'e' || letter == 'E') = true := by rcases hletter with rfl | rfl <;> rfl
    rw [List.cons_append, List.append_assoc]
    simp only [exponent?, hl, if_true, exponentSign_append hsign hd,
      digits_append hd.digits fun c hc => (hrest c hc).1]
    cases ds with
    | nil => exact absurd rfl hd.ne_nil
    | cons c others => rfl

theorem SpellsExponent.head {exponent : Option Exponent} (h : SpellsExponent exponent text)
    (hrest : Detached rest) : ∀ c ∈ (text ++ rest).head?, c.isDigit = false ∧ c ≠ '.' := by
  cases h with
  | none => exact fun c hc => ⟨(hrest c hc).1, (hrest c hc).2.1⟩
  | some hletter =>
    intro c hc
    obtain rfl := Option.some.inj hc
    rcases hletter with rfl | rfl <;> decide

theorem SpellsFraction.head {fraction : Option (List Char)} (h : SpellsFraction fraction text)
    (hrest : ∀ c ∈ rest.head?, c.isDigit = false) :
    ∀ c ∈ (text ++ rest).head?, c.isDigit = false := by
  cases h with
  | none => exact hrest
  | some =>
    intro c hc
    obtain rfl := Option.some.inj hc
    rfl

theorem literal?_append {negative : Bool} {whole fractionText exponentText : List Char}
    {fraction : Option (List Char)} {exponent : Option Exponent} (hw : IsDigits whole)
    (hzero : ∀ others, whole = '0' :: others → others = [])
    (hf : SpellsFraction fraction fractionText) (he : SpellsExponent exponent exponentText)
    (hrest : Detached rest) :
    literal? negative (whole ++ (fractionText ++ (exponentText ++ rest))) =
      some (⟨negative, whole, fraction, exponent⟩, rest) := by
  have hhead := he.head hrest
  have hdigits := digits_append hw.digits (hf.head fun c hc => (hhead c hc).1)
  simp only [literal?, hdigits]
  split
  · rename_i heq
    exact absurd (congrArg Prod.fst heq) hw.ne_nil
  · rename_i heq
    exact absurd (hzero _ (congrArg Prod.fst heq)) (List.cons_ne_nil _ _)
  · rename_i heq
    obtain ⟨rfl, rfl⟩ := Prod.mk.inj heq
    simp only [fraction?_append hf hhead, exponent?_append he hrest]

theorem token?_of_isDigit {c : Char} (hc : c.isDigit = true) :
    token? (c :: rest) =
      (literal? false (c :: rest)).map fun (literal, rest) => (.number literal, rest) := by
  simp only [token?]
  split
  all_goals first
    | rfl
    | rename_i heq
      rw [(List.cons.inj heq).1] at hc
      exact absurd hc (by decide)

theorem token?_number {literal : Literal} (h : literal.Spells text) (hrest : Detached rest) :
    token? (text ++ rest) = some (.number literal, rest) := by
  cases h with
  | @mk negative whole fractionText exponentText _ _ hw hzero hf he =>
    have hl : ∀ negative, literal? negative (whole ++ (fractionText ++ (exponentText ++ rest))) =
        some (⟨negative, whole, _, _⟩, rest) := fun _ => literal?_append hw hzero hf he hrest
    cases negative with
    | true =>
      simp only [if_true, List.cons_append, List.nil_append, List.append_assoc, token?, hl]
      rfl
    | false =>
      simp only [Bool.false_eq_true, if_false, List.append_assoc, List.nil_append]
      cases whole with
      | nil => exact absurd rfl hw.ne_nil
      | cons c others =>
        rw [List.cons_append, token?_of_isDigit (hw.digits c List.mem_cons_self),
          ← List.cons_append, hl]
        rfl

end Number

/-! ## Strings -/

section Strings

variable {rest : List Char}

theorem shortEscape?_of_mem {letter c : Char} (h : (letter, c) ∈ shortEscapes) :
    shortEscape? letter = some c ∧ letter ≠ 'u' := by
  simp only [shortEscapes, List.mem_cons, Prod.mk.injEq, List.not_mem_nil, or_false] at h
  rcases h with ⟨rfl, rfl⟩ | ⟨rfl, rfl⟩ | ⟨rfl, rfl⟩ | ⟨rfl, rfl⟩ | ⟨rfl, rfl⟩ | ⟨rfl, rfl⟩ |
    ⟨rfl, rfl⟩ | ⟨rfl, rfl⟩ <;> exact ⟨rfl, by decide⟩

theorem digit?_of_isHexDigit {c : Char} {n : Nat} (h : IsHexDigit c n) :
    Numeral.digit? 16 c = some n := by
  obtain ⟨hn, hc⟩ := h
  have hall : ∀ n < 16, Numeral.digit? 16 (Nat.digitChar n) = some n ∧
      Numeral.digit? 16 (Nat.digitChar n).toUpper = some n := by decide
  rcases hc with rfl | rfl
  · exact (hall n hn).1
  · exact (hall n hn).2

theorem pieces?_append {piece : Piece} {word : List Char} (h : piece.Spells word) :
    pieces? (word ++ rest) = (pieces? rest).map fun (others, rest) => (piece :: others, rest) := by
  cases h with
  | plain hquote hback hcontrol =>
    rename_i c
    have hc : ¬((c == '\\' || decide (c.toNat < 0x20)) = true) := by simp [hback, hcontrol]
    rw [List.singleton_append, pieces?]
    · rw [if_neg hc]
      cases pieces? rest <;> rfl
    all_goals simp [hquote, hback]
  | @short letter c hmem =>
    obtain ⟨hshort, hu⟩ := shortEscape?_of_mem hmem
    rw [List.cons_append, List.singleton_append, pieces?]
    · rw [hshort]
      cases pieces? rest <;> rfl
    · simp [hu]
  | @unit a b c d w x y z ha hb hc hd =>
    have hn : Numeral.natural? 16 [a, b, c, d] = some (((w * 16 + x) * 16 + y) * 16 + z) := by
      simp only [Numeral.natural?, Numeral.extend?, digit?_of_isHexDigit ha,
        digit?_of_isHexDigit hb, digit?_of_isHexDigit hc, digit?_of_isHexDigit hd, Nat.zero_mul,
        Nat.zero_add]
    simp only [List.cons_append, List.nil_append, pieces?, hn]
    cases pieces? rest <;> rfl

theorem pieces?_flatten {pieces : List Piece} {words : List (List Char)}
    (h : List.Forall₂ Piece.Spells pieces words) :
    pieces? (words.flatten ++ '\x22' :: rest) = some (pieces, rest) := by
  induction h with
  | nil => rfl
  | cons hp _ ih => rw [List.flatten_cons, List.append_assoc, pieces?_append hp, ih]; rfl

end Strings

/-! ## Tokens -/

section Tokens

variable {token : Token} {ts : List Token} {cs word rest : List Char}

theorem Token.Spells.head (h : token.Spells word) :
    ∃ c others, word = c :: others ∧ isSpace c = false := by
  cases h with
  | number hl =>
    cases hl with
    | @mk negative whole _ _ _ _ hw =>
      cases negative with
      | true => exact ⟨_, _, rfl, rfl⟩
      | false =>
        cases whole with
        | nil => exact absurd rfl hw.ne_nil
        | cons c others =>
          refine ⟨c, _, rfl, ?_⟩
          have hc := hw.digits c List.mem_cons_self
          rw [Bool.eq_false_iff]
          intro hs
          simp only [isSpace, Bool.or_eq_true, beq_iff_eq] at hs
          rcases hs with ((rfl | rfl) | rfl) | rfl <;> exact absurd hc (by decide)
  | _ => exact ⟨_, _, rfl, rfl⟩

theorem token?_append (h : token.Spells word) (hrest : ∀ l, token = .number l → Detached rest) :
    token? (word ++ rest) = some (token, rest) := by
  cases h with
  | number hl => exact token?_number hl (hrest _ rfl)
  | @text pieces words hp =>
    have hpieces : pieces? (words.flatten ++ '\x22' :: rest) = _ := pieces?_flatten hp
    simp only [List.cons_append, List.append_assoc, List.nil_append, token?, hpieces,
      Option.map_some]
  | _ => rfl

theorem skipSpace_append {space : List Char} (hs : AllSpace space)
    (hrest : ∀ c ∈ rest.head?, isSpace c = false) (p : Place) :
    ∃ p', skipSpace p (space ++ rest) = (p', rest) := by
  induction space generalizing p with
  | nil =>
    cases rest with
    | nil => exact ⟨p, rfl⟩
    | cons c others =>
      have hc := hrest c rfl
      have hline : ¬((c == '\n') = true) := by
        intro h
        rw [beq_iff_eq.1 h] at hc
        exact absurd hc (by decide)
      exact ⟨p, by simp only [List.nil_append, skipSpace, if_neg hline, hc, Bool.false_eq_true,
        if_false]⟩
  | cons c others ih =>
    have hc : isSpace c = true := hs c List.mem_cons_self
    have hothers : AllSpace others := fun x hx => hs x (List.mem_cons_of_mem _ hx)
    simp only [List.cons_append, skipSpace, hc, if_true]
    split <;> exact ih hothers _

/-- What follows a number is detached from it unless it is another number. -/
theorem Spells.detached (h : Spells ts cs) (hn : ∀ l, .number l ∉ ts.head?) : Detached cs := by
  have hspace : ∀ {c : Char}, isSpace c = true →
      c.isDigit = false ∧ c ≠ '.' ∧ c ≠ 'e' ∧ c ≠ 'E' := by
    intro c hs
    simp only [isSpace, Bool.or_eq_true, beq_iff_eq] at hs
    rcases hs with ((rfl | rfl) | rfl) | rfl <;> decide
  cases h with
  | finish hs => exact fun c hc => hspace (hs c (List.mem_of_mem_head? hc))
  | @token token others space word rest hs hword hothers =>
    cases space with
    | cons c more =>
      rintro c' hc'
      obtain rfl := Option.some.inj hc'
      exact hspace (hs c List.mem_cons_self)
    | nil =>
      cases hword with
      | number => exact absurd rfl (hn _)
      | _ =>
        rintro c hc
        obtain rfl := Option.some.inj hc
        decide

/-- No number comes right after another. -/
def Apart (ts : List Token) : Prop :=
  ts.IsChain fun t next => ∀ l m, t = .number l → next ≠ .number m

theorem tokensFrom_of_spells (h : Spells ts cs) (ha : Apart ts) :
    ∀ (fuel : Nat) (p : Place), cs.length < fuel →
      (tokensFrom fuel p cs).map Placed.token = ts ++ [.finish] := by
  induction h with
  | @finish space hs =>
    intro fuel p hfuel
    obtain ⟨fuel, rfl⟩ : ∃ n, fuel = n + 1 := ⟨fuel - 1, by omega⟩
    have hskip : ∃ p', skipSpace p (space ++ []) = (p', []) := skipSpace_append hs (by simp) p
    obtain ⟨p', hskip⟩ := hskip
    rw [List.append_nil] at hskip
    simp only [tokensFrom, hskip, List.map_cons, List.map_nil, List.nil_append]
  | @token token others space word rest hs hword hothers ih =>
    intro fuel p hfuel
    obtain ⟨fuel, rfl⟩ : ∃ n, fuel = n + 1 := ⟨fuel - 1, by omega⟩
    obtain ⟨hnext, hapart⟩ := List.isChain_cons.1 ha
    obtain ⟨c, more, rfl, hc⟩ := hword.head
    have hread : token? ((c :: more) ++ rest) = some (token, rest) := by
      refine token?_append hword ?_
      rintro l rfl
      exact hothers.detached fun m hm => hnext _ hm l m rfl rfl
    have hhead : ∀ c' ∈ ((c :: more) ++ rest).head?, isSpace c' = false := by
      intro c' hc'
      obtain rfl := Option.some.inj hc'
      exact hc
    obtain ⟨p', hskip⟩ := skipSpace_append hs hhead p
    have hlen : rest.length < fuel := by
      simp only [List.length_append, List.length_cons] at hfuel
      omega
    rw [List.cons_append] at hread hskip
    simp only [tokensFrom, List.cons_append, hskip, hread, List.map_cons, ih hapart fuel _ hlen]

theorem tokens_of_spells {text : String} (h : Spells ts text.toList) (ha : Apart ts) :
    (tokens text).map Placed.token = ts ++ [.finish] :=
  tokensFrom_of_spells h ha _ _ (Nat.lt_succ_self _)

end Tokens

/-! ## Values -/

section Values

variable {t : Token} {ts others : List Token}

theorem Apart.cons (ht : ∀ l, t ≠ .number l) (h : Apart ts) : Apart (t :: ts) :=
  List.isChain_cons.2 ⟨fun _ _ l _ hl => absurd hl (ht l), h⟩

theorem Apart.append (ht : ∀ l, t ≠ .number l) (h : Apart ts) (hothers : Apart others) :
    Apart (ts ++ t :: others) := by
  refine List.isChain_append.2 ⟨h, hothers.cons ht, ?_⟩
  rintro x _ y hy l m rfl rfl
  exact ht m (Option.some.inj hy)

theorem apart_intercalate {rows : List (List Token)} (h : ∀ row ∈ rows, Apart row) :
    Apart ([.comma].intercalate rows) := by
  induction rows with
  | nil => exact .nil
  | cons first rest ih =>
    obtain ⟨hfirst, hrest⟩ := List.forall_mem_cons.1 h
    cases rest with
    | nil => rwa [List.intercalate_singleton]
    | cons next more =>
      rw [List.intercalate_cons_cons, List.append_assoc]
      exact Apart.append (by simp) hfirst (ih hrest)

theorem apart_enclosed {first last : Token} (hfirst : ∀ l, first ≠ .number l)
    (hlast : ∀ l, last ≠ .number l) (h : Apart ts) : Apart (first :: ts ++ [last]) :=
  (h.append hlast .nil).cons hfirst

theorem IsValue.apart (h : IsValue ts) : Apart ts := by
  induction h with
  | list _ ih => exact apart_enclosed (by simp) (by simp) (apart_intercalate ih)
  | object _ ih =>
    refine apart_enclosed (by simp) (by simp) (apart_intercalate ?_)
    intro row hrow
    obtain ⟨m, hm, rfl⟩ := List.mem_map.1 hrow
    exact Apart.cons (by simp) (Apart.cons (by simp) (ih m hm))
  | _ => exact .singleton _

end Values
end Json
end PackPlan
