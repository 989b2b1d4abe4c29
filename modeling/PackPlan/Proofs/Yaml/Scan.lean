import Mathlib.Data.List.InsertIdx
import PackPlan.Proofs.Yaml.Document

/-!
# PackPlan.Proofs.Yaml.Scan

What the scanner does with the characters of a document of lines. The characters of a word are read one
by one as a plain scalar, and a colon, an indicator between brackets or the next line ends it
(`plainFrom_word`, `plainFrom_follows`). Of a scan only its `Outline` matters to what is read in the
end: the columns of the open blocks, and the tokens without their marks. `Outline.close` is what
closing blocks does to it, however the tokens are placed.
-/

namespace PackPlan
namespace Yaml

/-! ## Characters -/

/-- No gap starts with this character. -/
def isSolid (c : Char) : Bool := !(isBlank c || isBreak c || c == '#' || c == '\ufeff')

theorem isSolid_of_isInWord {c : Char} (h : isInWord c = true) : isSolid c = true := by
  simp (disch := decide) only [isSolid, isBlank, isBreak, beq_of_isInWord h, Bool.or_false,
    Bool.not_false]

theorem Begins.exists_head {cs : List Char} (h : Begins cs) :
    ∃ c rest, cs = c :: rest ∧ isSolid c = true := by
  obtain ⟨w, rest, rfl⟩ := h
  obtain ⟨c, more, heq, -⟩ := w.exists_head
  have hc := w.isInWord_of_mem c (heq ▸ List.mem_cons_self)
  exact ⟨c, more ++ rest, by rw [heq]; rfl, isSolid_of_isInWord hc⟩

theorem isBlank_of_isSolid {c : Char} (h : isSolid c = true) : isBlank c = false := by
  simp only [isSolid, Bool.not_eq_true', Bool.or_eq_false_iff] at h
  exact h.1.1.1

theorem isBreak_of_isSolid {c : Char} (h : isSolid c = true) : isBreak c = false := by
  simp only [isSolid, Bool.not_eq_true', Bool.or_eq_false_iff] at h
  exact h.1.1.2

theorem rightBy_rightBy (m : Mark) (a b : Nat) : (m.rightBy a).rightBy b = m.rightBy (a + b) := by
  simp only [Mark.rightBy, Nat.add_assoc]

theorem past_of_isInWord {c : Char} (h : isInWord c = true) (m : Mark) : m.past c = m.right :=
  Mark.past_eq_right (utf8Size_of_isInWord h)

/-! ## Plain scalars -/

section Plain

variable {flow : Bool} {indent : Int} {done rest tail : List Char} {gap : Gap} {m : Mark}

/-- The characters of a word are read one by one. -/
theorem plainFrom_word {cs : List Char} (h : ∀ c ∈ cs, isInWord c = true) :
    plainFrom flow indent done {} false m (cs ++ rest) =
      plainFrom flow indent (cs.reverse ++ done) {} false (m.rightBy cs.length) rest := by
  induction cs generalizing done m with
  | nil => rfl
  | cons c cs ih =>
    obtain ⟨hc, hcs⟩ := List.forall_mem_cons.1 h
    have hsolid := isSolid_of_isInWord hc
    have hcolon : (c == ':') = false := beq_of_isInWord hc rfl
    have hstray : isStrayColon flow c (cs ++ rest) = false := by
      cases cs ++ rest <;> simp [isStrayColon, hcolon]
    have hgoes : plainGoesOn flow c (cs ++ rest) = true := by
      simp (disch := decide) only [plainGoesOn, isFlowIndicator, beq_of_isInWord hc,
        Bool.false_and, Bool.or_false, Bool.and_false, Bool.not_false, Bool.and_true]
    have hgap : ({} : Gap).text.reverse ++ done = done := rfl
    rw [List.cons_append, plainFrom]
    simp only [isBreak_of_isSolid hsolid, isBlank_of_isSolid hsolid, hstray, hgoes, hgap,
      past_of_isInWord hc, Bool.false_and, Bool.false_eq_true, if_false, if_true]
    rw [ih hcs, List.reverse_cons, List.append_assoc, Mark.right, rightBy_rightBy,
      List.length_cons, Nat.add_comm 1]
    rfl

/-- A colon before a blank ends a scalar. -/
theorem plainFrom_colon (h : atBlank rest = true) :
    plainFrom false indent done {} false m (':' :: rest) =
      some ⟨done.reverse, false, ⟨m, ':' :: rest⟩⟩ := by
  have hstray : isStrayColon false ':' rest = false := by
    cases rest <;> rfl
  have hgoes : plainGoesOn false ':' rest = false := by
    simp [plainGoesOn, h]
  rw [plainFrom]
  simp only [show isBreak ':' = false from rfl, show isBlank ':' = false from rfl, hstray, hgoes,
    Bool.false_and, Bool.false_eq_true, if_false]

/-- Between brackets a comma or a bracket ends it too. -/
theorem plainFrom_indicator {c : Char} (h : c = ',' ∨ c = ']') :
    plainFrom true indent done {} false m (c :: rest) =
      some ⟨done.reverse, false, ⟨m, c :: rest⟩⟩ := by
  have hstray : isStrayColon true c rest = false := by
    cases rest <;> rcases h with rfl | rfl <;> rfl
  rcases h with rfl | rfl <;>
  · rw [plainFrom]
    simp only [hstray]
    rfl

theorem plainFrom_blanks (hgap : gap.broken = true) (n : Nat) :
    plainFrom false indent done gap true m (List.replicate n ' ' ++ tail) =
      plainFrom false indent done gap true (m.rightBy n) tail := by
  have hblank : gap.blank ' ' = gap := if_pos hgap
  induction n generalizing m with
  | zero => rfl
  | succ n ih =>
    rw [List.replicate_succ, List.cons_append, plainFrom]
    simp only [show isBreak ' ' = false from rfl, show isBlank ' ' = true from rfl,
      show (' ' == '\t') = false from rfl, hblank, Bool.and_false, Bool.false_eq_true, if_false,
      if_true]
    rw [ih, Mark.right, rightBy_rightBy, Nat.add_comm 1]

/-- What follows a line is the end of the text or a line at this column or before it. The end counts
as a line before all columns. -/
inductive Follows (most : Nat) : List Char → Int → List Char → Prop where
  | line {column : Nat} {tail : List Char} : column ≤ most → Begins tail →
      Follows most (newLine column ++ tail) column tail
  | lineBreak : Follows most ['\n'] (-1) []
  | stop : Follows most [] (-1) []

theorem Follows.mono {most more : Nat} {column : Int} (h : Follows most rest column tail)
    (hle : most ≤ more) : Follows more rest column tail := by
  cases h with
  | line hc hb => exact .line (Nat.le_trans hc hle) hb
  | lineBreak => exact .lineBreak
  | stop => exact .stop

theorem Follows.le {most : Nat} {column : Int} (h : Follows most rest column tail) :
    column ≤ most := by
  cases h <;> omega

theorem Follows.length_le {most : Nat} {column : Int} (h : Follows most rest column tail) :
    tail.length ≤ rest.length := by
  cases h <;> simp

/-- A scalar does not go on in a line that is not deeper. -/
theorem plainFrom_follows {most : Nat} {column : Int} (done : List Char) (m : Mark)
    (h : Follows most rest column tail) :
    ∃ broken after, plainFrom false (most + 1) done {} false m rest =
        some ⟨done.reverse, broken, ⟨after, tail⟩⟩ ∧
      (tail ≠ [] → broken = true ∧ (after.column : Int) = column) := by
  cases h with
  | stop => exact ⟨_, m, rfl, fun h => absurd rfl h⟩
  | lineBreak => exact ⟨_, m.nextLine, rfl, fun h => absurd rfl h⟩
  | @line column _ hle hbegins =>
    obtain ⟨c, more, rfl, hsolid⟩ := hbegins.exists_head
    refine ⟨true, m.nextLine.rightBy column, ?_, fun _ => ⟨rfl, by simp [Mark.rightBy,
      Mark.nextLine]⟩⟩
    have hcolumn : ((m.nextLine.rightBy column).column : Int) < most + 1 := by
      simp only [Mark.rightBy, Mark.nextLine]
      omega
    rw [newLine, List.cons_append, plainFrom, if_pos (show isBreak '\n' = true from rfl),
      plainFrom_blanks rfl, plainFrom]
    simp only [isBreak_of_isSolid hsolid, isBlank_of_isSolid hsolid, Bool.false_eq_true, if_false,
      Int.ofNat_eq_natCast, hcolumn, decide_true, Bool.not_false, Bool.true_and, Bool.true_or,
      if_true]
    rfl

end Plain

/-! ## Outlines -/

def kindsOf (ts : Array Placed) : List Token := ts.toList.map Placed.token

/-- The columns of the open blocks and the tokens so far, without their marks. -/
structure Outline where
  indent : Int
  outer : List Int
  kinds : List Token

namespace Outline

def push (l : Outline) (kinds : List Token) : Outline := { l with kinds := l.kinds ++ kinds }

/-- Opens a block at a column that is deeper. -/
def opened (l : Outline) (column : Int) : Outline :=
  if l.indent < column then ⟨column, l.indent :: l.outer, l.kinds ++ [.blockMappingStart]⟩ else l

def closeFrom (column : Int) (indent : Int) (kinds : List Token) : List Int → Outline
  | [] => ⟨indent, [], kinds⟩
  | around :: outer =>
    if column < indent then closeFrom column around (kinds ++ [.blockEnd]) outer
    else ⟨indent, around :: outer, kinds⟩

/-- Closes the blocks deeper than a column. -/
def close (column : Int) (l : Outline) : Outline := closeFrom column l.indent l.kinds l.outer

theorem close_of_le {l : Outline} {column : Int} (h : l.indent ≤ column) : l.close column = l := by
  obtain ⟨indent, outer, kinds⟩ := l
  cases outer with
  | nil => rfl
  | cons around outer => exact if_neg (Int.not_lt.2 h)

theorem close_opened {l : Outline} {column inner : Int} {kinds : List Token} (h : l.indent < inner)
    (hc : column < inner) :
    ((l.opened inner).push kinds).close column =
      (l.push (.blockMappingStart :: (kinds ++ [.blockEnd]))).close column := by
  simp only [opened, if_pos h, push, close, closeFrom, if_pos hc, List.append_assoc,
    List.cons_append, List.nil_append]

theorem close_close {l : Outline} {column deeper : Int} (h : column ≤ deeper) :
    (l.close deeper).close column = l.close column := by
  obtain ⟨indent, outer, kinds⟩ := l
  simp only [close]
  induction outer generalizing indent kinds with
  | nil => rfl
  | cons around outer ih =>
    by_cases hd : deeper < indent
    · have hc : column < indent := Int.lt_of_le_of_lt h hd
      simp only [closeFrom, if_pos hd, if_pos hc, ih]
    · simp only [closeFrom, if_neg hd]

theorem indent_opened {l : Outline} {column : Int} (h : l.indent ≤ column) :
    (l.opened column).indent = column := by
  rw [opened]
  split
  · rfl
  · omega

theorem opened_of_le {l : Outline} {column : Int} (h : column ≤ l.indent) : l.opened column = l :=
  if_neg (Int.not_lt.2 h)

theorem push_push (l : Outline) (ks more : List Token) :
    (l.push ks).push more = l.push (ks ++ more) := by
  simp only [push, List.append_assoc]

end Outline

namespace Scan

def outline (s : Scan) : Outline := ⟨s.indent, s.outer, kindsOf s.tokens⟩

theorem kindsOf_push (ts : Array Placed) (p : Placed) :
    kindsOf (ts.push p) = kindsOf ts ++ [p.token] := by
  simp [kindsOf]

/-- A token is put in where those that are known before it end. -/
theorem kindsOf_insert {ts : Array Placed} {before after : List Token} (p : Placed)
    (h : kindsOf ts = before ++ after) :
    kindsOf (ts.insertIdxIfInBounds before.length p) = before ++ p.token :: after := by
  obtain ⟨ps⟩ := ts
  have hmap : ∀ i, (ps.insertIdx i p).map Placed.token = (ps.map Placed.token).insertIdx i p.token :=
    fun i => List.map_insertIdx ..
  simp only [kindsOf] at h ⊢
  rw [List.insertIdxIfInBounds_toArray, hmap, h]
  clear h
  induction before with
  | nil => rfl
  | cons k before ih => rw [List.cons_append, List.length_cons, List.insertIdx_succ_cons, ih]; rfl

theorem closeFrom_outline (column : Int) (m : Mark) (indent : Int) (ts : Array Placed)
    (outer : List Int) :
    let (indent', outer', ts') := Scan.closeFrom column m indent ts outer
    (⟨indent', outer', kindsOf ts'⟩ : Outline) = Outline.closeFrom column indent (kindsOf ts) outer := by
  induction outer generalizing indent ts with
  | nil => rfl
  | cons around outer ih =>
    by_cases h : column < indent
    · have := ih around (ts.push ⟨.blockEnd, m, m⟩)
      rw [kindsOf_push] at this
      simpa only [Scan.closeFrom, Outline.closeFrom, if_pos h] using this
    · simp only [Scan.closeFrom, Outline.closeFrom, if_neg h]

section Blocks

variable {s : Scan} {column : Int}

theorem closeBlocks_outline (h : s.outerCandidates = []) :
    (s.closeBlocks column).outline = s.outline.close column := by
  have hflow : s.inFlow = false := by rw [inFlow, h]; rfl
  simp only [closeBlocks, hflow, Bool.false_eq_true, if_false]
  exact closeFrom_outline column s.mark s.indent s.tokens s.outer

theorem closeBlocks_of_le (h : s.indent ≤ column) : s.closeBlocks column = s := by
  obtain ⟨cursor, tokens, indent, outer, candidate, outerCandidates, keyAllowed⟩ := s
  have hclose : closeFrom column cursor.mark indent tokens outer = (indent, outer, tokens) := by
    cases outer with
    | nil => rfl
    | cons around outer => exact if_neg (Int.not_lt.2 h)
  simp only [closeBlocks, mark, hclose, ite_self]

theorem closeBlocks_of_inFlow (h : s.inFlow = true) : s.closeBlocks column = s := if_pos h

theorem closeBlocks_cursor : (s.closeBlocks column).cursor = s.cursor := by
  simp only [closeBlocks]
  split <;> rfl

theorem closeBlocks_candidate : (s.closeBlocks column).candidate = s.candidate := by
  simp only [closeBlocks]
  split <;> rfl

theorem closeBlocks_outerCandidates :
    (s.closeBlocks column).outerCandidates = s.outerCandidates := by
  simp only [closeBlocks]
  split <;> rfl

theorem closeBlocks_keyAllowed : (s.closeBlocks column).keyAllowed = s.keyAllowed := by
  simp only [closeBlocks]
  split <;> rfl

end Blocks

/-! ## Gaps -/

section Gaps

variable {s : Scan} {flow allowed : Bool} {m : Mark} {c : Char} {rest tail : List Char}

theorem skipGaps_solid (h : isSolid c = true) :
    skipGaps flow allowed false m (c :: rest) = (allowed, ⟨m, c :: rest⟩) := by
  simp only [isSolid, isBlank, Bool.not_eq_true', Bool.or_eq_false_iff] at h
  obtain ⟨⟨⟨⟨hspace, htab⟩, hbreak⟩, hcomment⟩, hmark⟩ := h
  simp only [skipGaps, hbreak, hspace, htab, hcomment, hmark, Bool.false_and, Bool.or_false,
    Bool.false_eq_true, if_false]

theorem skipGaps_blanks (n : Nat) :
    skipGaps flow allowed false m (List.replicate n ' ' ++ tail) =
      skipGaps flow allowed false (m.rightBy n) tail := by
  induction n generalizing m with
  | zero => rfl
  | succ n ih =>
    have hpast : m.past ' ' = m.right := Mark.past_eq_right (by decide)
    rw [List.replicate_succ, List.cons_append, skipGaps]
    simp only [show isBreak ' ' = false from rfl, beq_self_eq_true, Bool.or_true, Bool.true_or,
      Bool.false_eq_true, if_false, if_true, hpast]
    rw [ih, Mark.right, rightBy_rightBy, Nat.add_comm 1]

/-- After a line break a key may start. -/
theorem skipGaps_follows {most : Nat} {column : Int} (allowed : Bool) (m : Mark)
    (h : Follows most rest column tail) :
    ∃ allowed' after, skipGaps false allowed false m rest = (allowed', ⟨after, tail⟩) ∧
      (tail ≠ [] → allowed' = true ∧ (after.column : Int) = column) := by
  cases h with
  | stop => exact ⟨_, m, rfl, fun h => absurd rfl h⟩
  | lineBreak => exact ⟨_, m.nextLine, rfl, fun h => absurd rfl h⟩
  | @line column _ hle hbegins =>
    obtain ⟨c, more, rfl, hsolid⟩ := hbegins.exists_head
    refine ⟨true, m.nextLine.rightBy column, ?_, fun _ => ⟨rfl, by simp [Mark.rightBy,
      Mark.nextLine]⟩⟩
    rw [newLine, List.cons_append, skipGaps, if_pos (show isBreak '\n' = true from rfl),
      skipGaps_blanks, skipGaps_solid hsolid, Bool.not_false, Bool.or_true]

theorem toNext_solid (hc : isSolid c = true) (h : s.cursor.rest = c :: rest) : s.toNext = s := by
  obtain ⟨⟨m, cs⟩, _, _, _, _, _, _⟩ := s
  simp only at h
  subst h
  simp only [toNext, skipGaps_solid hc]

theorem toNext_nil (h : s.cursor.rest = []) : s.toNext = s := by
  obtain ⟨⟨m, cs⟩, _, _, _, _, _, _⟩ := s
  simp only at h
  subst h
  rfl

end Gaps

end Scan
end Yaml
end PackPlan
