import PackPlan.Proofs.Yaml.Scan

/-!
# PackPlan.Proofs.Yaml.Layout

The tokens of a document of lines. `Reaches` relates two scans where reading goes on from the second as
it would from the first, so the reading of a document is put together from that of its parts: a key
with its colon (`Arrives.key`), a word (`Stands.word`), a list (`Stands.listText`). By induction on the
document, lines are read up to whatever stands after them at their column or before it (`Lines.reads`).
Its tokens are `Lines.kinds` then (`Lines.tokens?`).

A key is known by the colon after it, and only if it stands within 1024 octets before the colon. Where
one does not, no token follows and the whole text is refused (`Lines.fails`).
-/

namespace PackPlan
namespace Yaml
namespace Scan

/-! ## Reading on -/

/-- The scan before its next token: past the gap, with the deeper blocks closed. -/
def ready? (s : Scan) : Option Scan :=
  s.toNext.refreshAll?.map fun s => s.closeBlocks s.mark.column

theorem run?_succ (fuel : Nat) (s : Scan) :
    run? (fuel + 1) s =
      match s.ready? with
      | none => none
      | some s =>
        match s.cursor.rest with
        | [] => s.finish?
        | c :: rest =>
          match s.token? c rest with
          | none => none
          | some s => run? fuel s := by
  rw [run?, ready?]
  cases s.toNext.refreshAll? with
  | none => rfl
  | some s => rfl

/-- Reading comes from one scan to another, if there is fuel for what is left of the text. -/
def Reaches (s t : Scan) : Prop :=
  ∀ fuel, s.cursor.rest.length < fuel →
    ∃ left, t.cursor.rest.length < left ∧ run? fuel s = run? left t

/-- Nothing can be read from here. -/
def Fails (s : Scan) : Prop := ∀ fuel, s.cursor.rest.length < fuel → run? fuel s = none

section Reaches

variable {s t u r : Scan} {c : Char} {rest : List Char}

theorem Reaches.refl (s : Scan) : Reaches s s := fun fuel hfuel => ⟨fuel, hfuel, rfl⟩

theorem Reaches.trans (h : Reaches s t) (h' : Reaches t u) : Reaches s u := by
  intro fuel hfuel
  obtain ⟨left, hleft, heq⟩ := h fuel hfuel
  obtain ⟨less, hless, heq'⟩ := h' left hleft
  exact ⟨less, hless, heq.trans heq'⟩

theorem Reaches.fails (h : Reaches s t) (hf : Fails t) : Fails s := by
  intro fuel hfuel
  obtain ⟨left, hleft, heq⟩ := h fuel hfuel
  rw [heq, hf left hleft]

/-- A token takes one character at least. -/
theorem Reaches.token (hready : s.ready? = some r) (hrest : r.cursor.rest = c :: rest)
    (htoken : r.token? c rest = some t) (hlen : t.cursor.rest.length < s.cursor.rest.length) :
    Reaches s t := by
  intro fuel hfuel
  cases fuel with
  | zero => exact absurd hfuel (Nat.not_lt_zero _)
  | succ fuel =>
    refine ⟨fuel, by omega, ?_⟩
    simp only [run?_succ, hready, hrest, htoken]

theorem Fails.token (hready : s.ready? = some r) (hrest : r.cursor.rest = c :: rest)
    (htoken : r.token? c rest = none) : Fails s := by
  intro fuel _
  cases fuel with
  | zero => rfl
  | succ fuel => simp only [run?_succ, hready, hrest, htoken]

theorem Fails.ready (hready : s.ready? = none) : Fails s := by
  intro fuel _
  cases fuel with
  | zero => rfl
  | succ fuel => simp only [run?_succ, hready]

/-- A gap is passed over before the next token anyway. -/
theorem Reaches.toNext (h : s.toNext.toNext = s.toNext)
    (hlen : s.toNext.cursor.rest.length ≤ s.cursor.rest.length) : Reaches s s.toNext := by
  intro fuel hfuel
  refine ⟨fuel, by omega, ?_⟩
  cases fuel with
  | zero => rfl
  | succ fuel =>
    have hready : s.toNext.ready? = s.ready? := by rw [ready?, h, ready?]
    rw [run?_succ, run?_succ, hready]

end Reaches

/-! ## Outside brackets -/

/-- The scan stands before this text, outside brackets and with no key begun. -/
structure Stands (s : Scan) (l : Outline) (cs : List Char) : Prop where
  outline : s.outline = l
  level : s.outerCandidates = []
  candidate : s.candidate = none
  rest : s.cursor.rest = cs

/-- The scan stands at the start of a line or at the end of the text, and the outline is that after
closing the blocks deeper than this column. -/
structure Arrives (s : Scan) (l : Outline) (column : Int) (tail : List Char) : Prop where
  closed : s.outline.close column = l
  level : s.outerCandidates = []
  candidate : s.candidate = none
  rest : s.cursor.rest = tail
  line : tail ≠ [] → s.keyAllowed = true ∧ (s.mark.column : Int) = column

section Stands

variable {s : Scan} {l : Outline} {c : Char} {rest tail : List Char}

theorem refreshAll?_of_free (hlevel : s.outerCandidates = []) (hfree : s.candidate = none) :
    s.refreshAll? = some s := by
  obtain ⟨_, _, _, _, _, _, _⟩ := s
  simp only at hlevel hfree
  subst hlevel hfree
  rfl

theorem ready?_of_free (hlevel : s.outerCandidates = []) (hfree : s.candidate = none) :
    s.ready? = some (s.toNext.closeBlocks s.toNext.mark.column) := by
  rw [ready?, refreshAll?_of_free (s := s.toNext) hlevel hfree, Option.map_some]

theorem Arrives.ready {column : Int} (h : Arrives s l column (c :: rest)) (hc : isSolid c = true) :
    ∃ r, s.ready? = some r ∧ r.Stands l (c :: rest) ∧ r.keyAllowed = true ∧
      (r.mark.column : Int) = column := by
  obtain ⟨hallowed, hcolumn⟩ := h.line (List.cons_ne_nil c rest)
  have hnext := toNext_solid hc h.rest
  refine ⟨s.closeBlocks s.mark.column, ?_, ⟨?_, ?_, ?_, ?_⟩, ?_, ?_⟩
  · rw [ready?_of_free h.level h.candidate, hnext]
  · rw [closeBlocks_outline h.level, hcolumn, h.closed]
  · rw [closeBlocks_outerCandidates, h.level]
  · rw [closeBlocks_candidate, h.candidate]
  · rw [closeBlocks_cursor, h.rest]
  · rw [closeBlocks_keyAllowed, hallowed]
  · rw [mark, closeBlocks_cursor, ← hcolumn, mark]

/-- Within a line no block is closed. -/
theorem Stands.ready (n : Nat) (h : s.Stands l (List.replicate n ' ' ++ c :: rest))
    (hc : isSolid c = true) (hle : l.indent ≤ s.mark.column) :
    ∃ r, s.ready? = some r ∧ r.Stands l (c :: rest) ∧ r.keyAllowed = s.keyAllowed ∧
      r.mark.column = s.mark.column + n := by
  have hindent : s.indent = l.indent := by rw [← h.outline]; rfl
  have hnext : s.toNext = { s with cursor := ⟨s.mark.rightBy n, c :: rest⟩ } := by
    simp only [Scan.toNext, h.rest, skipGaps_blanks, skipGaps_solid hc]
    rfl
  refine ⟨s.toNext, ?_, ⟨?_, ?_, ?_, ?_⟩, ?_, ?_⟩
  · rw [ready?_of_free h.level h.candidate, closeBlocks_of_le]
    rw [hnext, hindent, mark, Mark.rightBy]
    simp only
    omega
  · rw [hnext]; exact h.outline
  · rw [hnext]; exact h.level
  · rw [hnext]; exact h.candidate
  · rw [hnext]
  · rw [hnext]
  · rw [hnext]; rfl

/-- What follows a line is reached when the gap before it is passed over. -/
theorem Stands.arrives {most : Nat} {column : Int} (h : s.Stands l rest)
    (hf : Follows most rest column tail) :
    ∃ t, Reaches s t ∧ Arrives t (l.close column) column tail := by
  have hflow : s.inFlow = false := by rw [inFlow, h.level]; rfl
  obtain ⟨allowed, after, hskip, hline⟩ := skipGaps_follows s.keyAllowed s.cursor.mark hf
  have hnext : s.toNext = { s with cursor := ⟨after, tail⟩, keyAllowed := allowed } := by
    simp only [Scan.toNext, hflow, h.rest, hskip]
  have hself : s.toNext.toNext = s.toNext := by
    cases hf with
    | line _ hbegins =>
      obtain ⟨c, more, heq, hc⟩ := hbegins.exists_head
      exact toNext_solid hc (by rw [hnext, heq])
    | lineBreak => exact toNext_nil (by rw [hnext])
    | stop => exact toNext_nil (by rw [hnext])
  refine ⟨s.toNext, .toNext hself (by rw [hnext, h.rest]; exact hf.length_le), ?_, ?_, ?_, ?_, ?_⟩
  · rw [hnext, ← h.outline]; rfl
  · rw [hnext]; exact h.level
  · rw [hnext]; exact h.candidate
  · rw [hnext]
  · intro hne
    rw [hnext]
    exact hline hne

end Stands

/-! ## Tokens -/

theorem push_outline (s : Scan) (token : Token) (start stop : Mark) :
    (s.push token start stop).outline = s.outline.push [token] := by
  simp only [outline, push, Outline.push, kindsOf_push]

theorem take_outline (s : Scan) (token : Token) (n : Nat) :
    (s.take token n).outline = s.outline.push [token] :=
  push_outline s token s.mark (s.mark.rightBy n)

theorem take_cursor (s : Scan) (token : Token) (n : Nat) :
    (s.take token n).cursor = ⟨s.mark.rightBy n, s.cursor.rest.drop n⟩ := rfl

section Words

variable {s r : Scan} {l : Outline} {w : Word} {rest tail : List Char}

/-- A word is read as a plain scalar. -/
theorem token?_word {c : Char} {cs : List Char} (h : w.text ++ rest = c :: cs) :
    s.token? c cs = s.plain? := by
  obtain ⟨d, more, htext, hhead⟩ := w.exists_head
  rw [htext, List.cons_append] at h
  obtain ⟨rfl, rfl⟩ := List.cons.inj h
  rcases hhead with hd | ⟨rfl, next, others, rfl, hnext⟩
  · have hmark : atDocumentMark (d :: (more ++ rest)) = false := by
      have hdash := beq_eq_false_iff_ne.1 (beq_of_isWordChar hd (x := '-') rfl)
      have hpoint := beq_eq_false_iff_ne.1 (beq_of_isWordChar hd (x := '.') rfl)
      rw [atDocumentMark.eq_def]
      split
      · rename_i heq; exact absurd (List.cons.inj heq).1 hdash
      · rename_i heq; exact absurd (List.cons.inj heq).1 hpoint
      · rfl
    have hstarts : startsPlain s.inFlow d (more ++ rest) = true := by
      simp (disch := decide) only [startsPlain, atBlank, isBlank, isBreak, isIndicator,
        isFlowIndicator, beq_of_isWordChar hd, Bool.or_false, Bool.not_false, Bool.true_or]
    simp (disch := decide) only [token?, hmark, hstarts, beq_of_isWordChar hd, Bool.and_false,
      Bool.false_and, Bool.or_false, Bool.false_eq_true, if_false, if_true]
  · rw [List.cons_append]
    have hmark : atDocumentMark ('-' :: next :: (others ++ rest)) = false := by
      have hdash := beq_eq_false_iff_ne.1 (beq_of_isWordChar hnext (x := '-') rfl)
      rw [atDocumentMark.eq_def]
      split
      · rename_i heq; exact absurd (List.cons.inj (List.cons.inj heq).2).1 hdash
      · rename_i heq; cases heq
      · rfl
    have hblank : isBlank next = false := by
      simp (disch := decide) only [isBlank, beq_of_isWordChar hnext, Bool.or_false]
    have hat : atBlank (next :: (others ++ rest)) = false := by
      simp (disch := decide) only [atBlank, hblank, isBreak,
        beq_of_isWordChar hnext, Bool.or_false]
    have hstarts : startsPlain s.inFlow '-' (next :: (others ++ rest)) = true := by
      simp [startsPlain, hblank]
    simp [token?, hmark, hat, hstarts]

theorem plain?_eq {p : Plain} (hsave : s.saveCandidate? = some r)
    (hplain : Yaml.plain? r.inFlow (r.indent + 1) r.cursor = some p) :
    s.plain? = some { r.push (.scalar .plain p.text) r.mark p.after.mark with
      cursor := p.after, keyAllowed := p.broken } := by
  simp only [Scan.plain?, hsave, hplain]

theorem plain?_word (flow : Bool) (indent : Int) {cursor : Cursor}
    (h : cursor.rest = w.text ++ rest) :
    Yaml.plain? flow indent cursor =
      plainFrom flow indent w.text.reverse {} false (cursor.mark.rightBy w.text.length) rest := by
  rw [Yaml.plain?, h, plainFrom_word w.isInWord_of_mem, List.append_nil]

/-- The scan after a word that may be a key. -/
def named (s : Scan) (w : Word) (rest : List Char) : Scan where
  cursor := ⟨s.mark.rightBy w.text.length, rest⟩
  tokens := s.tokens.push ⟨w.token, s.mark, s.mark.rightBy w.text.length⟩
  indent := s.indent
  outer := s.outer
  candidate := some ⟨s.tokens.size, s.mark, s.indent == Int.ofNat s.mark.column⟩
  outerCandidates := []
  keyAllowed := false

theorem Stands.plain?_key (h : s.Stands l (w.text ++ ':' :: rest)) (hallowed : s.keyAllowed = true)
    (hblank : atBlank rest = true) : s.plain? = some (s.named w (':' :: rest)) := by
  have hflow : s.inFlow = false := by rw [inFlow, h.level]; rfl
  have hsave : s.saveCandidate? = some { s with
      candidate := some ⟨s.tokens.size, s.mark, s.indent == Int.ofNat s.mark.column⟩ } := by
    simp only [saveCandidate?, dropCandidate?, hallowed, h.candidate, hflow, if_true, Bool.not_false,
      Bool.true_and]
  have hplain := (plain?_word false (s.indent + 1) h.rest).trans (plainFrom_colon hblank)
  rw [List.reverse_reverse] at hplain
  rw [plain?_eq hsave (by rw [← hplain, ← hflow]; rfl), named, ← h.level]
  rfl

theorem token?_colon (hblank : atBlank rest = true) : s.token? ':' rest = s.value? := by
  simp [token?, atDocumentMark, hblank]

/-- The tokens that make a key of what was read are put in before it, with the start of a block if the
key stands deeper than the current one. -/
theorem insertKey_outline {c : Candidate} {before after : List Token}
    (hlevel : s.outerCandidates = []) (hkinds : kindsOf s.tokens = before ++ after)
    (hindex : c.index = before.length) :
    ((s.insertAt c.index .key c.mark).openBlock .blockMappingStart c.mark c.index).outline =
      ((⟨s.indent, s.outer, before⟩ : Outline).opened c.mark.column).push (.key :: after) := by
  have hflow : (s.insertAt c.index .key c.mark).inFlow = false := by
    rw [inFlow, insertAt, hlevel]; rfl
  have hkey := kindsOf_insert ⟨.key, c.mark, c.mark⟩ hkinds
  rw [← hindex] at hkey
  by_cases hdeep : s.indent < c.mark.column
  · have hsize : c.index < (s.insertAt c.index .key c.mark).tokens.size := by
      have hlen := congrArg List.length hkey
      simp only [kindsOf, List.length_map, Array.length_toList, List.length_append,
        List.length_cons] at hlen
      simp only [insertAt]
      omega
    have hopen := kindsOf_insert ⟨.blockMappingStart, c.mark, c.mark⟩ hkey
    rw [← hindex] at hopen
    have hcond : (!(s.insertAt c.index .key c.mark).inFlow &&
        decide ((s.insertAt c.index .key c.mark).indent < Int.ofNat c.mark.column)) = true := by
      rw [hflow]
      exact decide_eq_true hdeep
    simp only [openBlock, if_pos hcond, if_pos hsize]
    simp only [outline, insertAt, hopen, Outline.opened, if_pos hdeep, Outline.push,
      List.append_assoc, List.cons_append, List.nil_append]
    rfl
  · have hcond : ¬(!(s.insertAt c.index .key c.mark).inFlow &&
        decide ((s.insertAt c.index .key c.mark).indent < Int.ofNat c.mark.column)) = true := by
      rw [hflow]
      exact fun hc => hdeep (of_decide_eq_true hc)
    simp only [openBlock, if_neg hcond]
    simp only [outline, insertAt, hkey, Outline.opened, if_neg hdeep, Outline.push]

theorem openBlock_cursor (token : Token) (m : Mark) (index : Nat) :
    (s.openBlock token m index).cursor = s.cursor := by
  simp only [openBlock]
  split
  · split <;> rfl
  · rfl

theorem openBlock_outerCandidates (token : Token) (m : Mark) (index : Nat) :
    (s.openBlock token m index).outerCandidates = s.outerCandidates := by
  simp only [openBlock]
  split
  · split <;> rfl
  · rfl

/-- At the colon the word before it becomes a key. -/
theorem value?_named (w : Word) (rest : List Char) (h : s.outline = l) :
    ∃ t, (s.named w (':' :: rest)).value? = some t ∧
      t.Stands ((l.opened s.mark.column).push [.key, w.token, .value]) rest ∧
        t.keyAllowed = false ∧ (s.mark.column : Int) < t.mark.column := by
  have hkinds : kindsOf (s.named w (':' :: rest)).tokens = kindsOf s.tokens ++ [w.token] :=
    kindsOf_push _ _
  have hsize : s.tokens.size = (kindsOf s.tokens).length := by simp [kindsOf]
  let keyed := ((s.named w (':' :: rest)).insertAt s.tokens.size .key s.mark).openBlock
    .blockMappingStart s.mark s.tokens.size
  have houtline : keyed.outline = (l.opened s.mark.column).push [.key, w.token] := by
    rw [← h]
    exact insertKey_outline (c := ⟨s.tokens.size, s.mark, false⟩) rfl hkinds hsize
  have hcursor : keyed.cursor = ⟨s.mark.rightBy w.text.length, ':' :: rest⟩ := openBlock_cursor ..
  have hlevel : keyed.outerCandidates = [] := openBlock_outerCandidates ..
  refine ⟨{ keyed with candidate := none, keyAllowed := false }.take .value 1, rfl,
    ⟨?_, hlevel, rfl, ?_⟩, rfl, ?_⟩
  · rw [take_outline]
    exact (congrArg (fun o => o.push [.value]) houtline).trans (Outline.push_push ..)
  · rw [take_cursor, hcursor]
    rfl
  · have hmark : keyed.mark = s.mark.rightBy w.text.length := congrArg Cursor.mark hcursor
    change (s.mark.column : Int) < ((keyed.mark.rightBy 1).column : Nat)
    simp only [hmark, Mark.rightBy]
    omega

/-- A colon without anything before it that could be a key. -/
theorem value?_of_none (hlevel : s.outerCandidates = []) (hfree : s.candidate = none)
    (hallowed : s.keyAllowed = false) : s.value? = none := by
  have hflow : s.inFlow = false := by rw [inFlow, hlevel]; rfl
  simp only [value?, hfree, hflow, hallowed, Bool.not_false, Bool.and_self, if_true]

theorem toNext_named : (s.named w (':' :: rest)).toNext = s.named w (':' :: rest) :=
  toNext_solid (show isSolid ':' = true from rfl) rfl

/-- A word is read that may be a key. -/
theorem Arrives.reaches_named {column : Int} (h : Arrives s l column (w.text ++ ':' :: rest))
    (hblank : atBlank rest = true) :
    ∃ r : Scan, Reaches s (r.named w (':' :: rest)) ∧ r.outline = l ∧
      (r.mark.column : Int) = column := by
  obtain ⟨c, cs, heq, hc⟩ := (w.begins (':' :: rest)).exists_head
  obtain ⟨r, hready, hstands, hallowed, hcolumn⟩ := (heq ▸ h).ready hc
  refine ⟨r, .token hready hstands.rest ?_ ?_, hstands.outline, hcolumn⟩
  · rw [token?_word heq]
    exact Stands.plain?_key (heq ▸ hstands) hallowed hblank
  · have hpos := List.length_pos_iff.2 w.text_ne_nil
    rw [h.rest, List.length_append]
    simp only [named]
    omega

/-- A key is read up to the text after its colon, and opens a block if it stands deeper. -/
theorem Arrives.key {column : Int} (h : Arrives s l column (w.text ++ ':' :: rest))
    (hle : l.indent ≤ column) (hblank : atBlank rest = true) (hfit : w.text.length ≤ 1024) :
    ∃ t, Reaches s t ∧ t.Stands ((l.opened column).push [.key, w.token, .value]) rest ∧
      t.keyAllowed = false ∧ column < t.mark.column := by
  obtain ⟨r, hreaches, rfl, rfl⟩ := h.reaches_named hblank
  have hmark : ¬(r.mark.line < (r.named w (':' :: rest)).mark.line ∨
      r.mark.octets + 1024 < (r.named w (':' :: rest)).mark.octets) := by
    simp only [named, mark, Mark.rightBy]
    omega
  have hrefresh : refresh? (r.named w (':' :: rest)).mark (r.named w (':' :: rest)).candidate =
      some (r.named w (':' :: rest)).candidate := if_neg hmark
  have hready : (r.named w (':' :: rest)).ready? = some (r.named w (':' :: rest)) := by
    rw [ready?, toNext_named, refreshAll?, hrefresh]
    refine congrArg some (closeBlocks_of_le ?_)
    simp only [named, mark, Mark.rightBy, outline] at hle ⊢
    omega
  obtain ⟨t, hvalue, hstands, hallowed, hcolumn⟩ := value?_named w rest rfl
  refine ⟨t, hreaches.trans (.token hready rfl ((token?_colon hblank).trans hvalue) ?_), hstands,
    hallowed, hcolumn⟩
  rw [hstands.rest]
  exact Nat.lt_succ_self _

/-- A word that is too long is no key, so the colon after it is in the way. -/
theorem Arrives.fails {column : Int} (h : Arrives s l column (w.text ++ ':' :: rest))
    (hblank : atBlank rest = true) (hlong : 1024 < w.text.length) : Fails s := by
  obtain ⟨r, hreaches, -, -⟩ := h.reaches_named hblank
  refine hreaches.fails ?_
  have hmark : r.mark.line < (r.named w (':' :: rest)).mark.line ∨
      r.mark.octets + 1024 < (r.named w (':' :: rest)).mark.octets := by
    simp only [named, mark, Mark.rightBy]
    omega
  cases hrequired : r.indent == Int.ofNat r.mark.column with
  | true =>
    have hrefresh : refresh? (r.named w (':' :: rest)).mark (r.named w (':' :: rest)).candidate =
        none := (if_pos hmark).trans (if_pos hrequired)
    refine .ready ?_
    rw [ready?, toNext_named, refreshAll?, hrefresh]
    rfl
  | false =>
    have hrefresh : refresh? (r.named w (':' :: rest)).mark (r.named w (':' :: rest)).candidate =
        some none := (if_pos hmark).trans (if_neg (ne_true_of_eq_false hrequired))
    let dropped := { r.named w (':' :: rest) with candidate := none }
    have hready : (r.named w (':' :: rest)).ready? =
        some (dropped.closeBlocks dropped.mark.column) := by
      rw [ready?, toNext_named, refreshAll?, hrefresh]
      rfl
    refine .token (r := dropped.closeBlocks dropped.mark.column) hready
      (congrArg Cursor.rest closeBlocks_cursor) ?_
    rw [token?_colon hblank]
    exact value?_of_none closeBlocks_outerCandidates closeBlocks_candidate closeBlocks_keyAllowed

/-- A word after a colon is read up to what follows the line. -/
theorem Stands.word {most : Nat} {column : Int} (h : s.Stands l (' ' :: (w.text ++ rest)))
    (hallowed : s.keyAllowed = false) (hindent : l.indent = most) (hcolumn : most < s.mark.column)
    (hf : Follows most rest column tail) :
    ∃ t, Reaches s t ∧ Arrives t ((l.push [w.token]).close column) column tail := by
  obtain ⟨c, cs, heq, hc⟩ := (w.begins rest).exists_head
  obtain ⟨r, hready, hr, hkept, -⟩ := (heq ▸ h).ready 1 hc (by omega)
  rw [hallowed] at hkept
  have hflow : r.inFlow = false := by rw [inFlow, hr.level]; rfl
  have hmost : r.indent = most := by rw [← hindent, ← hr.outline]; rfl
  have hsave : r.saveCandidate? = some r := by simp [saveCandidate?, hkept]
  obtain ⟨broken, after, hplain, hline⟩ :=
    plainFrom_follows w.text.reverse (r.mark.rightBy w.text.length) hf
  have hread : Yaml.plain? r.inFlow (r.indent + 1) r.cursor = some ⟨w.text, broken, ⟨after, tail⟩⟩ := by
    rw [plain?_word _ _ (hr.rest.trans heq.symm), hflow, hmost]
    rw [List.reverse_reverse] at hplain
    exact hplain
  refine ⟨_, .token hready hr.rest ((token?_word heq).trans (plain?_eq hsave hread)) ?_,
    ?_, hr.level, hr.candidate, rfl, fun hne => hline hne⟩
  · rw [h.rest, List.length_cons, List.length_append]
    have := hf.length_le
    simp only
    omega
  · rw [← hr.outline]
    exact congrArg (Outline.close column) (push_outline r w.token r.mark after)

end Words

/-! ## Lists -/

/-- The scan stands before this text between brackets, where no key is needed. -/
structure Within (s : Scan) (l : Outline) (cs : List Char) : Prop where
  outline : s.outline = l
  level : s.outerCandidates = [none]
  candidate : ∀ c ∈ s.candidate, c.required = false
  rest : s.cursor.rest = cs

section Lists

variable {s : Scan} {l : Outline} {w : Word} {ws : List Word} {c : Char} {rest tail : List Char}

/-- Between brackets the columns say nothing, and whether a key was begun does not matter. -/
theorem Within.ready (n : Nat) (h : s.Within l (List.replicate n ' ' ++ c :: rest))
    (hc : isSolid c = true) : ∃ r, s.ready? = some r ∧ r.Within l (c :: rest) := by
  have hflow : s.inFlow = true := by rw [inFlow, h.level]; rfl
  have hnext : s.toNext = { s with cursor := ⟨s.mark.rightBy n, c :: rest⟩ } := by
    simp only [Scan.toNext, h.rest, skipGaps_blanks, skipGaps_solid hc]
    rfl
  obtain ⟨kept, hkept, hrequired⟩ : ∃ kept, refresh? (s.mark.rightBy n) s.candidate = some kept ∧
      ∀ c ∈ kept, c.required = false := by
    cases hcandidate : s.candidate with
    | none => exact ⟨none, rfl, by simp⟩
    | some d =>
      have hd := h.candidate d hcandidate
      simp only [refresh?, hd, Bool.false_eq_true, if_false]
      split
      · exact ⟨none, rfl, by simp⟩
      · exact ⟨some d, rfl, by simpa using hd⟩
  let r : Scan := { s with cursor := ⟨s.mark.rightBy n, c :: rest⟩, candidate := kept }
  have hrefresh : s.toNext.refreshAll? = some r := by
    rw [hnext]
    simp only [refreshAll?, mark, h.level]
    simp only [mark] at hkept
    rw [hkept]
    simp only [r, h.level]
    rfl
  refine ⟨r, ?_, h.outline, h.level, hrequired, rfl⟩
  rw [ready?, hrefresh]
  exact congrArg some (closeBlocks_of_inFlow (s := r) hflow)

theorem Within.dropCandidate? (h : s.Within l tail) :
    ∃ r, s.dropCandidate? = some r ∧ r.Within l tail := by
  cases hcandidate : s.candidate with
  | none => exact ⟨s, by simp only [Scan.dropCandidate?, hcandidate], h⟩
  | some d =>
    refine ⟨{ s with candidate := none }, ?_, h.outline, h.level, by simp, h.rest⟩
    simp only [Scan.dropCandidate?, hcandidate, h.candidate d hcandidate, Bool.false_eq_true, if_false]

theorem Within.saveCandidate? (h : s.Within l tail) :
    ∃ r, s.saveCandidate? = some r ∧ r.Within l tail := by
  cases hallowed : s.keyAllowed with
  | false => exact ⟨s, by simp [Scan.saveCandidate?, hallowed], h⟩
  | true =>
    obtain ⟨r, hdrop, hr⟩ := h.dropCandidate?
    have hflow : r.inFlow = true := by rw [inFlow, hr.level]; rfl
    refine ⟨{ r with candidate := some ⟨r.tokens.size, r.mark, false⟩ }, ?_, hr.outline, hr.level,
      by simp, hr.rest⟩
    simp only [Scan.saveCandidate?, hallowed, hdrop, hflow, if_true, Bool.not_true, Bool.false_and]

/-- A word between brackets goes on to a comma or to the bracket that closes. -/
theorem Within.word (n : Nat) (h : s.Within l (List.replicate n ' ' ++ (w.text ++ c :: rest)))
    (hc : c = ',' ∨ c = ']') :
    ∃ t, Reaches s t ∧ t.Within (l.push [w.token]) (c :: rest) := by
  obtain ⟨d, cs, heq, hd⟩ := (w.begins (c :: rest)).exists_head
  obtain ⟨r, hready, hr⟩ := (heq ▸ h).ready n hd
  obtain ⟨q, hsave, hq⟩ := hr.saveCandidate?
  have hflow : q.inFlow = true := by rw [inFlow, hq.level]; rfl
  have hread : Yaml.plain? q.inFlow (q.indent + 1) q.cursor =
      some ⟨w.text, false, ⟨q.mark.rightBy w.text.length, c :: rest⟩⟩ := by
    rw [plain?_word _ _ (hq.rest.trans heq.symm), hflow, plainFrom_indicator hc, List.reverse_reverse]
    rfl
  refine ⟨_, .token hready hr.rest ((token?_word heq).trans (plain?_eq hsave hread)) ?_, ?_, hq.level,
    hq.candidate, rfl⟩
  · have hpos := List.length_pos_iff.2 w.text_ne_nil
    rw [h.rest, List.length_append, List.length_append]
    simp only
    omega
  · rw [← hq.outline]
    exact push_outline q w.token q.mark _

theorem Within.comma (h : s.Within l (',' :: rest)) :
    ∃ t, Reaches s t ∧ t.Within (l.push [.flowEntry]) rest := by
  obtain ⟨r, hready, hr⟩ := h.ready 0 (show isSolid ',' = true from rfl)
  obtain ⟨q, hdrop, hq⟩ := hr.dropCandidate?
  have htoken : r.token? ',' rest = some ({ q with keyAllowed := true }.take .flowEntry 1) := by
    simp [token?, atDocumentMark, flowItem?, hdrop]
  refine ⟨_, .token hready hr.rest htoken ?_, ?_, hq.level, hq.candidate, ?_⟩
  · rw [take_cursor, h.rest]
    simp [hq.rest]
  · rw [take_outline, ← hq.outline]
    rfl
  · rw [take_cursor]
    simp [hq.rest]

/-- After the bracket that closes, the scan is outside again. -/
theorem Within.closeList (h : s.Within l (']' :: rest)) :
    ∃ t, Reaches s t ∧ t.Stands (l.push [.flowSequenceEnd]) rest := by
  obtain ⟨r, hready, hr⟩ := h.ready 0 (show isSolid ']' = true from rfl)
  obtain ⟨q, hdrop, hq⟩ := hr.dropCandidate?
  have htoken : r.token? ']' rest = some ({ q with
      candidate := none, outerCandidates := [], keyAllowed := false }.take .flowSequenceEnd 1) := by
    simp [token?, atDocumentMark, closeFlow?, hdrop, hq.level]
  refine ⟨_, .token hready hr.rest htoken ?_, ?_, rfl, rfl, ?_⟩
  · rw [take_cursor, h.rest]
    simp [hq.rest]
  · rw [take_outline, ← hq.outline]
    rfl
  · rw [take_cursor]
    simp [hq.rest]

theorem Stands.openList (h : s.Stands l (' ' :: '[' :: rest)) (hallowed : s.keyAllowed = false)
    (hle : l.indent ≤ s.mark.column) :
    ∃ t, Reaches s t ∧ t.Within (l.push [.flowSequenceStart]) rest := by
  obtain ⟨r, hready, hr, hkept, -⟩ := h.ready 1 (show isSolid '[' = true from rfl) hle
  rw [hallowed] at hkept
  have htoken : r.token? '[' rest = some ({ r with
      candidate := none, outerCandidates := [none], keyAllowed := true }.take .flowSequenceStart 1) := by
    simp [token?, atDocumentMark, openFlow?, Scan.saveCandidate?, hkept, hr.level, hr.candidate]
  refine ⟨_, .token hready hr.rest htoken ?_, ?_, rfl, ?_, ?_⟩
  · rw [take_cursor, h.rest]
    simp only [hr.rest, List.drop_succ_cons, List.drop_zero, List.length_cons]
    omega
  · rw [take_outline, ← hr.outline]
    rfl
  · simp [take, push, advance]
  · rw [take_cursor]
    simp [hr.rest]

/-- The words of a list that is not empty, by induction on those after the first. -/
theorem Within.words (blanks n : Nat) (h : s.Within l (List.replicate n ' ' ++
      ((',' :: List.replicate blanks ' ').intercalate ((w :: ws).map Word.text) ++ ']' :: rest))) :
    ∃ t, Reaches s t ∧
      t.Stands (l.push (((w :: ws).map Word.token).intersperse .flowEntry ++ [.flowSequenceEnd]))
        rest := by
  induction ws generalizing s l w n with
  | nil =>
    simp only [List.map_cons, List.map_nil, List.intercalate_singleton] at h
    obtain ⟨t, hword, ht⟩ := h.word n (.inr rfl)
    obtain ⟨u, hclose, hu⟩ := ht.closeList
    rw [Outline.push_push] at hu
    exact ⟨u, hword.trans hclose, hu⟩
  | cons next others ih =>
    rw [List.map_cons, List.map_cons, List.intercalate_cons_cons, List.append_assoc, List.append_assoc,
      List.cons_append] at h
    obtain ⟨t, hword, ht⟩ := h.word n (.inl rfl)
    obtain ⟨u, hcomma, hu⟩ := ht.comma
    obtain ⟨v, hothers, hv⟩ := ih blanks hu
    rw [Outline.push_push, Outline.push_push] at hv
    exact ⟨v, hword.trans (hcomma.trans hothers), hv⟩

theorem Stands.listText {blanks : Nat} (h : s.Stands l (' ' :: (listText blanks ws ++ rest)))
    (hallowed : s.keyAllowed = false)
    (hle : l.indent ≤ s.mark.column) :
    ∃ t, Reaches s t ∧ t.Stands (l.push (listKinds ws)) rest := by
  rw [Yaml.listText, List.cons_append, List.append_assoc, List.singleton_append] at h
  obtain ⟨t, hopen, ht⟩ := h.openList hallowed hle
  cases ws with
  | nil =>
    obtain ⟨u, hclose, hu⟩ := ht.closeList
    rw [Outline.push_push] at hu
    exact ⟨u, hopen.trans hclose, hu⟩
  | cons w ws =>
    obtain ⟨u, hwords, hu⟩ := Within.words blanks 0 ht
    rw [Outline.push_push] at hu
    exact ⟨u, hopen.trans hwords, hu⟩

end Lists

end Scan

/-! ## Documents -/

open Scan

mutual

/-- The content of a line is read up to what follows the line. -/
theorem Content.reads (content : Content) (hfit : content.KeysFit) {s : Scan} {l : Outline} {most : Nat}
    {column : Int} {rest tail : List Char} (h : s.Stands l (content.text most ++ rest))
    (hallowed : s.keyAllowed = false) (hindent : l.indent = most) (hcolumn : most < s.mark.column)
    (hf : Follows most rest column tail) :
    ∃ t, Reaches s t ∧ Arrives t ((l.push content.kinds).close column) column tail := by
  match content with
  | .word w => exact Stands.word h hallowed hindent hcolumn hf
  | .words _ ws =>
    obtain ⟨t, hlist, ht⟩ := Stands.listText h hallowed (by omega)
    obtain ⟨u, hgap, hu⟩ := ht.arrives hf
    exact ⟨u, hlist.trans hgap, hu⟩
  | .lines more ls =>
    have hdeep : l.indent < ((most + more + 1 : Nat) : Int) := by omega
    rw [Content.text, List.append_assoc] at h
    obtain ⟨t, hgap, ht⟩ := h.arrives (.line (Nat.le_refl _) (ls.begins _ _))
    rw [Outline.close_of_le (by omega)] at ht
    obtain ⟨u, hlines, hu⟩ := ls.reads hfit ht (by omega) (hf.mono (by omega))
    rw [Outline.close_opened hdeep (by have := hf.le; omega)] at hu
    exact ⟨u, hgap.trans hlines, hu⟩

/-- Lines at a column are read up to what follows them. -/
theorem Lines.reads (ls : Lines) (hfit : ls.KeysFit) {s : Scan} {l : Outline} {most : Nat}
    {column : Int} {rest tail : List Char} (h : Arrives s l most (ls.text most ++ rest))
    (hle : l.indent ≤ most) (hf : Follows most rest column tail) :
    ∃ t, Reaches s t ∧ Arrives t (((l.opened most).push ls.kinds).close column) column tail := by
  match ls with
  | .one key content =>
    obtain ⟨hkey, hcontent⟩ := hfit
    rw [Lines.text, List.append_assoc, List.cons_append] at h
    obtain ⟨t, hreads, ht, hallowed, hcolumn⟩ := h.key hle content.atBlank_text hkey
    obtain ⟨u, hline, hu⟩ := content.reads hcontent ht hallowed (Outline.indent_opened hle)
      (by omega) hf
    rw [Outline.push_push] at hu
    exact ⟨u, hreads.trans hline, hu⟩
  | .cons key content others =>
    obtain ⟨hkey, hcontent, hothers⟩ := hfit
    rw [Lines.text, List.append_assoc, List.cons_append, List.append_assoc, List.append_assoc] at h
    obtain ⟨t, hreads, ht, hallowed, hcolumn⟩ := h.key hle content.atBlank_text hkey
    have hindent : ∀ ks, ((l.opened most).push ks).indent = most := fun _ => Outline.indent_opened hle
    obtain ⟨u, hline, hu⟩ := content.reads hcontent ht hallowed (hindent _) (by omega)
      (.line (Nat.le_refl _) (others.begins _ _))
    rw [Outline.push_push, Outline.close_of_le (Int.le_of_eq (hindent _))] at hu
    obtain ⟨v, hrest, hv⟩ := others.reads hothers hu (Int.le_of_eq (hindent _)) hf
    rw [Outline.opened_of_le (Int.le_of_eq (hindent _).symm), Outline.push_push] at hv
    exact ⟨v, hreads.trans (hline.trans hrest), hv⟩

end

mutual

/-- Where a key does not fit, nothing can be read. -/
theorem Content.fails (content : Content) (hfit : ¬content.KeysFit) {s : Scan} {l : Outline} {most : Nat}
    {rest : List Char} (h : s.Stands l (content.text most ++ rest)) (hindent : l.indent = most) :
    Fails s := by
  match content with
  | .word w => exact absurd trivial hfit
  | .words _ _ => exact absurd trivial hfit
  | .lines more ls =>
    rw [Content.text, List.append_assoc] at h
    obtain ⟨t, hgap, ht⟩ := h.arrives (.line (Nat.le_refl _) (ls.begins _ _))
    rw [Outline.close_of_le (by omega)] at ht
    exact hgap.fails (ls.fails hfit ht (by omega))

theorem Lines.fails (ls : Lines) (hfit : ¬ls.KeysFit) {s : Scan} {l : Outline} {most : Nat}
    {rest : List Char} (h : Arrives s l most (ls.text most ++ rest)) (hle : l.indent ≤ most) :
    Fails s := by
  match ls with
  | .one key content =>
    rw [Lines.text, List.append_assoc, List.cons_append] at h
    by_cases hkey : key.text.length ≤ 1024
    · obtain ⟨t, hreads, ht, -, -⟩ := h.key hle content.atBlank_text hkey
      have hcontent : ¬content.KeysFit := fun hc => hfit ⟨hkey, hc⟩
      exact hreads.fails (content.fails hcontent ht (Outline.indent_opened hle))
    · exact h.fails content.atBlank_text (by omega)
  | .cons key content others =>
    rw [Lines.text, List.append_assoc, List.cons_append, List.append_assoc, List.append_assoc] at h
    by_cases hkey : key.text.length ≤ 1024
    · obtain ⟨t, hreads, ht, hallowed, hcolumn⟩ := h.key hle content.atBlank_text hkey
      have hindent : ∀ ks, ((l.opened most).push ks).indent = most :=
        fun _ => Outline.indent_opened hle
      by_cases hcontent : content.KeysFit
      · obtain ⟨u, hline, hu⟩ := content.reads hcontent ht hallowed (hindent _) (by omega)
          (.line (Nat.le_refl _) (others.begins _ _))
        rw [Outline.push_push, Outline.close_of_le (Int.le_of_eq (hindent _))] at hu
        have hothers : ¬others.KeysFit := fun ho => hfit ⟨hkey, hcontent, ho⟩
        exact (hreads.trans hline).fails (others.fails hothers hu (Int.le_of_eq (hindent _)))
      · exact hreads.fails (content.fails hcontent ht (hindent _))
    · exact h.fails content.atBlank_text (by omega)

end

/-! ## Whole texts -/

section Text

variable {ls : Lines} {text : String} {cs : List Char}

/-- A line break at the start makes no difference. -/
theorem Scan.exists_arrives {opening : List Char} (h : opening ∈ [[], ['\n']]) (hcs : Begins cs) :
    ∃ t, Reaches (.start (opening ++ cs)) t ∧ Arrives t ⟨-1, [], []⟩ ((0 : Nat) : Int) cs := by
  simp only [List.mem_cons, List.not_mem_nil, or_false] at h
  rcases h with rfl | rfl
  · exact ⟨.start cs, .refl _, ⟨rfl, rfl, rfl, rfl, fun _ => ⟨rfl, rfl⟩⟩⟩
  · have hstart : Stands (.start ('\n' :: cs)) ⟨-1, [], []⟩ ('\n' :: cs) := ⟨rfl, rfl, rfl, rfl⟩
    exact hstart.arrives (.line (Nat.le_refl 0) hcs)

/-- At the end of the text all blocks are closed. -/
theorem Scan.Arrives.finish {s : Scan} {l : Outline} (h : Arrives s l (-1) []) {fuel : Nat}
    (hfuel : 0 < fuel) :
    ∃ t, run? fuel s = some t ∧ kindsOf t.tokens = l.kinds ++ [.streamEnd] := by
  obtain ⟨fuel, rfl⟩ := Nat.exists_eq_succ_of_ne_zero (Nat.ne_of_gt hfuel)
  have hready := ready?_of_free h.level h.candidate
  rw [toNext_nil h.rest] at hready
  let r := s.closeBlocks s.mark.column
  have hrest : r.cursor.rest = [] := (congrArg Cursor.rest closeBlocks_cursor).trans h.rest
  have hlevel : r.outerCandidates = [] := closeBlocks_outerCandidates.trans h.level
  let m := if r.mark.column = 0 then r.mark else r.mark.nextLine
  let ended : Scan := { r with cursor := ⟨m, []⟩ }
  have hclosed : (ended.closeBlocks (-1)).outline = l := by
    have hended : ended.outline = s.outline.close s.mark.column := closeBlocks_outline h.level
    rw [closeBlocks_outline (s := ended) hlevel, hended, Outline.close_close (by omega), h.closed]
  have hdrop : (ended.closeBlocks (-1)).dropCandidate? = some (ended.closeBlocks (-1)) := by
    have hfree : (ended.closeBlocks (-1)).candidate = none :=
      closeBlocks_candidate.trans (closeBlocks_candidate.trans h.candidate)
    simp only [Scan.dropCandidate?, hfree]
  have hfinish : r.finish? = some ((ended.closeBlocks (-1)).push .streamEnd m m) := by
    simp only [finish?]
    exact congrArg (Option.map _) hdrop
  refine ⟨(ended.closeBlocks (-1)).push .streamEnd m m, ?_, ?_⟩
  · rw [run?_succ, hready]
    simp only [show (s.closeBlocks s.mark.column).cursor.rest = [] from hrest]
    exact hfinish
  · rw [← hclosed]
    exact kindsOf_push _ _

theorem Lines.follows_ending {ending : List Char} (h : ending ∈ [[], ['\n']]) (most : Nat) :
    Follows most ending (-1) [] := by
  simp only [List.mem_cons, List.not_mem_nil, or_false] at h
  rcases h with rfl | rfl
  · exact .stop
  · exact .lineBreak

/-- The tokens of a document are those of its lines, as long as its keys fit. -/
theorem Lines.tokens? (h : ls.WritesText text) (hfit : ls.KeysFit) :
    ∃ ts, Yaml.tokens? text = some ts ∧
      ts.map Placed.token = .blockMappingStart :: (ls.kinds ++ [.blockEnd, .streamEnd]) := by
  have hcontent := Lines.content? h
  obtain ⟨opening, hopening, ending, hending, heq⟩ := h
  rw [heq] at hcontent
  obtain ⟨s, hstart, hs⟩ := exists_arrives hopening (ls.begins 0 ending)
  obtain ⟨t, hreads, ht⟩ := ls.reads hfit hs (by decide) (Lines.follows_ending hending 0)
  obtain ⟨left, hleft, hrun⟩ := hstart.trans hreads _ (Nat.lt_succ_self _)
  obtain ⟨u, hu, hkinds⟩ := ht.finish (Nat.zero_lt_of_lt hleft)
  refine ⟨u.tokens.toList, ?_, ?_⟩
  · simp only [Yaml.tokens?, hcontent]
    exact congrArg _ (hrun.trans hu)
  · exact hkinds.trans (by simp [Outline.opened, Outline.push, Outline.close, Outline.closeFrom])

/-- A document with a key that does not fit cannot be read. -/
theorem Lines.tokens?_eq_none (h : ls.WritesText text) (hfit : ¬ls.KeysFit) :
    Yaml.tokens? text = none := by
  have hcontent := Lines.content? h
  obtain ⟨opening, hopening, ending, -, heq⟩ := h
  rw [heq] at hcontent
  obtain ⟨s, hstart, hs⟩ := exists_arrives hopening (ls.begins 0 ending)
  have hfails := hstart.fails (ls.fails hfit hs (by decide))
  simp only [Yaml.tokens?, hcontent]
  exact congrArg _ (hfails _ (Nat.lt_succ_self _))

end Text
end Yaml
end PackPlan
