import PackPlan.Yaml.Layout

/-!
# PackPlan.Proofs.Yaml.Document

Documents of one line for each key. After the colon stands a word, a list of words between brackets, or
nothing, and then lines at a deeper column follow (`Content`, `Lines`). `Lines.text` is how such a
document is written, `Lines.kinds` are its tokens without their marks.

A word is a name or a number: no character of it ends a plain scalar, and none of them could
be the start of anything else.
-/

namespace PackPlan
namespace Yaml

/-! ## Words -/

def isWordChar (c : Char) : Bool := c.isAlphanum || c == '_'

/-- Letters, digits and underscores, and a minus sign before them or none. -/
structure Word where
  minus : Bool
  body : List Char
  ne_nil : body ≠ []
  chars : ∀ c ∈ body, isWordChar c = true

def Word.text (w : Word) : List Char := if w.minus then '-' :: w.body else w.body

def Word.token (w : Word) : Token := .scalar .plain w.text

/-- A word stands at the front. -/
def Begins (cs : List Char) : Prop := ∃ (w : Word) (rest : List Char), cs = w.text ++ rest

theorem beq_of_isWordChar {c x : Char} (h : isWordChar c = true) (hx : isWordChar x = false) :
    (c == x) = false := by
  rw [beq_eq_false_iff_ne]
  rintro rfl
  rw [h] at hx
  cases hx

/-- The characters of words. -/
def isInWord (c : Char) : Bool := isWordChar c || c == '-'

theorem beq_of_isInWord {c x : Char} (h : isInWord c = true) (hx : isInWord x = false) :
    (c == x) = false := by
  rw [beq_eq_false_iff_ne]
  rintro rfl
  rw [h] at hx
  cases hx

theorem toNat_of_isAlphanum {c : Char} (h : c.isAlphanum = true) : 48 ≤ c.toNat ∧ c.toNat ≤ 122 := by
  rcases Bool.or_eq_true_iff.1 h with halpha | hdigit
  · rcases Bool.or_eq_true_iff.1 halpha with hupper | hlower
    · have hrange : 'A'.val ≤ c.val ∧ c.val ≤ 'Z'.val := of_decide_eq_true hupper
      exact ⟨Nat.le_trans (by decide) (UInt32.le_iff_toNat_le.1 hrange.1),
        Nat.le_trans (UInt32.le_iff_toNat_le.1 hrange.2) (by decide)⟩
    · obtain ⟨hleast, hmost⟩ := Bool.and_eq_true_iff.1 hlower
      exact ⟨Nat.le_trans (by decide) (UInt32.le_iff_toNat_le.1 (of_decide_eq_true hleast)),
        UInt32.le_iff_toNat_le.1 (of_decide_eq_true hmost)⟩
  · obtain ⟨hleast, hmost⟩ := Char.isDigit_iff_toNat.1 hdigit
    exact ⟨hleast, Nat.le_trans hmost (by decide)⟩

theorem toNat_of_isInWord {c : Char} (h : isInWord c = true) : 45 ≤ c.toNat ∧ c.toNat ≤ 122 := by
  simp only [isInWord, isWordChar, Bool.or_eq_true, beq_iff_eq] at h
  rcases h with (h | rfl) | rfl
  · have := toNat_of_isAlphanum h
    omega
  · decide
  · decide

theorem utf8Size_of_isInWord {c : Char} (h : isInWord c = true) : c.utf8Size = 1 := by
  refine Char.utf8Size_eq_one_iff.2 (UInt32.le_iff_toNat_le.2 ?_)
  exact Nat.le_trans (toNat_of_isInWord h).2 (by decide)

namespace Word

/-- A word starts with a character that starts nothing else, or with a minus sign before one. -/
theorem exists_head (w : Word) : ∃ c rest, w.text = c :: rest ∧
    (isWordChar c = true ∨ c = '-' ∧ ∃ d more, rest = d :: more ∧ isWordChar d = true) := by
  obtain ⟨d, more, hbody⟩ := List.exists_cons_of_ne_nil w.ne_nil
  have hd : isWordChar d = true := w.chars d (hbody ▸ List.mem_cons_self)
  rw [text, hbody]
  cases w.minus with
  | false => exact ⟨d, more, rfl, .inl hd⟩
  | true => exact ⟨'-', d :: more, rfl, .inr ⟨rfl, d, more, rfl, hd⟩⟩

theorem isInWord_of_mem (w : Word) : ∀ c ∈ w.text, isInWord c = true := by
  have hbody : ∀ c ∈ w.body, isInWord c = true := by
    intro c hc
    rw [isInWord, w.chars c hc, Bool.true_or]
  rw [text]
  cases w.minus with
  | false => exact hbody
  | true => exact List.forall_mem_cons.2 ⟨rfl, hbody⟩

theorem text_ne_nil (w : Word) : w.text ≠ [] := by
  obtain ⟨c, rest, h, -⟩ := w.exists_head
  rw [h]
  exact List.cons_ne_nil c rest

theorem begins (w : Word) (rest : List Char) : Begins (w.text ++ rest) := ⟨w, rest, rfl⟩

end Word

/-! ## Documents -/

mutual

/-- What stands after the colon of a line. -/
inductive Content where
  | word (w : Word)
  /-- Words between brackets, with so many blanks after each comma. -/
  | words (blanks : Nat) (ws : List Word)
  /-- Lines that stand deeper by one column and so many more. -/
  | lines (more : Nat) (ls : Lines)

/-- Lines that start at one column, with those that belong to them. -/
inductive Lines where
  | one (key : Word) (content : Content)
  | cons (key : Word) (content : Content) (others : Lines)

end

def newLine (column : Nat) : List Char := '\n' :: List.replicate column ' '

def listText (blanks : Nat) (ws : List Word) : List Char :=
  '[' :: ((',' :: List.replicate blanks ' ').intercalate (ws.map Word.text) ++ [']'])

def listKinds (ws : List Word) : List Token :=
  .flowSequenceStart :: ((ws.map Word.token).intersperse .flowEntry ++ [.flowSequenceEnd])

mutual

/-- How the content of a line at a column is written. -/
def Content.text (column : Nat) : Content → List Char
  | .word w => ' ' :: w.text
  | .words blanks ws => ' ' :: listText blanks ws
  | .lines more ls => newLine (column + more + 1) ++ ls.text (column + more + 1)

/-- How lines at a column are written, the first from its key on. -/
def Lines.text (column : Nat) : Lines → List Char
  | .one key content => key.text ++ ':' :: content.text column
  | .cons key content others =>
    key.text ++ ':' :: (content.text column ++ (newLine column ++ others.text column))

end

mutual

def Content.kinds : Content → List Token
  | .word w => [w.token]
  | .words _ ws => listKinds ws
  | .lines _ ls => .blockMappingStart :: (ls.kinds ++ [.blockEnd])

/-- The tokens of lines, without those that open and close their block. -/
def Lines.kinds : Lines → List Token
  | .one key content => .key :: key.token :: .value :: content.kinds
  | .cons key content others => .key :: key.token :: .value :: (content.kinds ++ others.kinds)

end

mutual

/-- Every key is short enough to be one. -/
def Content.KeysFit : Content → Prop
  | .word _ => True
  | .words _ _ => True
  | .lines _ ls => ls.KeysFit

def Lines.KeysFit : Lines → Prop
  | .one key content => key.text.length ≤ 1024 ∧ content.KeysFit
  | .cons key content others => key.text.length ≤ 1024 ∧ content.KeysFit ∧ others.KeysFit

end

/-- The lines with their contents, in order. -/
def Lines.toList : Lines → List (Word × Content)
  | .one key content => [(key, content)]
  | .cons key content others => (key, content) :: others.toList

/-- A text holds the lines, and a line break or none at each end. -/
def Lines.WritesText (ls : Lines) (text : String) : Prop :=
  ∃ opening ∈ [[], ['\n']], ∃ ending ∈ [[], ['\n']], text.toList = opening ++ (ls.text 0 ++ ending)

theorem Lines.keysFit_iff (ls : Lines) :
    ls.KeysFit ↔ ∀ line ∈ ls.toList, line.1.text.length ≤ 1024 ∧ line.2.KeysFit := by
  match ls with
  | .one key content => rw [KeysFit, toList, List.forall_mem_singleton]
  | .cons key content others =>
    rw [KeysFit, toList, List.forall_mem_cons, others.keysFit_iff, and_assoc]

section Text

variable {column : Nat} {rest : List Char}

theorem Lines.begins (ls : Lines) (column : Nat) (rest : List Char) :
    Begins (ls.text column ++ rest) := by
  cases ls with
  | one key content =>
    rw [Lines.text, List.append_assoc]
    exact key.begins _
  | cons key content others =>
    rw [Lines.text, List.append_assoc]
    exact key.begins _

theorem Content.atBlank_text (content : Content) : atBlank (content.text column ++ rest) = true := by
  cases content with
  | word w => rfl
  | words blanks ws => rfl
  | lines more ls => rfl

/-- The characters of documents. -/
def isInLine (c : Char) : Bool :=
  isInWord c || c == ' ' || c == '\n' || c == ':' || c == '[' || c == ']' || c == ','

theorem isInLine_of_isInWord {c : Char} (h : isInWord c = true) : isInLine c = true := by
  simp only [isInLine, h, Bool.true_or]

theorem Word.isInLine_of_mem (w : Word) : ∀ c ∈ w.text, isInLine c = true :=
  fun c hc => isInLine_of_isInWord (w.isInWord_of_mem c hc)

theorem isInLine_blanks {n : Nat} : ∀ c ∈ List.replicate n ' ', isInLine c = true := by
  intro c hc
  rw [List.eq_of_mem_replicate hc]
  rfl

theorem isInLine_newLine : ∀ c ∈ newLine column, isInLine c = true :=
  List.forall_mem_cons.2 ⟨rfl, isInLine_blanks⟩

theorem isInLine_listText (blanks : Nat) (ws : List Word) :
    ∀ c ∈ listText blanks ws, isInLine c = true := by
  have hcomma : ∀ c ∈ ',' :: List.replicate blanks ' ', isInLine c = true :=
    List.forall_mem_cons.2 ⟨rfl, isInLine_blanks⟩
  have hwords : ∀ c ∈ (',' :: List.replicate blanks ' ').intercalate (ws.map Word.text),
      isInLine c = true := by
    induction ws with
    | nil => exact List.forall_mem_nil _
    | cons w others ih =>
      cases others with
      | nil =>
        rw [List.map_cons, List.map_nil, List.intercalate_singleton]
        exact w.isInLine_of_mem
      | cons next more =>
        rw [List.map_cons, List.map_cons, List.intercalate_cons_cons, List.forall_mem_append,
          List.forall_mem_append]
        exact ⟨⟨w.isInLine_of_mem, hcomma⟩, ih⟩
  refine List.forall_mem_cons.2 ⟨rfl, List.forall_mem_append.2 ⟨hwords, ?_⟩⟩
  exact List.forall_mem_singleton.2 rfl

mutual

theorem Content.isInLine_text (content : Content) (column : Nat) :
    ∀ c ∈ content.text column, isInLine c = true := by
  match content with
  | .word w => exact List.forall_mem_cons.2 ⟨rfl, w.isInLine_of_mem⟩
  | .words blanks ws => exact List.forall_mem_cons.2 ⟨rfl, isInLine_listText blanks ws⟩
  | .lines more ls =>
    exact List.forall_mem_append.2 ⟨isInLine_newLine, ls.isInLine_text (column + more + 1)⟩

theorem Lines.isInLine_text (ls : Lines) (column : Nat) :
    ∀ c ∈ ls.text column, isInLine c = true := by
  match ls with
  | .one key content =>
    refine List.forall_mem_append.2 ⟨key.isInLine_of_mem, List.forall_mem_cons.2 ⟨rfl, ?_⟩⟩
    exact content.isInLine_text column
  | .cons key content others =>
    refine List.forall_mem_append.2 ⟨key.isInLine_of_mem, List.forall_mem_cons.2 ⟨rfl, ?_⟩⟩
    refine List.forall_mem_append.2 ⟨content.isInLine_text column, ?_⟩
    exact List.forall_mem_append.2 ⟨isInLine_newLine, others.isInLine_text column⟩

end

theorem isAllowed_of_isInLine {c : Char} (h : isInLine c = true) :
    isAllowed c = true ∧ (c == '\r') = false ∧ (c == '\x85') = false := by
  simp only [isInLine, Bool.or_eq_true, beq_iff_eq] at h
  rcases h with (((((h | rfl) | rfl) | rfl) | rfl) | rfl) | rfl
  · have hrange := toNat_of_isInWord h
    refine ⟨?_, beq_of_isInWord h rfl, beq_of_isInWord h rfl⟩
    simp only [isAllowed, Bool.or_eq_true, Bool.and_eq_true, decide_eq_true_eq]
    omega
  all_goals decide

theorem normalize_of_isInLine {cs : List Char} (h : ∀ c ∈ cs, isInLine c = true) :
    normalize cs = cs := by
  induction cs with
  | nil => rfl
  | cons c rest ih =>
    obtain ⟨hc, hrest⟩ := List.forall_mem_cons.1 h
    obtain ⟨-, hreturn, hnext⟩ := isAllowed_of_isInLine hc
    rw [normalize.eq_def]
    split
    · rename_i heq
      rw [(List.cons.inj heq).1] at hreturn
      cases hreturn
    · rename_i heq
      obtain ⟨rfl, rfl⟩ := List.cons.inj heq
      rw [hreturn, hnext, ih hrest]
      rfl
    · rename_i heq; cases heq

/-- Nothing in a document is forbidden or replaced before it is read. -/
theorem Lines.content? {ls : Lines} {text : String} (h : ls.WritesText text) :
    content? text = some text.toList := by
  obtain ⟨opening, hopening, ending, hending, heq⟩ := h
  have hends : ∀ cs ∈ [[], ['\n']], ∀ c ∈ cs, isInLine c = true := by
    simp [isInLine]
  have hchars : ∀ c ∈ text.toList, isInLine c = true := by
    rw [heq, List.forall_mem_append, List.forall_mem_append]
    exact ⟨hends opening hopening, ls.isInLine_text 0, hends ending hending⟩
  have hall : text.toList.all isAllowed = true :=
    List.all_eq_true.2 fun c hc => (isAllowed_of_isInLine (hchars c hc)).1
  rw [Yaml.content?, hall, if_pos rfl, normalize_of_isInLine hchars]

end Text
end Yaml
end PackPlan
