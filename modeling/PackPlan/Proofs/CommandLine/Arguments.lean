import PackPlan.CommandLine.Arguments
import PackPlan.Proofs.Numeral

/-!
# PackPlan.Proofs.CommandLine.Arguments

Which level arguments give to the log. `levels` reads it off the arguments one by one, from the forms
in which it can be given; `logLevel_of_ofArguments` says that the options have the last one given, or
else what the variables say.

Reading keeps what it has not looked into yet, so the argument with a value may be far behind the one
that names the option. `Level.Reads` says what one argument can do, and `Level.Leads` chains it over
arguments that are all in order in the end. What has been given then is what the level had and what the
arguments give (`Level.Leads.levels_append`). Where they give a level, the variable for it has no part
in the options (`Alike.ofArguments_eq`).
-/

namespace PackPlan
namespace CommandLine

open Options

/-! ## What arguments give -/

/-- The value that goes with a letter, if one does. -/
def attached? : List Char → Option String
  | [] => none
  | '=' :: value => some (String.ofList value)
  | value => some (String.ofList value)

/-- The option that an argument names, and the value that goes with it. -/
def setting? (stage : Stage) (text : String) : Option (Setting × Option String) :=
  match Form.ofText text with
  | .long name value => (stage.long? name).map fun s => (s, value)
  | .short name attached => (stage.short? name).map fun s => (s, attached? attached)
  | _ => none

/-- The level that an argument gives to the log. It may be the next argument. -/
def level? (text : String) (next : Option String) : Option String :=
  match setting? .start text with
  | some (.logLevel, value) => value.or next
  | _ => none

/-- The levels that arguments give to the log, in their order. -/
def levels : List String → List String
  | [] => []
  | text :: rest => (level? text rest.head?).toList ++ levels rest

example : levels ["-lerror", "calculate", "5", "-s", "7", "--log-level", "debug"] =
    ["error", "debug"] := by rfl

section Forms

variable {stage : Stage} {text : String}

/-- The options before the command may also be given after it. -/
theorem long?_cases (stage : Stage) (name : String) :
    stage.long? name = Stage.long? .start name ∨
      ∃ s, stage.long? name = some s ∧ s ≠ .logLevel ∧ Stage.long? .start name = none := by
  by_cases hc : stage = .calculate
  · simp only [Stage.long?, hc]
    grind
  · simp only [Stage.long?, hc]
    grind

theorem short?_cases (stage : Stage) (name : Char) :
    stage.short? name = Stage.short? .start name ∨
      ∃ s, stage.short? name = some s ∧ s ≠ .logLevel ∧ Stage.short? .start name = none := by
  by_cases hc : stage = .calculate
  · simp only [Stage.short?, hc]
    grind
  · simp only [Stage.short?, hc]
    grind

/-- The level of the log can be given anywhere. -/
theorem setting?_cases (stage : Stage) (text : String) :
    setting? stage text = setting? .start text ∨
      ∃ s value, setting? stage text = some (s, value) ∧ s ≠ .logLevel ∧
        setting? .start text = none := by
  unfold setting?
  cases Form.ofText text with
  | dashes => exact .inl rfl
  | word => exact .inl rfl
  | long name value =>
    rcases long?_cases stage name with h | ⟨s, h, hs, hstart⟩
    · simp only [h, true_or]
    · simp only [h, hstart]
      exact .inr ⟨s, value, rfl, hs, rfl⟩
  | short name attached =>
    rcases short?_cases stage name with h | ⟨s, h, hs, hstart⟩
    · simp only [h, true_or]
    · simp only [h, hstart]
      exact .inr ⟨s, attached? attached, rfl, hs, rfl⟩

theorem level?_of_setting? {s : Setting} {value : Option String}
    (h : setting? stage text = some (s, value)) (next : Option String) :
    level? text next = if s = .logLevel then value.or next else none := by
  rcases setting?_cases stage text with hstart | ⟨s', value', h', hs, hstart⟩
  · rw [level?, ← hstart, h]
    cases s <;> rfl
  · rw [h] at h'
    cases h'
    rw [level?, hstart, if_neg hs]

theorem level?_of_none (h : setting? stage text = none) (next : Option String) :
    level? text next = none := by
  rcases setting?_cases stage text with hstart | ⟨s, value, h', -, -⟩
  · rw [level?, ← hstart, h]
  · rw [h] at h'
    cases h'

theorem short?_of_isDigit {c : Char} (h : c.isDigit = true) : stage.short? c = none := by
  have hne : ∀ letter : Char, letter.isDigit = false → c ≠ letter := by
    rintro letter hl rfl
    rw [h] at hl
    cases hl
  have hs : ¬(stage = .calculate ∧ c = 's') := fun hc => hne 's' rfl hc.2
  have hf : ¬(stage = .calculate ∧ c = 'f') := fun hc => hne 'f' rfl hc.2
  simp only [Stage.short?, if_neg (hne 'l' rfl), if_neg (hne 'c' rfl), if_neg hs, if_neg hf]

theorem isDigit_of_isNumber {c : Char} {rest : List Char} (h : isNumber (c :: rest) = true) :
    c.isDigit = true := by
  by_cases he : c = 'e'
  · subst he
    cases h
  · have htake : (c :: rest).takeWhile (· != 'e') = c :: rest.takeWhile (· != 'e') :=
      List.takeWhile_cons_of_pos (by simpa using he)
    simp only [isNumber, htake, isFixedPoint, Bool.and_eq_true] at h
    obtain ⟨⟨⟨hall, -⟩, hfirst⟩, -⟩ := h
    simp only [List.all_cons, Bool.and_eq_true, Bool.or_eq_true, beq_iff_eq] at hall
    rcases hall.1 with hd | rfl
    · exact hd
    · simp at hfirst

theorem ofText_word (h : text.toList.head? ≠ some '-') : Form.ofText text = .word := by
  rw [Form.ofText]
  split
  · rename_i hd; exact absurd (by rw [hd]; rfl) h
  · rename_i hd; exact absurd (by rw [hd]; rfl) h
  · rename_i hd; exact absurd (by rw [hd]; rfl) h
  · rfl

theorem ofText_short {name : Char} {attached : List Char} (h : text.toList = '-' :: name :: attached)
    (hn : name ≠ '-') : Form.ofText text = .short name attached := by
  rw [Form.ofText, h]
  split
  · rename_i hd; simp_all
  · rename_i hd; simp_all
  · rename_i hd; simp_all
  · rename_i hno; exact absurd rfl (hno name attached)

/-- A quantity names no option. -/
theorem setting?_of_quantity (stage : Stage) (h : (quantity? text).isSome) :
    setting? stage text = none := by
  obtain ⟨q, hq⟩ := Option.isSome_iff_exists.1 h
  obtain ⟨hwrites, -⟩ := Numeral.quantity?_eq_some.1 hq
  generalize hcs : text.toList = cs at hwrites
  have hword : cs.head? ≠ some '-' → setting? stage text = none := by
    intro hhead
    rw [setting?, ofText_word (by rwa [hcs])]
  cases hwrites with
  | plain hd => exact hword fun hhead => hd.not_mem rfl (List.mem_of_mem_head? hhead)
  | plus hd => exact hword (by simp)
  | @minus digits hd =>
    cases digits with
    | nil => exact absurd rfl hd.ne_nil
    | cons c rest =>
      have hc := hd.digits c List.mem_cons_self
      have hne : c ≠ '-' := by
        rintro rfl
        cases hc
      simp only [setting?, ofText_short hcs hne, short?_of_isDigit hc, Option.map_none]

end Forms

/-! ## One argument -/

/-- What an argument does at a level that goes on. -/
inductive Level.Reads (stage : Stage) (l : Level) (text : String) : Level → Prop where
  | dashes : l.dashed = false → setting? stage text = none →
      Reads stage l text { l with dashed := true }
  | value {s : Setting} : l.dashed = false → setting? stage text = none → l.pending = .setting s →
      Reads stage l text { l with pending := .value s text }
  | quantity {texts : List String} : l.pending = .quantities texts →
      Reads stage l text { l with pending := .quantities (texts ++ [text]) }
  | firstQuantity {given : Given} : l.settle = .ok given →
      Reads stage l text { l with given := given, pending := .quantities [text] }
  | await {s : Setting} {given : Given} : l.dashed = false →
      setting? stage text = some (s, none) → l.settle = .ok given →
      Reads stage l text { l with given := given, pending := .setting s }
  | give {s : Setting} {value : String} {given given' : Given} : l.dashed = false →
      setting? stage text = some (s, some value) → l.settle = .ok given →
      given.put? s value = some given' →
      Reads stage l text { l with given := given', pending := .nothing }

namespace Level

variable {stage : Stage} {l l' : Level} {text : String}

theorem help_ne_ok (l l' : Level) (full : Bool) : l.help stage full ≠ .ok l' := by
  rw [help]
  split <;> exact nofun

theorem count_reads (h : l.count stage text = .ok l') : Reads stage l text l' := by
  simp only [count] at h
  split at h
  · split at h
    · rename_i texts hp; cases h
      exact .quantity hp
    · cases hs : l.settle with
      | error e => rw [hs] at h; cases h
      | ok given => rw [hs] at h; cases h; exact .firstQuantity hs
  · cases h

theorem take_reads (hd : l.dashed = false) (hn : setting? stage text = none)
    (h : l.take stage text = .ok l') : Reads stage l text l' := by
  simp only [take] at h
  split at h
  · rename_i s hp; cases h
    exact .value hd hn hp
  · exact count_reads h

theorem await_reads {s : Setting} (hd : l.dashed = false)
    (hn : setting? stage text = some (s, none)) (h : l.await s = .ok l') :
    Reads stage l text l' := by
  rw [await] at h
  cases hs : l.settle with
  | error e => rw [hs] at h; cases h
  | ok given => rw [hs] at h; cases h; exact .await hd hn hs

theorem give_reads {s : Setting} {value : String} (hd : l.dashed = false)
    (hn : setting? stage text = some (s, some value)) (h : l.give s value = .ok l') :
    Reads stage l text l' := by
  simp only [give] at h
  split at h
  · cases h
  · rename_i given hs
    split at h
    · rename_i given' hp; cases h
      exact .give hd hn hs hp
    · cases h

theorem reads_of_read (h : l.read stage text = .ok l') : Reads stage l text l' := by
  rw [read] at h
  split at h
  · exact count_reads h
  · rename_i hd
    rw [Bool.not_eq_true] at hd
    split at h
    · rename_i hf; cases h
      exact .dashes hd (by simp only [setting?, hf])
    · rename_i name value hf
      have hn : setting? stage text = (stage.long? name).map fun s => (s, value) := by
        simp only [setting?, hf]
      split at h
      · split at h
        · cases h
        · exact absurd h (help_ne_ok l l' _)
      · split at h
        · cases h
        · rename_i s value hs
          exact give_reads hd (by rw [hn, hs]; rfl) h
        · rename_i s hs
          exact await_reads hd (by rw [hn, hs]; rfl) h
    · rename_i name attached hf
      have hn : setting? stage text = (stage.short? name).map fun s => (s, attached? attached) := by
        simp only [setting?, hf]
      split at h
      · rename_i hnumber
        rw [Bool.and_eq_true] at hnumber
        refine take_reads hd ?_ h
        rw [hn, short?_of_isDigit (isDigit_of_isNumber hnumber.2)]
        rfl
      · split at h
        · exact absurd h (help_ne_ok l l' _)
        · cases hs : stage.short? name with
          | none => rw [hs] at h; cases h
          | some s =>
            rw [hs] at h hn
            cases attached with
            | nil => exact await_reads hd hn h
            | cons c rest =>
              by_cases hc : c = '='
              · subst hc
                exact give_reads hd hn h
              · have hvalue : attached? (c :: rest) = some (String.ofList (c :: rest)) := by
                  simp [attached?, hc]
                rw [hvalue] at hn
                refine give_reads hd hn ?_
                simpa [hc] using h
    · rename_i hf
      exact take_reads hd (by simp only [setting?, hf]) h

end Level

/-! ## All arguments -/

/-- Reading these arguments at a level gives this in the end. -/
inductive Level.Leads (stage : Stage) : Level → List String → Given → Prop where
  | done {l : Level} {given : Given} : l.settle = .ok given → Leads stage l [] given
  | more {l l' : Level} {text : String} {rest : List String} {given : Given} :
      Level.Reads stage l text l' → Leads stage l' rest given → Leads stage l (text :: rest) given

/-- The levels of the log that are given to a level, or that what waits there will give. -/
def Level.held (l : Level) (next : Option String) : List String :=
  l.given.logLevel.toList ++
    match l.pending with
    | .setting .logLevel => next.toList
    | .value .logLevel text => [text]
    | _ => []

theorem Given.put?_logLevel {given given' : Given} {s : Setting} {value : String}
    (h : given.put? s value = some given') :
    given'.logLevel.toList = given.logLevel.toList ++ if s = .logLevel then [value] else [] := by
  cases s with
  | logLevel =>
    simp only [put?] at h
    split at h
    · cases h
    · rename_i hno; cases h
      rw [Bool.not_eq_true, Option.isSome_eq_false_iff, Option.isNone_iff_eq_none] at hno
      rw [hno]
      rfl
  | logFormat =>
    simp only [put?] at h
    split at h
    · cases h
    · obtain ⟨format, -, rfl⟩ := Option.map_eq_some_iff.1 h
      simp
  | config =>
    simp only [put?] at h
    split at h
    · cases h
    · obtain ⟨path, -, rfl⟩ := Option.map_eq_some_iff.1 h
      simp
  | sizes =>
    obtain ⟨sizes, -, rfl⟩ := Option.map_eq_some_iff.1 h
    simp
  | format =>
    simp only [put?] at h
    split at h
    · cases h
    · obtain ⟨format, -, rfl⟩ := Option.map_eq_some_iff.1 h
      simp

theorem isSome_of_mapM {α β : Type} {f : α → Option β} {xs : List α} {ys : List β}
    (h : xs.mapM f = some ys) : ∀ x ∈ xs, (f x).isSome := by
  induction xs generalizing ys with
  | nil => exact List.forall_mem_nil _
  | cons x rest ih =>
    rw [List.mapM_cons, Option.bind_eq_bind, Option.bind_eq_some_iff] at h
    obtain ⟨y, hy, h⟩ := h
    rw [Option.bind_eq_bind, Option.bind_eq_some_iff] at h
    obtain ⟨others, hrest, -⟩ := h
    exact List.forall_mem_cons.2 ⟨by rw [hy]; rfl, ih hrest⟩

namespace Level

section Held

variable {stage : Stage} {l l' : Level} {text : String} {texts rest : List String}
  {given : Given}

theorem leads_of_readAll (hr : readAll stage l texts = .ok l') (hs : l'.settle = .ok given) :
    Leads stage l texts given := by
  induction texts generalizing l with
  | nil => cases hr; exact .done hs
  | cons text rest ih =>
    simp only [readAll] at hr
    split at hr
    · cases hr
    · rename_i hread
      exact .more (reads_of_read hread) (ih hr)

/-- What waits is looked into when a level settles, and no value may be missing then. -/
theorem settle_cases (h : l.settle = .ok given) :
    (l.pending = .nothing ∧ given = l.given) ∨
    (∃ s text, l.pending = .value s text ∧ l.given.put? s text = some given) ∨
    ∃ texts quantities, l.pending = .quantities texts ∧ texts.mapM quantity? = some quantities ∧
      given = { l.given with quantities := l.given.quantities ++ quantities } := by
  simp only [settle] at h
  split at h
  · rename_i settled hsettled; cases h
    split at hsettled
    · rename_i hp; cases hsettled
      exact .inl ⟨hp, rfl⟩
    · cases hsettled
    · rename_i s text hp
      exact .inr (.inl ⟨s, text, hp, hsettled⟩)
    · rename_i texts hp
      obtain ⟨quantities, hq, rfl⟩ := Option.map_eq_some_iff.1 hsettled
      exact .inr (.inr ⟨texts, quantities, hp, hq, rfl⟩)
  · cases h

theorem pending_ne_setting (h : l.settle = .ok given) (s : Setting) : l.pending ≠ .setting s := by
  intro hp
  rcases settle_cases h with ⟨hn, -⟩ | ⟨_, _, hn, -⟩ | ⟨_, _, hn, -⟩ <;> cases hp.symm.trans hn

theorem quantity_of_settle (h : l.settle = .ok given) (hp : l.pending = .quantities texts)
    (hm : text ∈ texts) : (quantity? text).isSome := by
  rcases settle_cases h with ⟨hn, -⟩ | ⟨_, _, hn, -⟩ | ⟨_, quantities, hn, hq, -⟩
  · cases hp.symm.trans hn
  · cases hp.symm.trans hn
  · cases hp.symm.trans hn
    exact isSome_of_mapM hq text hm

theorem held_of_settle (h : l.settle = .ok given) (next : Option String) :
    l.held next = given.logLevel.toList := by
  rcases settle_cases h with ⟨hp, rfl⟩ | ⟨s, value, hp, hput⟩ | ⟨texts, quantities, hp, -, rfl⟩
  · rw [held, hp, List.append_nil]
  · rw [Given.put?_logLevel hput, held, hp]
    cases s <;> rfl
  · rw [held, hp, List.append_nil]

/-- Without a missing value the next argument is of no account. -/
theorem held_congr (h : ∀ s, l.pending ≠ .setting s) (next next' : Option String) :
    l.held next = l.held next' := by
  unfold held
  split
  · rename_i hp; exact absurd hp (h _)
  · rfl
  · rfl

namespace Leads

/-- Where only quantities are left, an option gets no value any more. -/
theorem pending_ne_setting (h : Leads stage l texts given) (hd : l.dashed = true) (s : Setting) :
    l.pending ≠ .setting s := by
  cases h with
  | done hs => exact Level.pending_ne_setting hs s
  | more hr _ =>
    cases hr with
    | quantity hp => rw [hp]; exact nofun
    | firstQuantity hs => exact Level.pending_ne_setting hs s
    | dashes hno => rw [hd] at hno; cases hno
    | value hno => rw [hd] at hno; cases hno
    | await hno => rw [hd] at hno; cases hno
    | give hno => rw [hd] at hno; cases hno

/-- What waits to be a quantity is one. -/
theorem quantity (h : Leads stage l rest given) (hp : l.pending = .quantities texts)
    (hm : text ∈ texts) : (quantity? text).isSome := by
  induction h generalizing texts with
  | done hs => exact quantity_of_settle hs hp hm
  | more hr _ ih =>
    cases hr with
    | dashes => exact ih hp hm
    | value _ _ hs => cases hp.symm.trans hs
    | quantity hq =>
      cases hp.symm.trans hq
      exact ih rfl (List.mem_append_left _ hm)
    | firstQuantity hs => exact quantity_of_settle hs hp hm
    | await _ _ hs => exact quantity_of_settle hs hp hm
    | give _ _ hs => exact quantity_of_settle hs hp hm

end Leads

theorem held_start (next : Option String) : ({} : Level).held next = [] := rfl

/-- An argument adds the level that it gives, also if the next argument is this level. -/
theorem Reads.held_eq (h : Reads stage l text l') (hl : Leads stage l' rest given)
    (next : Option String) : l'.held next = l.held (some text) ++ (level? text next).toList := by
  cases h with
  | dashes hd hn =>
    rw [level?_of_none hn, Option.toList_none, List.append_nil]
    exact held_congr (hl.pending_ne_setting rfl) next (some text)
  | @value s hd hn hp =>
    rw [level?_of_none hn, held, held, hp]
    cases s <;> simp
  | @quantity texts hp =>
    have hq := hl.quantity rfl (List.mem_append_right texts (List.mem_singleton_self text))
    rw [level?_of_none (setting?_of_quantity stage hq), held, held, hp]
    simp
  | firstQuantity hs =>
    have hq := hl.quantity rfl (List.mem_singleton_self text)
    rw [level?_of_none (setting?_of_quantity stage hq), held_of_settle hs, held]
    rfl
  | @await s given hd hn hs =>
    rw [level?_of_setting? hn, held_of_settle hs, held]
    cases s <;> rfl
  | @give s value given given' hd hn hs hput =>
    rw [level?_of_setting? hn, held_of_settle hs, held, Given.put?_logLevel hput]
    cases s <;> simp

/-- What is given in the end is what the level had and what the arguments give, whatever comes after
them. -/
theorem Leads.levels_append (h : Leads stage l texts given) (after : List String) :
    given.logLevel.toList ++ levels after =
      l.held (texts ++ after).head? ++ levels (texts ++ after) := by
  induction h with
  | done hs => rw [List.nil_append, held_of_settle hs]
  | more hr hl ih =>
    rw [ih, hr.held_eq hl, List.cons_append, levels, List.head?_cons, List.append_assoc]

end Held

end Level

/-! ## The command line -/

section Arguments

variable {v w : Variables} {l : Level} {text : String} {texts : List String} {stage : Stage}
  {given : Given} {command : Command} {o : Options}

theorem afterCommand_levels (h : afterCommand stage texts = .ok (given, command)) :
    given.logLevel.toList = levels texts := by
  simp only [afterCommand] at h
  split at h
  · cases h
  · rename_i l hr
    split at h
    · cases h
    · rename_i settled hs
      have hl := (Level.leads_of_readAll hr hs).levels_append []
      simp only [levels, List.append_nil] at hl
      rw [Level.held_start, List.nil_append] at hl
      split at h
      · cases h; exact hl
      · split at h
        · cases h
        · cases h; exact hl

/-- The name of a command cuts the arguments into those before it and those after it. -/
theorem readFrom_eq_ok (h : readFrom v l texts = .ok o) :
    ∃ before name after stage outer inner command, texts = before ++ name :: after ∧
      Stage.named? name = some stage ∧ Level.Leads .start l before outer ∧
      afterCommand stage after = .ok (inner, command) ∧ o = complete v outer inner command := by
  induction texts generalizing l with
  | nil => cases h
  | cons text rest ih =>
    simp only [readFrom] at h
    split at h
    · cases h
    · split at h
      · split at h
        · cases h
        · rename_i hread
          obtain ⟨before, name, after, stage, outer, inner, command, rfl, hname, hl, hafter, ho⟩ := ih h
          exact ⟨text :: before, name, after, stage, outer, inner, command, rfl, hname,
            .more (Level.reads_of_read hread) hl, hafter, ho⟩
      · rename_i stage hstage
        split at h
        · cases h
        · cases h
        · rename_i inner command outer hafter hs
          split at h
          · cases h
            refine ⟨[], text, rest, stage, outer, inner, command, rfl, ?_, .done hs, hafter, rfl⟩
            split at hstage
            · exact hstage
            · cases hstage
          · cases h

theorem level?_of_named? (h : Stage.named? text = some stage) (next : Option String) :
    level? text next = none := by
  simp only [Stage.named?] at h
  split at h
  · rename_i ht; rw [ht]; rfl
  · split at h
    · rename_i ht; rw [ht]; rfl
    · cases h

/-- The level of a log is the last one that the arguments give, or else that of the variable. -/
theorem logLevel_of_ofArguments (h : Options.ofArguments v texts = .ok o) :
    o.logLevel = ((levels texts).getLast?.or (v.value? logLevelName)).getD "info" := by
  obtain ⟨before, name, after, stage, outer, inner, command, rfl, hname, hl, hafter, rfl⟩ :=
    readFrom_eq_ok h
  have hlevels := hl.levels_append (name :: after)
  rw [levels, level?_of_named? hname, Option.toList_none, List.nil_append,
    ← afterCommand_levels hafter, Level.held_start, List.nil_append] at hlevels
  rw [← hlevels, complete, choose, Option.bind_fun_some, List.getLast?_append]
  cases inner.logLevel <;> cases outer.logLevel <;> rfl

/-- The variables say the same of all options but the level of the log. -/
structure Alike (v w : Variables) : Prop where
  logFormat : v.value? logFormatName = w.value? logFormatName
  config : v.value? configName = w.value? configName

/-- Options without the level of the log. -/
def Options.unleveled (o : Options) : Options := { o with logLevel := "" }

theorem Alike.inOrder_eq (h : Alike v w) (given : Given) : inOrder v given = inOrder w given := by
  rw [inOrder, inOrder, h.logFormat, h.config]

theorem Alike.unleveled_complete (h : Alike v w) (outer inner : Given) (command : Command) :
    (complete v outer inner command).unleveled = (complete w outer inner command).unleveled := by
  rw [unleveled, unleveled, complete, complete, h.logFormat, h.config]

theorem Alike.readFrom_eq (h : Alike v w) (l : Level) (texts : List String) :
    (readFrom v l texts).map unleveled = (readFrom w l texts).map unleveled := by
  induction texts generalizing l with
  | nil => rfl
  | cons text rest ih =>
    simp only [readFrom, h.inOrder_eq]
    split
    · rfl
    · split
      · split
        · rfl
        · exact ih _
      · split
        · rfl
        · rfl
        · split
          · exact congrArg Except.ok (h.unleveled_complete ..)
          · rfl

/-- Where the arguments give a level to the log, the variable for it has no part in the options. -/
theorem Alike.ofArguments_eq (h : Alike v w) (hgiven : levels texts ≠ []) :
    Options.ofArguments v texts = Options.ofArguments w texts := by
  have heq : (Options.ofArguments v texts).map unleveled =
      (Options.ofArguments w texts).map unleveled := h.readFrom_eq {} texts
  cases hv : Options.ofArguments v texts with
  | error e =>
    cases hw : Options.ofArguments w texts with
    | error e' => rw [hv, hw] at heq; cases heq; rfl
    | ok o => rw [hv, hw] at heq; cases heq
  | ok o =>
    cases hw : Options.ofArguments w texts with
    | error e => rw [hv, hw] at heq; cases heq
    | ok o' =>
      rw [hv, hw] at heq
      have hlevel : o.logLevel = o'.logLevel := by
        rw [logLevel_of_ofArguments hv, logLevel_of_ofArguments hw,
          List.getLast?_eq_some_getLast hgiven]
        rfl
      cases o
      cases o'
      cases Except.ok.inj heq
      exact congrArg _ (congrArg (Options.mk · _ _ _) hlevel)

end Arguments

end CommandLine
end PackPlan
