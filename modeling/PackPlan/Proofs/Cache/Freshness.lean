import PackPlan.Proofs.Cache.Run

/-!
# PackPlan.Proofs.Cache.Freshness

What a lookup finds was stored by the last command that stored its quantity, and is not too old. The
invariant ties each entry to the commands so far (`WrittenBy`): one of them stored just this entry, and
none after it stored the quantity anew, found the entry too old or dropped everything. One command
keeps that, because an entry that outlasts it is either the one it stored or was there before
(`Recency.mem_apply`).

Clocks may run backwards: each condition compares a time with the time of the entry, not with the
times of other commands.
-/

namespace PackPlan
namespace Cache

/-- The last of these commands that stored the quantity stored this entry, and no later one dropped
it as too old or with all others. -/
def WrittenBy (timeToLive : Nat) (commands : List Command) (h : Held) : Prop :=
  ∃ earlier later, commands = earlier ++ .set h.quantity h.shipment h.created :: later ∧
    ∀ command ∈ later, ¬ command.Sets h.quantity ∧ ¬ command.Ends h.quantity h.created timeToLive

section Written

variable {timeToLive : Nat} {commands : List Command} {command : Command} {h : Held}

theorem writtenBy_concat (timeToLive : Nat) (commands : List Command) (h : Held) :
    WrittenBy timeToLive (commands ++ [.set h.quantity h.shipment h.created]) h :=
  ⟨commands, [], rfl, by simp⟩

theorem WrittenBy.concat (hw : WrittenBy timeToLive commands h) (hs : ¬ command.Sets h.quantity)
    (he : ¬ command.Ends h.quantity h.created timeToLive) :
    WrittenBy timeToLive (commands ++ [command]) h := by
  obtain ⟨earlier, later, rfl, hlater⟩ := hw
  refine ⟨earlier, later ++ [command], by rw [List.append_assoc, List.cons_append], ?_⟩
  intro other ho
  rcases List.mem_append.1 ho with ho | ho
  · exact hlater other ho
  · rw [List.mem_singleton.1 ho]
    exact ⟨hs, he⟩

/-- By induction on the run: every entry was written by the commands so far. -/
theorem writtenBy_of_mem (capacity timeToLive : Nat) (commands : List Command) :
    ∀ h ∈ ((Recency.empty capacity timeToLive).after commands).held,
      WrittenBy timeToLive commands h := by
  induction commands using List.reverseRecOn with
  | nil => intro h hm; cases hm
  | append_singleton commands command ih =>
    intro h hm
    have ht := (represents_after capacity timeToLive commands).tidy
    rw [Recency.after_concat, Recency.mem_apply ht, (Recency.bounds_after _ _).2] at hm
    rcases hm with ⟨-, rfl⟩ | ⟨hm, hs, he, -⟩
    · exact writtenBy_concat timeToLive commands h
    · exact (ih h hm).concat hs he

/-- Another quantity, a clock that runs backwards, and a sweep that comes in time. -/
example :
    WrittenBy 10 [.set 3 ⟨3, 4, []⟩ 5, .set 4 ⟨4, 4, []⟩ 6, .get 3 2, .purge 14]
      ⟨3, ⟨3, 4, []⟩, 5⟩ :=
  ⟨[], [.set 4 ⟨4, 4, []⟩ 6, .get 3 2, .purge 14], rfl, by decide⟩

/-- **Hits are fresh.** A shipment that a lookup finds after a run is the one that was stored last for
its quantity. At the time of the lookup it is not too old, and since it was stored no lookup and no
sweep found it too old and nothing dropped all entries. If entries may not grow old at all, there are
no hits. -/
theorem get_fresh (capacity timeToLive : Nat) (commands : List Command) (quantity : Int)
    (now : Nat) :
    (∀ shipment,
      (((empty capacity timeToLive).after commands).get quantity now).1 = some shipment →
        ∃ created, now - created < timeToLive ∧
          WrittenBy timeToLive commands ⟨quantity, shipment, created⟩) ∧
    (timeToLive = 0 → (((empty capacity timeToLive).after commands).get quantity now).1 = none) := by
  have hfresh : ∀ shipment,
      (((empty capacity timeToLive).after commands).get quantity now).1 = some shipment →
        ∃ created, now - created < timeToLive ∧
          WrittenBy timeToLive commands ⟨quantity, shipment, created⟩ := by
    intro shipment hg
    rw [((represents_after capacity timeToLive commands).get quantity now).1] at hg
    obtain ⟨h, hm, rfl, rfl, hlt⟩ := Recency.exists_of_get hg
    rw [(Recency.bounds_after _ _).2] at hlt
    exact ⟨h.created, hlt, writtenBy_of_mem capacity timeToLive commands h hm⟩
  refine ⟨hfresh, fun hzero => ?_⟩
  rw [Option.eq_none_iff_forall_ne_some]
  intro shipment hg
  obtain ⟨created, hlt, -⟩ := hfresh shipment hg
  omega

/-- A quantity is stored twice, another one in between, and the clock runs backwards. -/
theorem get_fresh_restored :
    let commands : List Command := [.set 3 ⟨3, 4, []⟩ 5, .set 4 ⟨4, 4, []⟩ 6, .get 3 9,
      .set 3 ⟨3, 3, []⟩ 12, .purge 15, .get 4 2]
    (((empty 2 10).after commands).get 3 20).1 = some ⟨3, 3, []⟩ ∧
      (∃ created, 20 - created < 10 ∧ WrittenBy 10 commands ⟨3, ⟨3, 3, []⟩, created⟩) ∧
      (0 = 0 ∧ (((empty 2 0).after commands).get 3 12).1 = none) := by
  intro commands
  have hfound : (((empty 2 10).after commands).get 3 20).1 = some ⟨3, 3, []⟩ := by
    rw [((represents_after 2 10 commands).get 3 20).1]; rfl
  exact ⟨hfound, (get_fresh 2 10 commands 3 20).1 _ hfound, rfl, (get_fresh 2 0 commands 3 12).2 rfl⟩

end Written
end Cache
end PackPlan
