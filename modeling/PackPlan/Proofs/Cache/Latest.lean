import PackPlan.Proofs.Cache.Retention

/-!
# PackPlan.Proofs.Cache.Latest

The order of a cache from which nothing is dropped for its age, read off a record of what was touched:
the first distinct quantities of the record, as many as may be held (`latest`). A quantity is among
them exactly if fewer distinct ones than that were touched since (`mem_latest`).

A touch of a held quantity moves it to the front (`latest_cons_of_mem`), a touch of another one drops
the last quantity once the cache is full (`latest_cons_of_not_mem`). That is also what the list behind
a cache does when a lookup finds something and when a new quantity is stored.
-/

namespace PackPlan
namespace Cache

/-- The first distinct quantities of a record, at most this many. -/
def latest (n : Nat) (record : List Int) : List Int := record.eraseDups.take n

section Record

variable {n : Nat} {quantity : Int} {record : List Int}

theorem filter_eraseDups (p : Int → Bool) (record : List Int) :
    record.eraseDups.filter p = (record.filter p).eraseDups := by
  match record with
  | [] => rfl
  | first :: rest =>
    have hshort : (rest.filter fun x => !x == first).length < rest.length + 1 :=
      Nat.lt_succ_of_le (List.length_filter_le _ _)
    have ih := filter_eraseDups p (rest.filter fun x => !x == first)
    rw [List.filter_filter] at ih
    rw [List.eraseDups_cons]
    by_cases hp : p first = true
    · rw [List.filter_cons_of_pos hp, List.filter_cons_of_pos hp, List.eraseDups_cons, ih,
        List.filter_filter]
      simp only [Bool.and_comm]
    · rw [List.filter_cons_of_neg hp, List.filter_cons_of_neg hp, ih]
      refine congrArg List.eraseDups (List.filter_congr fun x _ => ?_)
      by_cases hx : x = first
      · simp [hx, hp]
      · simp [hx]
termination_by record.length

theorem eraseDups_touch (quantity : Int) (record : List Int) :
    (quantity :: record).eraseDups = quantity :: record.eraseDups.filter (· != quantity) := by
  rw [List.eraseDups_cons, filter_eraseDups]; rfl

theorem nodup_eraseDups (record : List Int) : record.eraseDups.Nodup := by
  induction record with
  | nil => exact List.nodup_nil
  | cons first rest ih =>
    rw [eraseDups_touch, List.nodup_cons]
    exact ⟨by simp, ih.filter _⟩

theorem latest_nil (n : Nat) : latest n [] = [] := List.take_nil

theorem nodup_latest (n : Nat) (record : List Int) : (latest n record).Nodup :=
  (nodup_eraseDups record).sublist (List.take_sublist n _)

theorem take_erase {xs : List Int} (hm : quantity ∈ xs.take (n + 1)) :
    (xs.erase quantity).take n = (xs.take (n + 1)).erase quantity := by
  induction xs generalizing n with
  | nil => simp at hm
  | cons first rest ih =>
    rw [List.take_succ_cons] at hm ⊢
    by_cases hq : first = quantity
    · rw [hq, List.erase_cons_head, List.erase_cons_head]
    · have hrest : quantity ∈ rest.take n := (List.mem_cons.1 hm).resolve_left (Ne.symm hq)
      cases n with
      | zero => simp at hrest
      | succ n =>
        rw [List.erase_cons_tail (by simpa using hq), List.erase_cons_tail (by simpa using hq),
          List.take_succ_cons, ih hrest]

theorem take_erase_of_not_mem {xs : List Int} (hm : quantity ∉ xs.take (n + 1)) :
    (xs.erase quantity).take n = xs.take n := by
  induction xs generalizing n with
  | nil => rfl
  | cons first rest ih =>
    rw [List.take_succ_cons, List.mem_cons, not_or] at hm
    rw [List.erase_cons_tail (by simpa using Ne.symm hm.1)]
    cases n with
    | zero => rfl
    | succ n => rw [List.take_succ_cons, List.take_succ_cons, ih hm.2]

theorem latest_cons_of_mem (hm : quantity ∈ latest n record) :
    latest n (quantity :: record) = quantity :: (latest n record).filter (· != quantity) := by
  cases n with
  | zero => simp [latest] at hm
  | succ n =>
    rw [← (nodup_latest _ _).erase_eq_filter, latest, eraseDups_touch, List.take_succ_cons,
      ← (nodup_eraseDups _).erase_eq_filter, take_erase hm]
    rfl

theorem latest_cons_of_not_mem (hn : n ≠ 0) (hm : quantity ∉ latest n record) :
    latest n (quantity :: record) =
      quantity :: if n ≤ (latest n record).length then (latest n record).dropLast
        else latest n record := by
  obtain ⟨k, rfl⟩ := Nat.exists_eq_succ_of_ne_zero hn
  have hlength : (latest (k + 1) record).length = min (k + 1) record.eraseDups.length :=
    List.length_take ..
  have hkept : latest (k + 1) (quantity :: record) = quantity :: record.eraseDups.take k := by
    rw [latest, eraseDups_touch, List.take_succ_cons, ← (nodup_eraseDups _).erase_eq_filter,
      take_erase_of_not_mem hm]
  rw [hkept]
  by_cases hfull : k + 1 ≤ (latest (k + 1) record).length
  · have hk : (latest (k + 1) record).length - 1 = k := by omega
    rw [if_pos hfull, List.dropLast_eq_take, hk, latest, List.take_take, Nat.min_eq_left (by omega)]
  · have hshort : record.eraseDups.length ≤ k := by omega
    rw [if_neg hfull, latest, List.take_of_length_le hshort, List.take_of_length_le (by omega)]

theorem since_filter {first : Int} (h : first ≠ quantity) :
    since quantity (record.filter fun x => !x == first) =
      (since quantity record).filter fun x => !x == first := by
  rw [since, List.takeWhile_filter, since]
  congr 2
  funext x
  by_cases hx : x = first
  · simp [hx, h]
  · simp [hx]

theorem card_touched (first : Int) (record : List Int) :
    (first :: record).toFinset.card = (record.filter fun x => !x == first).toFinset.card + 1 := by
  have herase : (record.filter fun x => !x == first).toFinset = record.toFinset.erase first := by
    ext x
    simp [and_comm]
  rw [herase, List.toFinset_cons, ← Finset.erase_insert_eq_erase,
    Finset.card_erase_add_one (Finset.mem_insert_self ..)]

/-- A quantity is among the latest if fewer others were touched since. -/
theorem mem_latest (quantity : Int) (n : Nat) (record : List Int) :
    quantity ∈ latest n record ↔ quantity ∈ record ∧ (since quantity record).toFinset.card < n := by
  match record, n with
  | [], n => simp [latest]
  | _, 0 => simp [latest]
  | first :: rest, n + 1 =>
    -- the first quantity takes one of the places, and the rest is looked at without it
    have hshort : (rest.filter fun x => !x == first).length < rest.length + 1 :=
      Nat.lt_succ_of_le (List.length_filter_le _ _)
    have ih := mem_latest quantity n (rest.filter fun x => !x == first)
    rw [latest, List.eraseDups_cons, List.take_succ_cons, List.mem_cons, ← latest, ih]
    by_cases hq : quantity = first
    · simp [hq, since]
    · rw [since_cons_of_ne (Ne.symm hq), since_filter (Ne.symm hq), card_touched]
      simp [hq]
termination_by record.length

theorem card_eq_length (record : List Int) :
    record.toFinset.card = record.eraseDups.length := by
  have hsame : record.eraseDups.toFinset = record.toFinset := by
    ext x
    simp
  rw [← hsame, List.toFinset_card_of_nodup (nodup_eraseDups record)]

theorem latest_of_card_le (h : record.toFinset.card ≤ n) : latest n record = record.eraseDups :=
  List.take_of_length_le (card_eq_length record ▸ h)

end Record
end Cache

namespace Recency

open Cache (latest latest_cons_of_mem latest_cons_of_not_mem)

section Touch

variable {r : Recency} {record : List Int} {quantity : Int} {shipment : Shipment} {now : Nat}

theorem find?_eq_none_iff : r.find? quantity = none ↔ quantity ∉ r.order := by
  rw [find?, List.find?_eq_none, order, List.mem_map]
  simp

theorem map_others (r : Recency) (quantity : Int) :
    (r.others quantity).map Held.quantity = r.order.filter (· != quantity) := by
  rw [order, List.filter_map]; rfl

theorem order_get (ho : r.order = latest r.capacity record)
    (hg : (r.get quantity now).1 = some shipment) :
    (r.get quantity now).2.order = latest r.capacity (quantity :: record) := by
  cases hf : r.find? quantity with
  | none => rw [get_of_absent hf] at hg; cases hg
  | some found =>
    obtain ⟨hm, rfl⟩ := mem_of_find? hf
    by_cases hold : r.isExpired now found = true
    · rw [get_of_expired hf hold] at hg; cases hg
    · have hheld : found.quantity ∈ latest r.capacity record := by
        rw [← ho]
        exact List.mem_map_of_mem hm
      rw [get_of_fresh hf hold, latest_cons_of_mem hheld, ← ho, ← map_others]; rfl

theorem order_set (ho : r.order = latest r.capacity record) (hf : r.find? quantity = none) :
    (r.set quantity shipment now).order = latest r.capacity (quantity :: record) := by
  by_cases hc : r.capacity = 0
  · -- nothing is stored, and none is the latest of none
    rw [set_of_disabled hc, ho, hc]; rfl
  · have hnew : quantity ∉ latest r.capacity record := by
      rw [← ho]
      exact find?_eq_none_iff.1 hf
    rw [set_of_new hc hf, latest_cons_of_not_mem hc hnew, ← ho]
    simp only [order, List.map_cons, List.length_map]
    split
    · rw [List.map_dropLast]
    · rfl

end Touch
end Recency
end PackPlan
