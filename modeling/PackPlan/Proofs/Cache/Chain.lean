import PackPlan.Cache.Recency

/-!
# PackPlan.Proofs.Cache.Chain

The chain of a cache, and what taking an entry out of it and putting one at its head do to it.
`Linked` follows the keys of a stretch of the chain, with the keys next to it on either side; it splits
where the keys are split (`linked_append`). `Threaded` is the whole chain with its two ends.

* `threaded_unlink`: wherever a key stands, first, last, between others or alone, the chain closes
  over it.
* `threaded_pushFront`, `threaded_moveToFront`: a key comes to the front of the others.
* `SameContent`: none of these operations changes anything but links.
-/

namespace PackPlan

/-- An entry without its links. -/
def Entry.toHeld (e : Entry) : Held := ⟨e.quantity, e.shipment, e.created⟩

namespace Cache

/-- What is stored under a key. -/
def heldAt (c : Cache) (key : Nat) : Option Held := (c.entries.get? key).map Entry.toHeld

/-- The entries under the keys follow each other, the first after `newer` and the last before
`older`. -/
def Linked (a : Arena Entry) : Option Nat → List Nat → Option Nat → Prop
  | _, [], _ => True
  | newer, key :: rest, older =>
    (∃ e, a.get? key = some e ∧ e.newer = newer ∧ e.older = rest.head?.or older) ∧
      Linked a (some key) rest older

/-- The keys stand in the chain in this order, from head to tail. -/
structure Threaded (c : Cache) (keys : List Nat) : Prop where
  nodup : keys.Nodup
  linked : Linked c.entries none keys none
  head_eq : c.head = keys.head?
  tail_eq : c.tail = keys.getLast?

/-- Two caches with the same bounds, of which neither has counted more than the other. -/
structure SameFigures (c c' : Cache) : Prop where
  capacity_eq : c'.capacity = c.capacity
  timeToLive_eq : c'.timeToLive = c.timeToLive
  counters_eq : c'.counters = c.counters

theorem SameFigures.trans {c c' c'' : Cache} (h : SameFigures c c') (h' : SameFigures c' c'') :
    SameFigures c c'' where
  capacity_eq := h'.capacity_eq.trans h.capacity_eq
  timeToLive_eq := h'.timeToLive_eq.trans h.timeToLive_eq
  counters_eq := h'.counters_eq.trans h.counters_eq

/-- Two caches that differ in links only. -/
structure SameContent (c c' : Cache) : Prop extends SameFigures c c' where
  heldAt_eq : ∀ key, c'.heldAt key = c.heldAt key
  index_eq : c'.index = c.index

theorem SameContent.refl (c : Cache) : SameContent c c := ⟨⟨rfl, rfl, rfl⟩, fun _ => rfl, rfl⟩

theorem SameContent.trans {c c' c'' : Cache} (h : SameContent c c') (h' : SameContent c' c'') :
    SameContent c c'' where
  toSameFigures := h.toSameFigures.trans h'.toSameFigures
  heldAt_eq := fun key => (h'.heldAt_eq key).trans (h.heldAt_eq key)
  index_eq := h'.index_eq.trans h.index_eq

/-- Changing links leaves what is stored. -/
theorem heldAt_modify {a : Arena Entry} {key : Nat} {f : Entry → Entry}
    (hf : ∀ e, (f e).toHeld = e.toHeld) (other : Nat) :
    ((a.modify key f).get? other).map Entry.toHeld = (a.get? other).map Entry.toHeld := by
  rw [Arena.get?_modify]
  split
  · cases a.get? other with
    | none => rfl
    | some e => simp [hf]
  · rfl

/-! ## Stretches of the chain -/

section Linked

variable {a b : Arena Entry} {newer older : Option Nat} {keys xs ys : List Nat} {key : Nat}

theorem linked_append :
    Linked a newer (xs ++ ys) older ↔
      Linked a newer xs (ys.head?.or older) ∧ Linked a (xs.getLast?.or newer) ys older := by
  induction xs generalizing newer with
  | nil => simp [Linked]
  | cons x xs ih =>
    have hlast : (x :: xs).getLast?.or newer = xs.getLast?.or (some x) := by
      rw [List.getLast?_cons]
      cases xs.getLast? <;> rfl
    rw [List.cons_append, Linked, Linked, ih, List.head?_append, Option.or_assoc, hlast, and_assoc]

/-- Entries outside a stretch do not matter to it. -/
theorem Linked.congr (hab : ∀ key ∈ keys, b.get? key = a.get? key)
    (h : Linked a newer keys older) : Linked b newer keys older := by
  induction keys generalizing newer with
  | nil => trivial
  | cons key rest ih =>
    obtain ⟨⟨e, he, hn, ho⟩, hrest⟩ := h
    refine ⟨⟨e, by rw [hab key (List.mem_cons_self ..), he], hn, ho⟩, ?_⟩
    exact ih (fun k hk => hab k (List.mem_cons_of_mem _ hk)) hrest

theorem Linked.get?_isSome (h : Linked a newer keys older) (hk : key ∈ keys) :
    (a.get? key).isSome = true := by
  induction keys generalizing newer with
  | nil => cases hk
  | cons first rest ih =>
    obtain ⟨⟨e, he, -, -⟩, hrest⟩ := h
    rcases List.mem_cons.1 hk with rfl | hk
    · rw [he]; rfl
    · exact ih hrest hk

theorem Linked.modify {f : Entry → Entry} (hk : key ∉ keys) (h : Linked a newer keys older) :
    Linked (a.modify key f) newer keys older := by
  refine h.congr fun other ho => ?_
  have hne : key ≠ other := by rintro rfl; exact hk ho
  rw [Arena.get?_modify, if_neg hne]

/-- Another key comes before a stretch. -/
theorem Linked.set_newer {newer' : Option Nat} (hk : key ∉ keys)
    (h : Linked a newer (key :: keys) older) :
    Linked (a.modify key fun e => { e with newer := newer' }) newer' (key :: keys) older := by
  obtain ⟨⟨e, he, -, ho⟩, hrest⟩ := h
  refine ⟨⟨{ e with newer := newer' }, ?_, rfl, ho⟩, hrest.modify hk⟩
  rw [Arena.get?_modify, if_pos rfl, he]; rfl

/-- Another key comes after a stretch. -/
theorem Linked.set_older {older' : Option Nat} (hk : key ∉ keys)
    (h : Linked a newer (keys ++ [key]) older) :
    Linked (a.modify key fun e => { e with older := older' }) newer (keys ++ [key]) older' := by
  rw [linked_append] at h ⊢
  obtain ⟨hfront, ⟨e, he, hn, -⟩, -⟩ := h
  refine ⟨hfront.modify hk, ⟨{ e with older := older' }, ?_, hn, rfl⟩, trivial⟩
  rw [Arena.get?_modify, if_pos rfl, he]; rfl

end Linked

/-! ## Joining neighbours -/

section Join

variable {c : Cache} {newer older : Option Nat} {keys : List Nat}

theorem sameContent_setOlder (c : Cache) (newer older : Option Nat) :
    SameContent c (c.setOlder newer older) := by
  unfold setOlder
  split
  · exact ⟨⟨rfl, rfl, rfl⟩, heldAt_modify fun _ => rfl, rfl⟩
  · exact ⟨⟨rfl, rfl, rfl⟩, fun _ => rfl, rfl⟩

theorem sameContent_setNewer (c : Cache) (older newer : Option Nat) :
    SameContent c (c.setNewer older newer) := by
  unfold setNewer
  split
  · exact ⟨⟨rfl, rfl, rfl⟩, heldAt_modify fun _ => rfl, rfl⟩
  · exact ⟨⟨rfl, rfl, rfl⟩, fun _ => rfl, rfl⟩

/-- The last entry of a stretch gets another follower; an empty stretch gets another head. -/
theorem setOlder_spec (h : Linked c.entries newer keys older) (hn : keys.Nodup)
    (older' : Option Nat) :
    Linked (c.setOlder keys.getLast? older').entries newer keys older' ∧
      (∀ key, key ∉ keys →
        (c.setOlder keys.getLast? older').entries.get? key = c.entries.get? key) ∧
      (c.setOlder keys.getLast? older').head = (if keys = [] then older' else c.head) ∧
      (c.setOlder keys.getLast? older').tail = c.tail := by
  rcases List.eq_nil_or_concat keys with rfl | ⟨front, last, hkeys⟩
  · exact ⟨trivial, fun _ _ => rfl, rfl, rfl⟩
  · rw [List.concat_eq_append] at hkeys
    subst hkeys
    have hlive : (c.entries.get? last).isSome = true := h.get?_isSome (by simp)
    have heq : c.setOlder (front ++ [last]).getLast? older' =
        { c with entries := c.entries.modify last fun e => { e with older := older' } } := by
      simp [setOlder, Option.filter, hlive]
    have hlast : last ∉ front := by
      intro hm
      exact (List.nodup_append.1 hn).2.2 last hm last (by simp) rfl
    rw [heq]
    refine ⟨h.set_older hlast, ?_, by simp, rfl⟩
    intro key hk
    have hne : last ≠ key := by rintro rfl; exact hk (by simp)
    simp only
    rw [Arena.get?_modify, if_neg hne]

/-- The first entry of a stretch comes after another one; an empty stretch gets another tail. -/
theorem setNewer_spec (h : Linked c.entries newer keys older) (hn : keys.Nodup)
    (newer' : Option Nat) :
    Linked (c.setNewer keys.head? newer').entries newer' keys older ∧
      (∀ key, key ∉ keys →
        (c.setNewer keys.head? newer').entries.get? key = c.entries.get? key) ∧
      (c.setNewer keys.head? newer').tail = (if keys = [] then newer' else c.tail) ∧
      (c.setNewer keys.head? newer').head = c.head := by
  cases keys with
  | nil => exact ⟨trivial, fun _ _ => rfl, rfl, rfl⟩
  | cons first rest =>
    have hlive : (c.entries.get? first).isSome = true := h.get?_isSome (List.mem_cons_self ..)
    have heq : c.setNewer (first :: rest).head? newer' =
        { c with entries := c.entries.modify first fun e => { e with newer := newer' } } := by
      simp [setNewer, Option.filter, hlive]
    rw [heq]
    refine ⟨h.set_newer (List.nodup_cons.1 hn).1, ?_, by simp, rfl⟩
    intro key hk
    have hne : first ≠ key := by rintro rfl; exact hk (List.mem_cons_self ..)
    simp only
    rw [Arena.get?_modify, if_neg hne]

end Join

/-! ## Taking out and putting in front -/

section Surgery

variable {c : Cache} {key : Nat} {keys xs ys : List Nat}

theorem sameContent_unlink (c : Cache) (key : Nat) : SameContent c (c.unlink key) := by
  unfold unlink
  split
  · exact .refl c
  · refine .trans ?_ ((sameContent_setOlder _ _ _).trans (sameContent_setNewer _ _ _))
    exact ⟨⟨rfl, rfl, rfl⟩, heldAt_modify fun _ => rfl, rfl⟩

theorem sameContent_pushFront (c : Cache) (key : Nat) : SameContent c (c.pushFront key) := by
  unfold pushFront
  have hlink : SameContent c { c with
      entries := c.entries.modify key fun e => { e with newer := none, older := c.head } } :=
    ⟨⟨rfl, rfl, rfl⟩, heldAt_modify fun _ => rfl, rfl⟩
  have hboth := hlink.trans (sameContent_setNewer _ c.head (some key))
  exact ⟨⟨hboth.capacity_eq, hboth.timeToLive_eq, hboth.counters_eq⟩, hboth.heldAt_eq,
    hboth.index_eq⟩

theorem sameContent_moveToFront (c : Cache) (key : Nat) : SameContent c (c.moveToFront key) := by
  unfold moveToFront
  split
  · exact .refl c
  · exact (sameContent_unlink c key).trans (sameContent_pushFront _ key)

/-- A key in the middle of distinct ones is on neither side. -/
theorem not_mem_sides (h : (xs ++ key :: ys).Nodup) : key ∉ xs ∧ key ∉ ys ∧ (xs ++ ys).Nodup ∧
    ∀ k ∈ xs, k ∉ ys := by
  rw [List.nodup_append] at h
  obtain ⟨hx, hy, hdisj⟩ := h
  rw [List.nodup_cons] at hy
  refine ⟨fun hm => hdisj key hm key (List.mem_cons_self ..) rfl, hy.1, ?_, ?_⟩
  · rw [List.nodup_append]
    exact ⟨hx, hy.2, fun k hk l hl => hdisj k hk l (List.mem_cons_of_mem _ hl)⟩
  · intro k hk hm
    exact hdisj k hk k (List.mem_cons_of_mem _ hm) rfl

theorem not_mem_others (h : (xs ++ key :: ys).Nodup) : key ∉ xs ++ ys := by
  obtain ⟨hkx, hky, -, -⟩ := not_mem_sides h
  exact fun hm => (List.mem_append.1 hm).elim hkx hky

/-- The chain closes over an entry that is taken out. -/
theorem threaded_unlink (h : Threaded c (xs ++ key :: ys)) :
    Threaded (c.unlink key) (xs ++ ys) := by
  obtain ⟨hkx, hky, hnodup, hdisj⟩ := not_mem_sides h.nodup
  have hnx := (List.nodup_append.1 hnodup).1
  have hny := (List.nodup_append.1 hnodup).2.1
  have hlinked := h.linked
  rw [linked_append] at hlinked
  obtain ⟨hfront, ⟨e, he, hen, heo⟩, hback⟩ := hlinked
  rw [Option.or_none] at hen heo
  let alone := { c with
    entries := c.entries.modify key fun e => { e with newer := none, older := none } }
  have hunlink : c.unlink key = (alone.setOlder xs.getLast? ys.head?).setNewer ys.head? xs.getLast? := by
    simp only [unlink, he, hen, heo, alone]
  -- the entries before the key, then those after it, each with the other side as a neighbour
  obtain ⟨hfront', hother, hhead, htail⟩ := setOlder_spec (c := alone) (hfront.modify hkx) hnx ys.head?
  have hback' : Linked (alone.setOlder xs.getLast? ys.head?).entries (some key) ys none := by
    refine Linked.congr (fun k hk => hother k ?_) (hback.modify hky)
    intro hm; exact hdisj k hm hk
  obtain ⟨hback'', hother', htail', hhead'⟩ := setNewer_spec hback' hny xs.getLast?
  rw [hunlink]
  refine ⟨hnodup, ?_, ?_, ?_⟩
  · rw [linked_append, Option.or_none, Option.or_none]
    exact ⟨hfront'.congr fun k hk => hother' k (hdisj k hk), hback''⟩
  · rw [hhead', hhead, List.head?_append]
    split
    · rename_i hnil; subst hnil; rfl
    · rename_i hne
      have := h.head_eq
      cases xs with
      | nil => exact absurd rfl hne
      | cons x xs => exact this
  · rw [htail', htail, List.getLast?_append]
    split
    · rename_i hnil; subst hnil; rfl
    · rename_i hne
      have := h.tail_eq
      rw [List.getLast?_append, List.getLast?_cons] at this
      cases hy : ys.getLast? with
      | none => exact absurd (List.getLast?_eq_none_iff.1 hy) hne
      | some y => rw [hy] at this; exact this

/-- An entry that is out of the chain comes to its front. -/
theorem threaded_pushFront (h : Threaded c keys) (hk : key ∉ keys)
    (hlive : (c.entries.get? key).isSome = true) : Threaded (c.pushFront key) (key :: keys) := by
  obtain ⟨e, he⟩ := Option.isSome_iff_exists.1 hlive
  let linked := { c with
    entries := c.entries.modify key fun e => { e with newer := none, older := c.head } }
  obtain ⟨hl, hother, htail, -⟩ :=
    setNewer_spec (c := linked) (h.linked.modify hk) h.nodup (some key)
  have hpush : c.pushFront key =
      { linked.setNewer keys.head? (some key) with head := some key } := by
    simp only [pushFront, linked, h.head_eq]
  have hentry : linked.entries.get? key = some { e with newer := none, older := c.head } := by
    simp only [linked, Arena.get?_modify, if_pos, he, Option.map_some]
  rw [hpush]
  refine ⟨List.nodup_cons.2 ⟨hk, h.nodup⟩, ⟨⟨_, (hother key hk).trans hentry, rfl, ?_⟩, hl⟩, rfl, ?_⟩
  · rw [Option.or_none, ← h.head_eq]
  · have htail_eq := h.tail_eq
    simp only [htail]
    rw [List.getLast?_cons]
    split
    · rename_i hnil; subst hnil; rfl
    · rename_i hne
      cases hy : keys.getLast? with
      | none => exact absurd (List.getLast?_eq_none_iff.1 hy) hne
      | some y => rw [hy] at htail_eq; exact htail_eq

/-- Caches that differ in links only have the same slots in use. -/
theorem isSome_get?_of_sameContent {c' : Cache} (h : SameContent c c') (key : Nat) :
    (c'.entries.get? key).isSome = (c.entries.get? key).isSome := by
  have := congrArg Option.isSome (h.heldAt_eq key)
  simpa [heldAt] using this

theorem threaded_moveToFront (h : Threaded c (xs ++ key :: ys)) :
    Threaded (c.moveToFront key) (key :: (xs ++ ys)) := by
  unfold moveToFront
  split
  · rename_i hhead
    -- the key is at the front already, so nothing stands before it
    have hx : xs = [] := by
      rw [h.head_eq] at hhead
      cases xs with
      | nil => rfl
      | cons x xs =>
        cases hhead
        exact absurd (List.mem_cons_self ..) (not_mem_sides h.nodup).1
    subst hx; exact h
  · have hlive : (c.entries.get? key).isSome = true := h.linked.get?_isSome (by simp)
    refine threaded_pushFront (threaded_unlink h) (not_mem_others h.nodup) ?_
    rw [isSome_get?_of_sameContent (sameContent_unlink c key), hlive]

end Surgery
end Cache
end PackPlan
