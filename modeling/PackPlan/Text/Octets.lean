/-!
# PackPlan.Text.Octets

Places in a text counted by the octets of its UTF-8 form. A text can be cut at such a place only
between two characters: `splitAt?_append` says that there it can, and `append_of_splitAt?` that
nothing is lost.
-/

namespace PackPlan
namespace Text
namespace Octets

def count (cs : List Char) : Nat := cs.foldr (fun c n => c.utf8Size + n) 0

/-- The text before and after so many octets, unless this cuts a character or is beyond the end. -/
def splitAt? : Nat → List Char → Option (List Char × List Char)
  | 0, cs => some ([], cs)
  | _ + 1, [] => none
  | n + 1, c :: rest =>
    if c.utf8Size ≤ n + 1 then
      (splitAt? (n + 1 - c.utf8Size) rest).map fun (before, after) => (c :: before, after)
    else none

/-- The text between two places, unless one of them cuts a character. -/
def slice? (start stop : Nat) (cs : List Char) : Option (List Char) :=
  match splitAt? start cs with
  | none => none
  | some (_, after) => (splitAt? (stop - start) after).map Prod.fst

theorem splitAt?_append (before after : List Char) :
    splitAt? (count before) (before ++ after) = some (before, after) := by
  induction before with
  | nil => simp [count, splitAt?]
  | cons c rest ih =>
    have size : 0 < c.utf8Size := Char.utf8Size_pos c
    have sum : count (c :: rest) = c.utf8Size + count rest := by simp [count]
    obtain ⟨n, hn⟩ : ∃ n, count (c :: rest) = n + 1 := ⟨count (c :: rest) - 1, by omega⟩
    have left : n + 1 - c.utf8Size = count rest := by omega
    have fits : c.utf8Size ≤ n + 1 := by omega
    rw [hn, List.cons_append]
    simp [splitAt?, fits, left, ih]

theorem append_of_splitAt? {n : Nat} {cs before after : List Char}
    (h : splitAt? n cs = some (before, after)) : before ++ after = cs := by
  induction cs generalizing n before with
  | nil => cases n <;> simp_all [splitAt?]
  | cons c rest ih =>
    cases n with
    | zero => simp [splitAt?] at h; simp [← h.1, ← h.2]
    | succ n =>
      simp only [splitAt?] at h
      split at h
      · obtain ⟨⟨first, last⟩, found, e⟩ := Option.map_eq_some_iff.1 h
        obtain ⟨rfl, rfl⟩ := Prod.mk.inj e
        simp [ih found]
      · cases h

end Octets
end Text
end PackPlan
