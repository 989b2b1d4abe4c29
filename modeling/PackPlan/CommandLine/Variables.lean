/-!
# PackPlan.CommandLine.Variables

Environment variables: names with values. An environment is a list of texts, in each of which an
equals sign ends the name, so a name that holds an equals sign itself is found where its text goes on
with another one. `value?_eq_lookup` says that names without an equals sign are found as a whole, and
`value?_of_setDefault?` that what is set stays as it is when defaults are added.
-/

namespace PackPlan
namespace CommandLine

/-- Names with their values, in the order in which they are looked through. -/
abbrev Variables := List (String × String)

namespace Variables

/-- The text of a variable: its name, an equals sign and its value. -/
def text (name value : List Char) : List Char := name ++ '=' :: value

/-- What follows a name and an equals sign at the start of a text. -/
def after? : List Char → List Char → Option (List Char)
  | [], '=' :: value => some value
  | n :: name, c :: rest => if n = c then after? name rest else none
  | _, _ => none

/-- The value of a name: the rest of the first text that starts with the name and an equals sign. No
value belongs to the name without characters. -/
def value? (v : Variables) (name : String) : Option String :=
  if name.isEmpty then none
  else v.findSome? fun (n, value) =>
    (after? name.toList (text n.toList value.toList)).map String.ofList

/-- Whether a variable can have a value. It ends where a zero stands, so none may stand in it. -/
def isValue (value : String) : Bool := !value.toList.contains '\x00'

/-- Gives a name a value unless it has one; `none` if it cannot have this one. -/
def setDefault? (v : Variables) (name value : String) : Option Variables :=
  match v.value? name with
  | some _ => some v
  | none => if isValue value then some (v ++ [(name, value)]) else none

theorem after?_text (name value : List Char) : after? name (text name value) = some value := by
  induction name with
  | nil => rfl
  | cons c rest ih => simpa [text, after?] using ih

theorem after?_eq_none_of_ne {name other : List Char} (value : List Char) (h : '=' ∉ name)
    (ho : '=' ∉ other) (ne : name ≠ other) : after? name (text other value) = none := by
  induction name generalizing other with
  | nil =>
    cases other with
    | nil => exact absurd rfl ne
    | cons c rest =>
      have : c ≠ '=' := fun e => ho (by simp [e])
      simp [text, after?, this]
  | cons n name ih =>
    cases other with
    | nil =>
      have : n ≠ '=' := fun e => h (by simp [e])
      simp [text, after?, this]
    | cons c rest =>
      by_cases e : n = c
      · subst e
        have step := @ih rest (fun m => h (by simp [m])) (fun m => ho (by simp [m]))
          (fun m => ne (by rw [m]))
        simpa [text, after?] using step
      · simp [text, after?, e]

/-- Names without an equals sign are found as a whole. -/
theorem value?_eq_lookup {v : Variables} {name : String} (h : '=' ∉ name.toList)
    (hv : ∀ p ∈ v, '=' ∉ p.1.toList) (ne : name ≠ "") : v.value? name = v.lookup name := by
  have full : name.isEmpty = false := by simpa using ne
  induction v with
  | nil => simp [value?]
  | cons p rest ih =>
    obtain ⟨n, value⟩ := p
    have ih := ih fun q m => hv q (by simp [m])
    simp only [value?, full] at ih ⊢
    by_cases e : name = n
    · subst e
      simp [after?_text]
    · have other : name.toList ≠ n.toList := fun m => e (String.toList_inj.1 m)
      have none := after?_eq_none_of_ne value.toList h (hv (n, value) (by simp)) other
      have beq : (name == n) = false := by simpa using e
      simpa [none, List.lookup_cons, beq] using ih

/-- A default does not change what is set. -/
theorem value?_of_setDefault? {v w : Variables} {name other value : String}
    (h : (v.value? other).isSome) (set : v.setDefault? name value = some w) :
    w.value? other = v.value? other := by
  unfold setDefault? at set
  split at set
  · cases set; rfl
  · split at set
    · cases set
      unfold value? at h ⊢
      split at h
      · cases h
      · next full =>
        obtain ⟨found, e⟩ := Option.isSome_iff_exists.1 h
        simp [List.findSome?_append, e, full]
    · cases set

end Variables
end CommandLine
end PackPlan
