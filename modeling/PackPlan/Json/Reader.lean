import PackPlan.Json.Number
import PackPlan.Json.Text

/-!
# PackPlan.Json.Reader

Reading typed values from tokens, in the order of the text. What is wrong first is reported: a value
of the wrong type before a mistake further on that makes the text no JSON at all.

A problem is reported with a place. For a wrong value it is the place after the value, or before it
for a list or an object, which is not read. For a problem of an object or a list as a whole it is
where reading stood when it was given up: blanks are skipped by then, and the closing bracket, if it
comes next, is read. A problem found outside any list or object has no place.
-/

namespace PackPlan
namespace Json

open Document

inductive Failure where
  /-- The text is not JSON, or a list has too many items. -/
  | malformed
  | data (problem : Problem) (place : Option Place)
deriving DecidableEq

def problemText (problem : Problem) : Option Place → String
  | none => problem.message
  | some p =>
    problem.message ++ " at line " ++ toString p.line ++ " column " ++ toString p.column

/-- Reads a value and gives the tokens after it. -/
abbrev Reader (α : Type) := List Placed → Except Failure (α × List Placed)

def nextPlace : List Placed → Place
  | t :: _ => t.start
  | [] => ⟨0, 0⟩

/-- Where reading stands when an object is given up before these tokens. -/
def leaveObject : List Placed → Place
  | ⟨.closeObject, p⟩ :: _ => p.advance 1
  | ts => nextPlace ts

/-- Where reading stands when a list is given up before these tokens. -/
def leaveList : List Placed → Place
  | ⟨.closeList, p⟩ :: _ => p.advance 1
  | ⟨.comma, _⟩ :: rest => nextPlace rest
  | ts => nextPlace ts

/-- The failure for a value that is not of the expected type. -/
def mismatch (expected : String) : List Placed → Failure
  | [] => .malformed
  | t :: _ =>
    match t.token with
    | .null => .data (.wrongType .null expected) t.stop
    | .boolean value => .data (.wrongType (.boolean value) expected) t.stop
    | .number literal =>
      match literal.value? with
      | some value => .data (.wrongType value.found expected) t.stop
      | none => .malformed
    | .text pieces =>
      match Piece.content? pieces with
      | some content => .data (.wrongType (.text content) expected) t.stop
      | none => .malformed
    | .openList => .data (.wrongType .sequence expected) t.start
    | .openObject => .data (.wrongType .map expected) t.start
    | _ => .malformed

/-! ## Integers -/

/-- An integer between two bounds, of a type with the given name. -/
def integer (type : String) (low high : Int) : Reader Int
  | [] => .error .malformed
  | t :: rest =>
    match t.token with
    | .number literal =>
      match literal.value? with
      | none => .error .malformed
      | some (.integer value) =>
        if low ≤ value ∧ value ≤ high then .ok (value, rest)
        else .error (.data (.wrongValue (.integer value) type) t.stop)
      | some value => .error (.data (.wrongType value.found type) t.stop)
    | _ => .error (mismatch type (t :: rest))

def quantity : Reader Int := integer "i64" minQuantity maxQuantity

def count (type : String) : Reader Nat := fun ts =>
  match integer type 0 maxCount ts with
  | .error e => .error e
  | .ok (value, rest) => .ok (value.toNat, rest)

/-! ## Lists -/

/-- The items of a list from the first on, with at most so many of them. -/
def items {α : Type} (read : Reader α) : Nat → Reader (List α)
  | 0, _ => .error .malformed
  | fuel + 1, ts =>
    match read ts with
    | .error e => .error e
    | .ok (item, ⟨.closeList, _⟩ :: rest) => .ok ([item], rest)
    | .ok (_, ⟨.comma, _⟩ :: ⟨.closeList, _⟩ :: _) => .error .malformed
    | .ok (item, ⟨.comma, _⟩ :: rest) =>
      match items read fuel rest with
      | .error e => .error e
      | .ok (others, rest) => .ok (item :: others, rest)
    | .ok _ => .error .malformed

def list {α : Type} (read : Reader α) : Reader (List α)
  | ⟨.openList, _⟩ :: ⟨.closeList, _⟩ :: rest => .ok ([], rest)
  | ⟨.openList, _⟩ :: rest => items read rest.length rest
  | ts => .error (mismatch "a sequence" ts)

/-! ## Values that are passed over -/

/-- What a list or an object around a value may be. -/
inductive Frame where
  | list
  | object
deriving DecidableEq, Repr

/-- What is expected next when a value is passed over. -/
inductive Expect where
  | value
  /-- The end of the innermost frame or a comma. -/
  | next
deriving DecidableEq, Repr

/-- Passes over a value inside the given frames. -/
def skip : Expect → List Frame → List Placed → Except Failure (List Placed)
  | .next, [], ts => .ok ts
  | .next, .list :: frames, ⟨.closeList, _⟩ :: rest => skip .next frames rest
  | .next, .list :: frames, ⟨.comma, _⟩ :: rest => skip .value (.list :: frames) rest
  | .next, .object :: frames, ⟨.closeObject, _⟩ :: rest => skip .next frames rest
  | .next, .object :: frames, ⟨.comma, _⟩ :: ⟨.text _, _⟩ :: ⟨.colon, _⟩ :: rest =>
    skip .value (.object :: frames) rest
  | .value, frames, ⟨.openList, _⟩ :: ⟨.closeList, _⟩ :: rest => skip .next frames rest
  | .value, frames, ⟨.openList, _⟩ :: rest => skip .value (.list :: frames) rest
  | .value, frames, ⟨.openObject, _⟩ :: ⟨.closeObject, _⟩ :: rest => skip .next frames rest
  | .value, frames, ⟨.openObject, _⟩ :: ⟨.text _, _⟩ :: ⟨.colon, _⟩ :: rest =>
    skip .value (.object :: frames) rest
  | .value, frames, ⟨.null, _⟩ :: rest => skip .next frames rest
  | .value, frames, ⟨.boolean _, _⟩ :: rest => skip .next frames rest
  | .value, frames, ⟨.number _, _⟩ :: rest => skip .next frames rest
  | .value, frames, ⟨.text _, _⟩ :: rest => skip .next frames rest
  | _, _, _ => .error .malformed

/-! ## Records -/

/-- A field of a record that is being read: its name, whether it was given yet, and how its value is
put in. A value may be read and then be refused. -/
structure Field (σ : Type) where
  name : String
  given : σ → Bool
  read : σ → Reader (Except Problem σ)

/-- How a record is read, from an object or from the list of its fields in order. -/
structure Record (σ α : Type) where
  /-- The record in messages. -/
  title : String
  fields : List (Field σ)
  /-- Whether a name that is not one of the fields is refused. -/
  strict : Bool
  /-- Nothing given yet. -/
  blank : σ
  /-- The record, when an object has ended. -/
  ofObject : σ → Except Problem α
  /-- The record, when a list has ended after so many fields. -/
  ofList : Nat → σ → Except Problem α

namespace Record

variable {σ α : Type}

/-- Reads the member of an object with this name, from the tokens after the name. -/
def member (r : Record σ α) (state : σ) (name : List Char) (afterName : List Placed) :
    Except Failure (σ × List Placed) :=
  match r.fields.find? fun f => f.name.toList == name with
  | none =>
    if r.strict then
      .error (.data (.unknownField name (r.fields.map Field.name)) (leaveObject afterName))
    else
      match afterName with
      | ⟨.colon, _⟩ :: rest =>
        match skip .value [] rest with
        | .error e => .error e
        | .ok rest => .ok (state, rest)
      | _ => .error .malformed
  | some field =>
    if field.given state then
      .error (.data (.duplicateField field.name) (leaveObject afterName))
    else
      match afterName with
      | ⟨.colon, _⟩ :: rest =>
        match field.read state rest with
        | .error e => .error e
        | .ok (.error problem, rest) => .error (.data problem (leaveObject rest))
        | .ok (.ok state, rest) => .ok (state, rest)
      | _ => .error .malformed

/-- The members of an object from a name on, at most so many. -/
def members (r : Record σ α) : Nat → σ → Reader α
  | 0, _, _ => .error .malformed
  | fuel + 1, state, ⟨.text pieces, _⟩ :: afterName =>
    match Piece.content? pieces with
    | none => .error .malformed
    | some name =>
      match r.member state name afterName with
      | .error e => .error e
      | .ok (state, ⟨.closeObject, p⟩ :: rest) =>
        match r.ofObject state with
        | .error problem => .error (.data problem (p.advance 1))
        | .ok record => .ok (record, rest)
      | .ok (state, ⟨.comma, _⟩ :: rest) => members r fuel state rest
      | .ok _ => .error .malformed
  | _ + 1, _, _ => .error .malformed

/-- Passes over the comma before the item of a list that comes after `n` others. -/
def beforeItem : Nat → List Placed → Except Failure (List Placed)
  | 0, ts => .ok ts
  | _, ⟨.comma, _⟩ :: ⟨.closeList, _⟩ :: _ => .error .malformed
  | _, ⟨.comma, _⟩ :: rest => .ok rest
  | _, _ => .error .malformed

/-- The items of a list for the fields still to come, `n` of them being there already. -/
def entries (r : Record σ α) : List (Field σ) → Nat → σ → Reader α
  | _, n, state, ⟨.closeList, p⟩ :: rest =>
    match r.ofList n state with
    | .error problem => .error (.data problem (p.advance 1))
    | .ok record => .ok (record, rest)
  | [], _, _, _ => .error .malformed
  | field :: fields, n, state, ts =>
    match beforeItem n ts with
    | .error e => .error e
    | .ok ts =>
      match field.read state ts with
      | .error e => .error e
      | .ok (.error problem, rest) => .error (.data problem (leaveList rest))
      | .ok (.ok state, rest) => entries r fields (n + 1) state rest

def read (r : Record σ α) : Reader α
  | ⟨.openObject, _⟩ :: ⟨.closeObject, p⟩ :: rest =>
    match r.ofObject r.blank with
    | .error problem => .error (.data problem (p.advance 1))
    | .ok record => .ok (record, rest)
  | ⟨.openObject, _⟩ :: rest => r.members rest.length r.blank rest
  | ⟨.openList, _⟩ :: rest => r.entries r.fields 0 r.blank rest
  | ts => .error (mismatch r.title ts)

end Record

/-- A field whose value is always taken. -/
def Field.plain {σ α : Type} (name : String) (given : σ → Bool) (read : Reader α)
    (put : σ → α → σ) : Field σ where
  name := name
  given := given
  read := fun state ts =>
    match read ts with
    | .error e => .error e
    | .ok (value, rest) => .ok (.ok (put state value), rest)

def decode {α : Type} (read : Reader α) (text : String) : Except Failure α :=
  match read (tokens text) with
  | .error e => .error e
  | .ok (value, [⟨.finish, _⟩]) => .ok value
  | .ok _ => .error .malformed

end Json
end PackPlan
