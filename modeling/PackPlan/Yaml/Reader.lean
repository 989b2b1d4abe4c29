import PackPlan.Yaml.Tree
import PackPlan.Yaml.Value

/-!
# PackPlan.Yaml.Reader

Reading typed values from a document. A problem is reported with the path to the node and its mark;
a problem of a mapping as a whole, such as a field given twice, with those of the mapping. The mark
at the very start of the text is left out of the message, and so is the path of the root.
-/

namespace PackPlan
namespace Yaml

open Document

/-- The way from the root to a node. -/
inductive Path where
  | root
  | field (parent : Path) (name : List Char)
  | item (parent : Path) (index : Nat)
  /-- The value of a key that is not written as a scalar. -/
  | unnamed (parent : Path)
deriving DecidableEq, Repr

def Path.text : Path → String
  | .root => "."
  | .field parent name =>
    (if parent = .root then "" else parent.text ++ ".") ++ String.ofList name
  | .item parent index => parent.text ++ "[" ++ toString index ++ "]"
  | .unnamed parent => (if parent = .root then "" else parent.text ++ ".") ++ "?"

/-- A problem, and the node that has it once this is known. -/
structure Trouble where
  problem : Problem
  place : Option (Mark × Path)
deriving DecidableEq

def Trouble.message (t : Trouble) : String :=
  match t.place with
  | none => t.problem.message
  | some (m, path) =>
    (if path = .root then "" else path.text ++ ": ") ++ t.problem.message
      ++ if m = .origin then ""
        else " at line " ++ toString (m.line + 1) ++ " column " ++ toString (m.column + 1)

/-- Puts a problem that has no place yet at a node. -/
def Trouble.locate (m : Mark) (path : Path) (t : Trouble) : Trouble :=
  { t with place := some (t.place.getD (m, path)) }

/-- The trouble with a node that is not of the expected type. -/
def mismatch (expected : String) (path : Path) (n : Node) : Trouble :=
  let problem : Problem :=
    match n with
    | .scalar _ s => s.problem expected
    | .sequence _ _ => .wrongType .sequence expected
    | .mapping _ _ => .wrongType .map expected
    | .alias _ _ => .wrongType .unit expected
  ⟨problem, some (n.mark, path)⟩

abbrev Reader (α : Type) := Tree → Path → Node → Except Trouble α

def quantity : Reader Int := fun t path n =>
  match t.deref n with
  | .scalar m s =>
    match if s.mayCount then (signed? s.text).filter fun q => decide (IsQuantity q) else none with
    | some q => .ok q
    | none => .error (mismatch "i64" path (.scalar m s))
  | n => .error (mismatch "i64" path n)

def count (type : String) : Reader Nat := fun t path n =>
  match t.deref n with
  | .scalar m s =>
    match if s.mayCount then (unsigned? s.text).filter (· ≤ maxCount) else none with
    | some n => .ok n
    | none => .error (mismatch type path (.scalar m s))
  | n => .error (mismatch type path n)

def items {α : Type} (read : Reader α) (t : Tree) (path : Path) :
    Nat → List Node → Except Trouble (List α)
  | _, [] => .ok []
  | i, n :: rest =>
    match read t (.item path i) n with
    | .error e => .error e
    | .ok x =>
      match items read t path (i + 1) rest with
      | .error e => .error e
      | .ok others => .ok (x :: others)

/-- A list of values. A node that is left out is an empty list. -/
def list {α : Type} (read : Reader α) : Reader (List α) := fun t path n =>
  match t.deref n with
  | .sequence m nodes => (items read t path 0 nodes).mapError (Trouble.locate m path)
  | .scalar m s =>
    if s.isEmpty then .ok [] else .error (mismatch "a sequence" path (.scalar m s))
  | n => .error (mismatch "a sequence" path n)

/-! ## Records -/

/-- A field of a record that is being read: its name, whether it was given yet, and how its value is
put in. -/
structure Field (σ : Type) where
  name : String
  given : σ → Bool
  read : σ → Reader σ

structure Record (σ α : Type) where
  /-- The record in messages. -/
  title : String
  fields : List (Field σ)
  /-- Nothing given yet. -/
  blank : σ
  /-- The record, when the mapping has ended. -/
  complete : σ → α

/-- A field whose value is put in as it is read. -/
def Field.plain {σ α : Type} (name : String) (given : σ → Bool) (read : Reader α)
    (put : σ → α → σ) : Field σ where
  name := name
  given := given
  read := fun state t path n => (read t path n).map (put state)

namespace Record

variable {σ α : Type}

/-- The field that a key names. Any scalar is a name, whatever it means otherwise. -/
def field (r : Record σ α) (t : Tree) (path : Path) (key : Node) :
    Except Trouble (Field σ) :=
  match t.deref key with
  | .scalar m s =>
    match r.fields.find? fun f => f.name.toList == s.text with
    | some f => .ok f
    | none => .error ⟨.unknownField s.text (r.fields.map Field.name), some (m, path)⟩
  | n => .error (mismatch "field identifier" path n)

def valuePath (path : Path) : Node → Path
  | .scalar _ s => .field path s.text
  | _ => .unnamed path

def members (r : Record σ α) (t : Tree) (path : Path) :
    σ → List (Node × Node) → Except Trouble σ
  | state, [] => .ok state
  | state, (key, value) :: rest =>
    match r.field t path key with
    | .error e => .error e
    | .ok f =>
      if f.given state then .error ⟨.duplicateField f.name, none⟩
      else
        match f.read state t (valuePath path key) value with
        | .error e => .error e
        | .ok state => members r t path state rest

/-- The record that a node writes. A node that is left out gives no field. -/
def read (r : Record σ α) : Reader α := fun t path n =>
  match t.deref n with
  | .mapping m pairs =>
    ((r.members t path r.blank pairs).map r.complete).mapError (Trouble.locate m path)
  | .scalar m s =>
    if s.isEmpty then .ok (r.complete r.blank) else .error (mismatch r.title path (.scalar m s))
  | n => .error (mismatch r.title path n)

end Record

inductive Failure where
  /-- The text is not YAML, or not one document. -/
  | malformed
  | data (trouble : Trouble)
deriving DecidableEq

/-- The value that a whole text writes. An empty text is a record that gives no field. -/
def Record.decode {σ α : Type} (r : Record σ α) (text : String) : Except Failure α :=
  match parse? text with
  | none => .error .malformed
  | some t =>
    match t.root with
    | none => .ok (r.complete r.blank)
    | some n => (r.read t .root n).mapError .data

end Yaml
end PackPlan
