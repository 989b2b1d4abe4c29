import PackPlan.Numeral
import PackPlan.Yaml.Text

/-!
# PackPlan.Yaml.Property

Reading what stands before nodes and documents: anchors and aliases, tags, and directives.
-/

namespace PackPlan
namespace Yaml

/-! ## Anchors -/

def endsAnchor : List Char → Bool
  | [] => true
  | c :: rest =>
    atBlank (c :: rest) || c == '?' || c == ':' || c == ',' || c == ']' || c == '\x7d'
      || c == '%' || c == '@' || c == '\x60'

/-- The name after the indicator of an anchor or an alias. -/
def anchor? (c : Cursor) : Option (List Char × Cursor) :=
  let inside : Cursor := ⟨c.mark.right, c.rest.drop 1⟩
  match inside.span isNameChar with
  | ([], _) => none
  | (name, after) => if endsAnchor after.rest then some (name, after) else none

/-! ## Tags -/

/-- The characters of a tag that stand for themselves. -/
def isTagChar (flow : Bool) (c : Char) : Bool :=
  isNameChar c || c == ';' || c == '/' || c == '?' || c == ':' || c == '@' || c == '&' || c == '='
    || c == '+' || c == '$' || c == '.' || c == '!' || c == '~' || c == '*' || c == '\'' || c == '('
    || c == ')' || (flow && (c == ',' || c == '[' || c == ']'))

/-- The number of octets of a character that starts with the given one. -/
def octetCount (octet : Nat) : Nat :=
  if octet < 0x80 then 1
  else if octet < 0xC0 then 0
  else if octet < 0xE0 then 2
  else if octet < 0xF0 then 3
  else if octet < 0xF8 then 4
  else 0

/-- The characters of a tag, of which `pending` octets are still to come as escapes. An octet stands
for itself in the result. -/
def tagCharsFrom (flow : Bool) (pending : Nat) : Mark → List Char → Option (List Char × Cursor)
  | m, '%' :: a :: b :: rest =>
    match Numeral.natural? 16 [a, b] with
    | none => none
    | some octet =>
      let left? : Option Nat :=
        if pending = 0 then if octetCount octet = 0 then none else some (octetCount octet - 1)
        else if 0x80 ≤ octet ∧ octet < 0xC0 then some (pending - 1)
        else none
      match left? with
      | none => none
      | some left =>
        match tagCharsFrom flow left (m.rightBy 3) rest with
        | none => none
        | some (others, after) => some (Char.ofNat octet :: others, after)
  | m, c :: rest =>
    if pending ≠ 0 ∨ c = '%' then none
    else if isTagChar flow c then
      match tagCharsFrom flow 0 m.right rest with
      | none => none
      | some (others, after) => some (c :: others, after)
    else some ([], ⟨m, c :: rest⟩)
  | m, [] => if pending = 0 then some ([], ⟨m, []⟩) else none

def tagChars? (flow : Bool) (c : Cursor) : Option (List Char × Cursor) :=
  tagCharsFrom flow 0 c.mark c.rest

/-- What some characters of a tag say. A zero, which only an escape can write, ends it. -/
def tagText (cs : List Char) : List Char := cs.takeWhile (· != '\x00')

/-- The handle at the start of a tag: a mark, and a name with another mark after it, if there is
one. -/
def handle? (c : Cursor) : Option (List Char × Cursor) :=
  match c.rest with
  | '!' :: rest =>
    let (name, after) := Cursor.span ⟨c.mark.right, rest⟩ isNameChar
    match after.rest with
    | '!' :: rest => some ('!' :: name ++ ['!'], ⟨after.mark.right, rest⟩)
    | _ => some ('!' :: name, after)
  | _ => none

def endsTag (flow : Bool) (cs : List Char) : Bool :=
  atBlank cs || (flow && cs.head? == some ',')

/-- A tag in one of its three forms, as a handle and a suffix: in angle brackets without a handle,
with a named handle, or with the simple handle. The mark alone has no handle. -/
def tag? (flow : Bool) (c : Cursor) : Option ((List Char × List Char) × Cursor) :=
  let read : Option ((List Char × List Char) × Cursor) :=
    match c.rest with
    | '!' :: '<' :: rest =>
      match tagChars? true ⟨c.mark.rightBy 2, rest⟩ with
      | some (first :: others, ⟨m, '>' :: rest⟩) =>
        some (([], tagText (first :: others)), ⟨m.right, rest⟩)
      | _ => none
    | _ =>
      match handle? c with
      | none => none
      | some (handle, after) =>
        match tagChars? false after with
        | none => none
        | some (suffix, after) =>
          if 1 < handle.length && handle.getLast? == some '!' then
            if suffix.isEmpty then none else some ((handle, tagText suffix), after)
          else
            match tagText (handle.drop 1 ++ suffix) with
            | [] => some (([], ['!']), after)
            | suffix => some ((['!'], suffix), after)
  match read with
  | some (tag, after) => if endsTag flow after.rest then some (tag, after) else none
  | none => none

/-! ## Directives -/

/-- A number of at most nine digits. -/
def versionNumber? (c : Cursor) : Option (Nat × Cursor) :=
  let (ds, after) := c.span Char.isDigit
  if ds.length ≤ 9 then (Numeral.natural? 10 ds).map fun n => (n, after) else none

def version? (c : Cursor) : Option (Token × Cursor) :=
  match versionNumber? c.skipBlanks with
  | some (major, ⟨m, '.' :: rest⟩) =>
    match versionNumber? ⟨m.right, rest⟩ with
    | some (minor, after) => some (.version major minor, after)
    | none => none
  | _ => none

/-- The handle that a text declares, and what it stands for. -/
def tagDirective? (c : Cursor) : Option (Token × Cursor) :=
  match handle? c.skipBlanks with
  | none => none
  | some (handle, after) =>
    if handle.getLast? != some '!' then none
    else
      match after.rest with
      | x :: _ =>
        if isBlank x then
          match tagChars? true after.skipBlanks with
          | some (first :: others, after) =>
            if atBlank after.rest then
              some (.tagDirective handle (tagText (first :: others)), after)
            else none
          | _ => none
        else none
      | [] => none

def directive? (c : Cursor) : Option (Placed × Cursor) :=
  let inside : Cursor := ⟨c.mark.right, c.rest.drop 1⟩
  let (name, after) := inside.span isNameChar
  let read : Option (Token × Cursor) :=
    if !atBlank after.rest then none
    else if name = "YAML".toList then version? after
    else if name = "TAG".toList then tagDirective? after
    else none
  match read with
  | none => none
  | some (token, after) =>
    let ended := after.skipBlanks.skipComment
    if atBreak ended.rest then some (⟨token, c.mark, after.mark⟩, ended.skipBreak) else none

end Yaml
end PackPlan
