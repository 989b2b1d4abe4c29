import PackPlan.Json.Reader
import PackPlan.SizeSet
import PackPlan.Text.Pieces

/-!
# PackPlan.SizeSet.Reader

Reading a size set. A text has numbers between commas, with blanks around them and empty parts
ignored; a part that is no number is reported before any size that is not positive. In JSON a set is
a list of quantities. Either way the set is made as from any list.
-/

namespace PackPlan
namespace SizeSet

/-! ## Texts -/

/-- The parts between the commas, without blanks around them and without the empty ones. -/
def parts (text : List Char) : List (List Char) :=
  ((Text.pieces ',' text).map Text.trim).filter fun part => !part.isEmpty

/-- The numbers that the parts write, or the first part that writes none. -/
def readParts : List (List Char) → Except SizeSetError (List Int)
  | [] => .ok []
  | part :: rest =>
    match Numeral.quantity? part with
    | none => .error (.unreadable part)
    | some size =>
      match readParts rest with
      | .error e => .error e
      | .ok sizes => .ok (size :: sizes)

def read (text : String) : Except SizeSetError SizeSet :=
  match readParts (parts text.toList) with
  | .error e => .error e
  | .ok sizes => ofList sizes

/-! ## JSON -/

open Document

def jsonReader : Json.Reader (Except Problem SizeSet) := fun ts =>
  match Json.list Json.quantity ts with
  | .error e => .error e
  | .ok (sizes, rest) => .ok ((ofList sizes).mapError .sizes, rest)

/-- The set that a text writes. A list that is refused is reported without a place, whatever comes
after it. -/
def ofJson (text : String) : Except Json.Failure SizeSet :=
  Json.decode (fun ts =>
    match jsonReader ts with
    | .error e => .error e
    | .ok (.error problem, _) => .error (.data problem none)
    | .ok (.ok set, rest) => .ok (set, rest)) text

end SizeSet
end PackPlan
