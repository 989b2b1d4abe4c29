import PackPlan.Log.Directive
import PackPlan.Text.Pieces

/-!
# PackPlan.Log.Filter

Log filters. A filter is a list of directives between commas; a record is told if the most specific
directive about it admits its level, the last one of those that are equally specific.
-/

namespace PackPlan
namespace Log

structure Filter where
  directives : List Directive
deriving DecidableEq, Repr

namespace Filter

/-- The pieces of a text between commas that are not empty. -/
def pieces (text : String) : List (List Char) :=
  (Text.pieces ',' text.toList).filter fun piece => !piece.isEmpty

/-- Reads a filter in which each piece has to be a directive. An empty one tells nothing. -/
def read (text : String) : Except Directive.Fault Filter :=
  ((pieces text).mapM Directive.read).map Filter.mk

/-- The directives among some pieces, unless one of the pieces is torn. -/
def directivesAmong? : List (List Char) → Option (List Directive)
  | [] => some []
  | piece :: rest =>
    match Directive.read piece with
    | .ok d => (directivesAmong? rest).map (d :: ·)
    | .error .malformed => directivesAmong? rest
    | .error .torn => none

/-- Reads a filter and passes over what is not a directive, unless a piece is torn. If there is no
directive, errors are told. -/
def ofText? (text : String) : Option Filter :=
  (directivesAmong? (pieces text)).map fun directives =>
    if directives.isEmpty then ⟨[.general (some .error)]⟩ else ⟨directives⟩

/-- The more specific one of two directives, the second one if they are equally specific. -/
def prefer (best : Option Directive) (d : Directive) : Option Directive :=
  match best with
  | none => some d
  | some b => if d.rank < b.rank then some b else some d

def threshold (f : Filter) (r : Record) : Threshold :=
  ((f.directives.filter (·.concerns r)).foldl prefer none).bind Directive.threshold

def tells (f : Filter) (r : Record) : Bool := (f.threshold r).admits r.level

end Filter
end Log
end PackPlan
