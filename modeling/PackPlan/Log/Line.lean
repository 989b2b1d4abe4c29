import PackPlan.Json.Writer
import PackPlan.Log.Record

/-!
# PackPlan.Log.Line

Lines of a log, for a reader or as JSON. How long something took is left out.
-/

namespace PackPlan
namespace Log

def Detail.text? : Detail → Option String
  | .number value => some (toString value)
  | .text value => some value
  | .elapsed => none

def Detail.json? : Detail → Option String
  | .number value => some (toString value)
  | .text value => some (Json.string value)
  | .elapsed => none

/-- The details that a function gives a text, each with its name. -/
def Record.detailTexts (write : Detail → Option String) (r : Record) : List (String × String) :=
  r.details.filterMap fun (name, d) => (write d).map fun value => (name, value)

def Record.line (r : Record) : String :=
  r.level.label ++ " " ++ r.target ++ ": " ++ r.message
    ++ String.join ((r.detailTexts Detail.text?).map fun (name, value) =>
      " " ++ name ++ "=" ++ value)

def Record.json (r : Record) : String :=
  Json.object [("level", Json.string r.level.label),
    ("fields", Json.object (("message", Json.string r.message) :: r.detailTexts Detail.json?)),
    ("target", Json.string r.target)]

end Log
end PackPlan
