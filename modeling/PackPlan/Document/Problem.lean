import PackPlan.SizeSet

/-!
# PackPlan.Document.Problem

What can be wrong with a document that is well formed: a value of another type than expected, a
field that is unknown, missing or given twice, a list that is too short, a set of sizes that is
refused. The wording is the same whatever the format of the document.
-/

namespace PackPlan
namespace Document

/-- What stands in a document where something else was expected. -/
inductive Found where
  | boolean (value : Bool)
  | integer (value : Int)
  /-- An integer that needs a wider type, which is named. -/
  | wideInteger (value : Int) (type : String)
  /-- A number with a fraction or an exponent, as it is written out. -/
  | floating (text : String)
  | text (value : List Char)
  /-- The JSON value null. -/
  | null
  /-- The absence of a value. -/
  | unit
  | sequence
  | map
deriving DecidableEq, Repr

def Found.describe : Found → String
  | .boolean true => "boolean `true`"
  | .boolean false => "boolean `false`"
  | .integer value => "integer `" ++ toString value ++ "`"
  | .wideInteger value type => "integer `" ++ toString value ++ "` as " ++ type
  | .floating written => "floating point `" ++ written ++ "`"
  | .text value => "string " ++ String.ofList (Text.quote value)
  | .null => "null"
  | .unit => "unit value"
  | .sequence => "sequence"
  | .map => "map"

/-- What is wrong with a well-formed document. -/
inductive Problem where
  | wrongType (found : Found) (expected : String)
  | wrongValue (found : Found) (expected : String)
  | unknownField (name : List Char) (known : List String)
  | duplicateField (name : String)
  | missingField (name : String)
  | tooShort (length : Nat) (expected : String)
  | sizes (cause : SizeSetError)
deriving DecidableEq

def alternatives (known : List String) : String :=
  let marked := known.map fun name => "`" ++ name ++ "`"
  match marked with
  | [] => "there are no fields"
  | [one] => "expected " ++ one
  | [one, other] => "expected " ++ one ++ " or " ++ other
  | several => "expected one of " ++ ", ".intercalate several

def Problem.message : Problem → String
  | .wrongType found expected => "invalid type: " ++ found.describe ++ ", expected " ++ expected
  | .wrongValue found expected => "invalid value: " ++ found.describe ++ ", expected " ++ expected
  | .unknownField name known =>
    "unknown field `" ++ String.ofList name ++ "`, " ++ alternatives known
  | .duplicateField name => "duplicate field `" ++ name ++ "`"
  | .missingField name => "missing field `" ++ name ++ "`"
  | .tooShort length expected => "invalid length " ++ toString length ++ ", expected " ++ expected
  | .sizes cause => cause.message

end Document
end PackPlan
