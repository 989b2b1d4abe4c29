/-!
# PackPlan.Json.Writer

Compact JSON text, with no blank between its parts. Items and members are texts that are written
already; the names of members need no escapes. In a string, quotes, backslashes and controls are
escaped.
-/

namespace PackPlan
namespace Json

def hexDigit (n : Nat) : Char := Nat.digitChar n

def escape (c : Char) : List Char :=
  match c with
  | '\x22' => ['\\', '\x22']
  | '\\' => ['\\', '\\']
  | '\x08' => ['\\', 'b']
  | '\x0c' => ['\\', 'f']
  | '\n' => ['\\', 'n']
  | '\r' => ['\\', 'r']
  | '\t' => ['\\', 't']
  | c =>
    if c.toNat < 0x20 then
      ['\\', 'u', '0', '0', hexDigit (c.toNat / 16), hexDigit (c.toNat % 16)]
    else [c]

def string (value : String) : String :=
  String.ofList ('\x22' :: value.toList.flatMap escape ++ ['\x22'])

def array (items : List String) : String :=
  "[" ++ ",".intercalate items ++ "]"

def member (name value : String) : String :=
  "\"" ++ name ++ "\":" ++ value

def object (members : List (String × String)) : String :=
  "\x7b" ++ ",".intercalate (members.map fun m => member m.1 m.2) ++ "\x7d"

end Json
end PackPlan
