import Concordance.Binary64.Shortest
import Concordance.Json.Document
import Concordance.Json.Printer
import Concordance.Text.Quoted

/-!
# Values of the wrong shape

Whoever interprets a JSON value expects some shape of it.  A `Mismatch` says
what was found instead, which field is missing or given twice, or which word
is not among the known ones; `Mismatch.message` is its wording.  A `Problem`
is either a mismatch or a fault of the text itself.
-/

namespace Concordance.Json

/-- What was found where something else was expected. -/
inductive Found where
  | null
  | bool (value : Bool)
  | number (value : Number)
  | string (value : String)
  | sequence
  | map
  deriving DecidableEq, Repr

/-- The wording of what was found. -/
def Found.message : Found → String
  | .null => "null"
  | .bool value => "boolean `" ++ (if value then "true" else "false") ++ "`"
  | .number (.integer value) =>
      "integer `" ++ String.ofList (integerText value) ++ "`"
  | .number (.float value) =>
      "floating point `" ++ String.ofList value.text ++ "`"
  | .string value => "string " ++ Text.quoted value
  | .sequence => "sequence"
  | .map => "map"

/-- The ways in which a value fails to have the expected shape. -/
inductive Mismatch where
  | invalidType (found : Found) (expected : String)
  | invalidValue (found : Found) (expected : String)
  | invalidLength (length : Nat) (expected : String)
  | missingField (field : String)
  | duplicateField (field : String)
  | unknownVariant (given : String) (known : List String)
  deriving DecidableEq, Repr

/-- The wording of a choice of words: two joined by `or`, more as a list. -/
def choiceMessage (known : List String) : String :=
  match known.map fun word => "`" ++ word ++ "`" with
  | [first, second] => first ++ " or " ++ second
  | words => "one of " ++ ", ".intercalate words

/-- The wording of a mismatch. -/
def Mismatch.message : Mismatch → String
  | .invalidType found expected =>
      "invalid type: " ++ found.message ++ ", expected " ++ expected
  | .invalidValue found expected =>
      "invalid value: " ++ found.message ++ ", expected " ++ expected
  | .invalidLength length expected =>
      "invalid length " ++ Nat.repr length ++ ", expected " ++ expected
  | .missingField field => "missing field `" ++ field ++ "`"
  | .duplicateField field => "duplicate field `" ++ field ++ "`"
  | .unknownVariant given known =>
      "unknown variant `" ++ given ++ "`, expected " ++ choiceMessage known

/-- The wording of a fault. -/
def Fault.message : Fault → String
  | .malformed => "<json syntax>"
  | .truncated => "<json eof>"

/-- What keeps a text from being read as something. -/
inductive Problem where
  /-- The text is not JSON. -/
  | unreadable (fault : Fault)
  /-- The text is JSON, of the wrong shape. -/
  | misshapen (mismatch : Mismatch)
  deriving DecidableEq, Repr

/-- The wording of a problem. -/
def Problem.message : Problem → String
  | .unreadable fault => fault.message
  | .misshapen mismatch => mismatch.message

/-- What a value is, seen by someone who expected something else. -/
def Value.found : Value → Found
  | .null => .null
  | .bool value => .bool value
  | .number value => .number value
  | .string value => .string value
  | .array _ => .sequence
  | .object _ => .map

/--
The problem of a document that stands where another shape is expected: the
fault it begins with, or the mismatch.
-/
def Document.mistaken (expected : String) : Document → Problem
  | .null => .misshapen (.invalidType .null expected)
  | .bool value => .misshapen (.invalidType (.bool value) expected)
  | .number value => .misshapen (.invalidType (.number value) expected)
  | .string value => .misshapen (.invalidType (.string value) expected)
  | .array _ _ | .deepArray => .misshapen (.invalidType .sequence expected)
  | .object _ _ | .deepObject => .misshapen (.invalidType .map expected)
  | .broken fault => .unreadable fault

end Concordance.Json
