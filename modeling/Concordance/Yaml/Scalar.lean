import Concordance.Json.Value
import Concordance.Json.Token

/-!
# The values of scalars

A plain scalar is read by the core rules: nothing, the words for null and for
the truth values, whole numbers in four bases, floating-point numbers, and
texts.  A decimal number may not begin with a superfluous zero, and a whole
number that needs more than 64 bits is an error up to 128 bits and a
floating-point number beyond.

Infinities and what is not a number have no JSON value and become null.
-/

namespace Concordance.Yaml

open Json (Value)

/-- Whether a text is a word for null. -/
def isNullWord (text : String) : Bool :=
  ["null", "Null", "NULL", "~"].contains text

/-- The truth value that a word stands for. -/
def boolWord? (text : String) : Option Bool :=
  if ["true", "True", "TRUE"].contains text then some true
  else if ["false", "False", "FALSE"].contains text then some false
  else none

/-- The value of a digit in a base. -/
def digitValue? (base : Nat) (char : Char) : Option Nat :=
  (Json.hexValue? char).filter (· < base)

/-- The number that digits write in a base. -/
def digitsNumber? (base : Nat) (digits : List Char) : Option Nat :=
  if digits.isEmpty then none
  else
    digits.foldlM (fun value digit =>
      (digitValue? base digit).map fun digit => value * base + digit) 0

/-- Whether a text is digits that begin with a superfluous zero. -/
def hasLeadingZero (text : List Char) : Bool :=
  let digits := match text with
    | '-' :: rest | '+' :: rest => rest
    | _ => text
  match digits with
  | '0' :: rest => !rest.isEmpty && rest.all Char.isDigit
  | _ => false

/-- The number that a text without sign writes, its base given in front. -/
def unsigned? (text : List Char) : Option Nat :=
  let based :=
    match text with
    | '0' :: 'x' :: digits => digitsNumber? 16 digits
    | '0' :: 'o' :: digits => digitsNumber? 8 digits
    | '0' :: 'b' :: digits => digitsNumber? 2 digits
    | _ => none
  match based with
  | some value => some value
  | none => if hasLeadingZero text then none else digitsNumber? 10 text

/-- The whole number that a text writes. -/
def whole? (text : String) : Option Int :=
  match text.toList with
  | '-' :: rest => (unsigned? rest).map fun size => -(size : Int)
  | '+' :: rest => (unsigned? rest).map Int.ofNat
  | rest => (unsigned? rest).map Int.ofNat

/-- Whether a whole number has a place in 64 bits. -/
def fits64 (value : Int) : Bool :=
  -(Json.leastWholeSize : Int) ≤ value && value ≤ (Json.greatestWhole : Int)

/-- Whether a whole number has a place in 128 bits. -/
def fits128 (value : Int) : Bool :=
  -(Nat.pow 2 127 : Int) ≤ value && value < (Nat.pow 2 128 : Int)

/-- The parts of a decimal: digits before and behind the point, and an exponent. -/
def decimal? (text : List Char) : Option (List Char × Int) :=
  let (whole, rest) := Json.spanDigits text
  let (fraction, rest) := match rest with
    | '.' :: rest => Json.spanDigits rest
    | _ => ([], rest)
  if whole.isEmpty && fraction.isEmpty then none
  else
    let exponent? := match rest with
      | [] => some (0 : Int)
      | letter :: rest =>
          if letter == 'e' || letter == 'E' then
            let (negative, digits) := match rest with
              | '-' :: digits => (true, digits)
              | '+' :: digits => (false, digits)
              | digits => (false, digits)
            if digits.isEmpty || !digits.all Char.isDigit then none
            else
              let size : Int := Json.digitsValue digits
              some (if negative then -size else size)
          else none
    exponent?.map fun exponent =>
      (whole ++ fraction, exponent - (fraction.length : Int))

/-- A floating-point number as a YAML text can write it. -/
inductive Float where
  | finite (value : Binary64)
  | infinite
  | notANumber

/-- The nearest number to a decimal with a sign. -/
def finite? (negative : Bool) (text : List Char) : Option Binary64 := do
  let (digits, exponent) ← decimal? text
  Binary64.ofDecimal? negative (Json.digitsValue digits) exponent

/-- The floating-point number that a text writes. -/
def float? (text : String) : Option Float :=
  if [".inf", ".Inf", ".INF", "+.inf", "+.Inf", "+.INF", "-.inf", "-.Inf",
      "-.INF"].contains text then some .infinite
  else if [".nan", ".NaN", ".NAN"].contains text then some .notANumber
  else
    match text.toList with
    | '-' :: rest => (finite? true rest).map .finite
    | '+' :: rest => (finite? false rest).map .finite
    | rest => (finite? false rest).map .finite

/-- The value of a floating-point number. -/
def Float.value : Float → Value
  | finite value => .number (.float value)
  | infinite | notANumber => .null

/-- The value of a whole number; one that needs more than 64 bits is an error. -/
def wholeValue (value : Int) : Option Value :=
  if fits64 value then some (.number (.integer value)) else none

/-- The value of a plain scalar, or nothing if it is an error. -/
def plainValue (text : String) : Option Value :=
  if text.isEmpty || isNullWord text then some .null
  else
    match boolWord? text, (whole? text).filter fits128 with
    | some value, _ => some (.bool value)
    | none, some value => wholeValue value
    | none, none =>
        if hasLeadingZero text.toList then some (.string text)
        else
          match float? text with
          | some value => some value.value
          | none => some (.string text)

/-- The value of a scalar with a tag of the core rules, or nothing if it is an error. -/
def taggedValue (tag text : String) : Option Value :=
  match tag with
  | "tag:yaml.org,2002:bool" => (boolWord? text).map .bool
  | "tag:yaml.org,2002:int" => ((whole? text).filter fits128).bind wholeValue
  | "tag:yaml.org,2002:float" => (float? text).map Float.value
  | "tag:yaml.org,2002:null" => if isNullWord text then some .null else none
  | _ => some (.string text)

end Concordance.Yaml
