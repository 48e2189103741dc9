import Concordance.Binary64.Basic

/-!
# JSON values

A JSON value is a finite tree.  An object holds its members as a list.  A
value that was read has them in ascending order of their keys, each key once
(`Members.insert` keeps that order); a value that is about to be written may
have them in any order.

Whole numbers between `-2 ^ 63` and `2 ^ 64 - 1` are kept exactly, all other
numbers as binary64 numbers.
-/

namespace Concordance.Json

/-- A number: a whole one, or a floating-point one. -/
inductive Number where
  | integer (value : Int)
  | float (value : Binary64)
  deriving DecidableEq, Repr

/-- A JSON value. -/
inductive Value where
  | null
  | bool (value : Bool)
  | number (value : Number)
  | string (value : String)
  | array (items : List Value)
  | object (members : List (String × Value))
  deriving Repr

/-- The members of an object. -/
abbrev Members := List (String × Value)

instance : Inhabited Value := ⟨.null⟩

mutual

/-- Whether two values are the same, members in the same order. -/
def Value.same : Value → Value → Bool
  | .null, .null => true
  | .bool left, .bool right => left == right
  | .number left, .number right => left == right
  | .string left, .string right => left == right
  | .array left, .array right => Value.sameItems left right
  | .object left, .object right => Value.sameMembers left right
  | _, _ => false

/-- Whether two lists of values are the same. -/
def Value.sameItems : List Value → List Value → Bool
  | [], [] => true
  | left :: lefts, right :: rights =>
      left.same right && Value.sameItems lefts rights
  | _, _ => false

/-- Whether two lists of members are the same. -/
def Value.sameMembers :
    List (String × Value) → List (String × Value) → Bool
  | [], [] => true
  | (leftKey, left) :: lefts, (rightKey, right) :: rights =>
      leftKey == rightKey && left.same right && Value.sameMembers lefts rights
  | _, _ => false

end

mutual

theorem Value.same_iff : ∀ left right : Value, left.same right = true ↔ left = right
  | .null, right => by cases right <;> simp [Value.same]
  | .bool _, right => by cases right <;> simp [Value.same]
  | .number _, right => by cases right <;> simp [Value.same]
  | .string _, right => by cases right <;> simp [Value.same]
  | .array items, right => by
      cases right <;> simp [Value.same, Value.sameItems_iff items]
  | .object members, right => by
      cases right <;> simp [Value.same, Value.sameMembers_iff members]

theorem Value.sameItems_iff :
    ∀ left right : List Value, Value.sameItems left right = true ↔ left = right
  | [], right => by cases right <;> simp [Value.sameItems]
  | item :: items, right => by
      cases right <;>
        simp [Value.sameItems, Value.same_iff item, Value.sameItems_iff items]

theorem Value.sameMembers_iff :
    ∀ left right : List (String × Value),
      Value.sameMembers left right = true ↔ left = right
  | [], right => by cases right <;> simp [Value.sameMembers]
  | (key, value) :: members, right => by
      cases right <;>
        simp [Value.sameMembers, Value.same_iff value,
          Value.sameMembers_iff members, Prod.ext_iff]

end

instance : DecidableEq Value := fun left right =>
  decidable_of_iff (left.same right = true) (Value.same_iff left right)

namespace Members

/-- The value of a key, if the key is present. -/
def find? (members : Members) (key : String) : Option Value :=
  List.lookup key members

/-- Whether a key is present. -/
def has (members : Members) (key : String) : Bool :=
  (members.find? key).isSome

/-- Give a key a value, in its place by the order of keys; an older value of the key is replaced. -/
def insert : Members → String → Value → Members
  | [], key, value => [(key, value)]
  | (head, old) :: rest, key, value =>
      if key < head then (key, value) :: (head, old) :: rest
      else if key = head then (key, value) :: rest
      else (head, old) :: insert rest key value

/-- Remove a key. -/
def erase (members : Members) (key : String) : Members :=
  members.filter fun member => member.1 != key

/-- The members in ascending order of their keys; of several with one key the last one counts. -/
def ofList (members : List (String × Value)) : Members :=
  members.foldl (fun sorted member => insert sorted member.1 member.2) []

/-- The keys stand in ascending order, so each stands once. -/
def Sorted (members : Members) : Prop :=
  members.Pairwise fun left right => left.1 < right.1

instance (members : Members) : Decidable members.Sorted :=
  inferInstanceAs (Decidable (List.Pairwise _ members))

end Members

end Concordance.Json
