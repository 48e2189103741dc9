import Concordance.Proofs.Json.Lexemes
import Concordance.Proofs.Json.Members

/-!
# The shape of JSON values

Three properties decide what becomes of a value that is written and read
again: whether its objects have their members in order (`Canonical`), whether
its numbers are whole (`Integral`), and how deep its arrays and objects nest
(`nesting`).  `Value.sorted` brings the members of every object into order;
it is what a reader makes of a value whose members stand in another order.
-/

namespace Concordance.Json

/-- Induction over a value, with its items and members as they stand in it. -/
@[induction_eliminator]
theorem Value.induction
    {motive : Value → Prop}
    (null : motive .null)
    (bool : ∀ value, motive (.bool value))
    (number : ∀ value, motive (.number value))
    (string : ∀ value, motive (.string value))
    (array : ∀ items, (∀ item ∈ items, motive item) → motive (.array items))
    (object : ∀ members : Members,
      (∀ member ∈ members, motive member.2) → motive (.object members)) :
    ∀ value, motive value :=
  @Value.rec motive
    (fun items => ∀ item ∈ items, motive item)
    (fun members => ∀ member ∈ members, motive member.2)
    (fun member => motive member.2)
    null bool number string array object
    nofun (fun _ _ first rest => List.forall_mem_cons.mpr ⟨first, rest⟩)
    nofun (fun _ _ first rest => List.forall_mem_cons.mpr ⟨first, rest⟩)
    (fun _ _ value => value)

/-! ### Canonical values -/

/-- Whether every object inside has its keys in ascending order. -/
inductive Value.Canonical : Value → Prop where
  | null : Canonical .null
  | bool (value : Bool) : Canonical (.bool value)
  | number (value : Number) : Canonical (.number value)
  | string (value : String) : Canonical (.string value)
  | array {items : List Value}
      (each : ∀ item ∈ items, Canonical item) :
      Canonical (.array items)
  | object {members : Members}
      (sorted : members.Sorted)
      (each : ∀ member ∈ members, Canonical member.2) :
      Canonical (.object members)

theorem Value.Canonical.item
    {items : List Value}
    (canonical : (Value.array items).Canonical) :
    ∀ item ∈ items, item.Canonical := by
  cases canonical with
  | array each => exact each

theorem Value.Canonical.members_sorted
    {members : Members}
    (canonical : (Value.object members).Canonical) :
    members.Sorted := by
  cases canonical with
  | object sorted _ => exact sorted

theorem Value.Canonical.member
    {members : Members}
    (canonical : (Value.object members).Canonical) :
    ∀ member ∈ members, member.2.Canonical := by
  cases canonical with
  | object _ each => exact each

/-! ### Whole numbers only -/

/-- Whether every number inside is a whole one that is kept exactly. -/
inductive Value.Integral : Value → Prop where
  | null : Integral .null
  | bool (value : Bool) : Integral (.bool value)
  | number {value : Number} (whole : value.Whole) : Integral (.number value)
  | string (value : String) : Integral (.string value)
  | array {items : List Value}
      (each : ∀ item ∈ items, Integral item) :
      Integral (.array items)
  | object {members : Members}
      (each : ∀ member ∈ members, Integral member.2) :
      Integral (.object members)

theorem Value.Integral.item
    {items : List Value}
    (integral : (Value.array items).Integral) :
    ∀ item ∈ items, item.Integral := by
  cases integral with
  | array each => exact each

theorem Value.Integral.member
    {members : Members}
    (integral : (Value.object members).Integral) :
    ∀ member ∈ members, member.2.Integral := by
  cases integral with
  | object each => exact each

/-! ### Keys that stand once -/

/-- Whether no object inside repeats a key. -/
inductive Value.Unrepeated : Value → Prop where
  | null : Unrepeated .null
  | bool (value : Bool) : Unrepeated (.bool value)
  | number (value : Number) : Unrepeated (.number value)
  | string (value : String) : Unrepeated (.string value)
  | array {items : List Value}
      (each : ∀ item ∈ items, Unrepeated item) :
      Unrepeated (.array items)
  | object {members : Members}
      (distinct : members.Distinct)
      (each : ∀ member ∈ members, Unrepeated member.2) :
      Unrepeated (.object members)

theorem Value.Canonical.unrepeated
    {value : Value}
    (canonical : value.Canonical) :
    value.Unrepeated := by
  induction canonical with
  | null => exact .null
  | bool value => exact .bool value
  | number value => exact .number value
  | string value => exact .string value
  | array _ induction => exact .array induction
  | object sorted _ induction => exact .object sorted.distinct induction

/-! ### Nesting -/

mutual

/-- How deep arrays and objects nest inside a value, itself included. -/
def Value.nesting : Value → Nat
  | .array items => Value.itemsNesting items + 1
  | .object members => Value.membersNesting members + 1
  | _ => 0

/-- How deep arrays and objects nest inside the deepest of several values. -/
def Value.itemsNesting : List Value → Nat
  | [] => 0
  | item :: items => max item.nesting (Value.itemsNesting items)

/-- How deep arrays and objects nest inside the deepest of several members. -/
def Value.membersNesting : List (String × Value) → Nat
  | [] => 0
  | (_, value) :: members => max value.nesting (Value.membersNesting members)

end

theorem Value.itemsNesting_le_iff {items : List Value} {limit : Nat} :
    Value.itemsNesting items ≤ limit ↔ ∀ item ∈ items, item.nesting ≤ limit := by
  induction items with
  | nil => simp [Value.itemsNesting]
  | cons item items induction =>
      rw [Value.itemsNesting, Nat.max_le, induction, List.forall_mem_cons]

theorem Value.membersNesting_le_iff {members : Members} {limit : Nat} :
    Value.membersNesting members ≤ limit ↔
      ∀ member ∈ members, member.2.nesting ≤ limit := by
  induction members with
  | nil => simp [Value.membersNesting]
  | cons member members induction =>
      rcases member with ⟨key, value⟩
      rw [Value.membersNesting, Nat.max_le, induction, List.forall_mem_cons]

theorem Value.nesting_array_le_iff {items : List Value} {limit : Nat} :
    (Value.array items).nesting ≤ limit + 1 ↔
      ∀ item ∈ items, item.nesting ≤ limit := by
  rw [Value.nesting, Nat.add_le_add_iff_right, Value.itemsNesting_le_iff]

theorem Value.nesting_object_le_iff {members : Members} {limit : Nat} :
    (Value.object members).nesting ≤ limit + 1 ↔
      ∀ member ∈ members, member.2.nesting ≤ limit := by
  rw [Value.nesting, Nat.add_le_add_iff_right, Value.membersNesting_le_iff]

/-- An array nests no deeper than another if its items fit wherever those of the other do. -/
theorem Value.nesting_array_le_of_forall
    {items others : List Value}
    (each : ∀ {inner}, (∀ item ∈ items, item.nesting ≤ inner) →
      ∀ other ∈ others, other.nesting ≤ inner)
    {limit : Nat}
    (within : (Value.array items).nesting ≤ limit) :
    (Value.array others).nesting ≤ limit := by
  cases limit with
  | zero => exact (Nat.not_succ_le_zero _ within).elim
  | succ limit =>
      rw [Value.nesting_array_le_iff] at within ⊢
      exact each within

/-- An object nests no deeper than another if its values fit wherever those of the other do. -/
theorem Value.nesting_object_le_of_forall
    {members others : Members}
    (each : ∀ {inner}, (∀ member ∈ members, member.2.nesting ≤ inner) →
      ∀ other ∈ others, other.2.nesting ≤ inner)
    {limit : Nat}
    (within : (Value.object members).nesting ≤ limit) :
    (Value.object others).nesting ≤ limit := by
  cases limit with
  | zero => exact (Nat.not_succ_le_zero _ within).elim
  | succ limit =>
      rw [Value.nesting_object_le_iff] at within ⊢
      exact each within

/-! ### Sorting -/

mutual

/-- The value with the members of every object in order. -/
def Value.sorted : Value → Value
  | .array items => .array (Value.sortedItems items)
  | .object members => .object (Members.ofList (Value.sortedMembers members))
  | other => other

/-- Several values with the members of every object in order. -/
def Value.sortedItems : List Value → List Value
  | [] => []
  | item :: items => item.sorted :: Value.sortedItems items

/-- The members with their values sorted, in the order in which they stand. -/
def Value.sortedMembers : List (String × Value) → List (String × Value)
  | [] => []
  | (key, value) :: members => (key, value.sorted) :: Value.sortedMembers members

end

theorem Value.sortedItems_eq_map (items : List Value) :
    Value.sortedItems items = items.map Value.sorted := by
  induction items with
  | nil => rfl
  | cons item items induction =>
      rw [Value.sortedItems, induction, List.map_cons]

theorem Value.sortedMembers_eq_map (members : Members) :
    Value.sortedMembers members =
      members.map fun member => (member.1, member.2.sorted) := by
  induction members with
  | nil => rfl
  | cons member members induction =>
      rcases member with ⟨key, value⟩
      rw [Value.sortedMembers, induction, List.map_cons]

theorem Value.sortedItems_eq_self_of_forall
    {items : List Value}
    (each : ∀ item ∈ items, item.sorted = item) :
    Value.sortedItems items = items := by
  rw [Value.sortedItems_eq_map]
  exact (List.map_congr_left each).trans (List.map_id' items)

theorem Value.sortedMembers_eq_self_of_forall
    {members : Members}
    (each : ∀ member ∈ members, member.2.sorted = member.2) :
    Value.sortedMembers members = members := by
  rw [Value.sortedMembers_eq_map]
  refine (List.map_congr_left ?_).trans (List.map_id' members)
  intro member inMembers
  rw [each member inMembers]

/-- A canonical value is in order already. -/
theorem Value.Canonical.sorted_eq {value : Value} (canonical : value.Canonical) :
    value.sorted = value := by
  induction canonical with
  | null | bool | number | string => rfl
  | array _ induction =>
      rw [Value.sorted, Value.sortedItems_eq_self_of_forall induction]
  | object sorted _ induction =>
      rw [Value.sorted, Value.sortedMembers_eq_self_of_forall induction,
        sorted.ofList_eq]

/-- Sorting puts every object in order. -/
theorem Value.canonical_sorted (value : Value) : value.sorted.Canonical := by
  induction value with
  | null => exact .null
  | bool value => exact .bool value
  | number value => exact .number value
  | string value => exact .string value
  | array items induction =>
      rw [Value.sorted, Value.sortedItems_eq_map]
      refine .array ?_
      intro sortedItem member
      rcases List.mem_map.mp member with ⟨item, inItems, rfl⟩
      exact induction item inItems
  | object members induction =>
      rw [Value.sorted, Value.sortedMembers_eq_map]
      refine .object (Members.sorted_ofList _) ?_
      intro sortedMember found
      have inMap := Members.mem_of_mem_ofList found
      rcases List.mem_map.mp inMap with ⟨member, inMembers, rfl⟩
      exact induction member inMembers

theorem Value.sortedMembers_eq_self
    {members : Members}
    (canonical : (Value.object members).Canonical) :
    Value.sortedMembers members = members := by
  apply Value.sortedMembers_eq_self_of_forall
  intro member inMembers
  exact (canonical.member member inMembers).sorted_eq

theorem Members.find?_sortedMembers (members : Members) (key : String) :
    Members.find? (Value.sortedMembers members) key =
      (Members.find? members key).map Value.sorted := by
  induction members with
  | nil => rfl
  | cons member members induction =>
      rcases member with ⟨head, value⟩
      rw [Value.sortedMembers, Members.find?_cons, Members.find?_cons, induction]
      split <;> rfl

theorem Members.Distinct.sortedMembers
    {members : Members}
    (distinct : members.Distinct) :
    Members.Distinct (Value.sortedMembers members) := by
  rw [Members.Distinct, Value.sortedMembers_eq_map, List.map_map]
  exact distinct

/-- Where no object repeats a key, sorting loses nothing that nests. -/
theorem Value.Unrepeated.nesting_le
    {value : Value}
    (unrepeated : value.Unrepeated)
    {limit : Nat}
    (within : value.sorted.nesting ≤ limit) :
    value.nesting ≤ limit := by
  induction value generalizing limit with
  | null | bool | number | string => exact within
  | array items induction =>
      cases unrepeated with
      | array each =>
          rw [Value.sorted, Value.sortedItems_eq_map] at within
          refine Value.nesting_array_le_of_forall ?_ within
          intro inner within item member
          exact induction item member (each item member)
            (within _ (List.mem_map_of_mem member))
  | object members induction =>
      cases unrepeated with
      | object distinct each =>
          rw [Value.sorted] at within
          refine Value.nesting_object_le_of_forall ?_ within
          intro inner within member inMembers
          apply induction member inMembers (each member inMembers)
          -- No other member took its place when the members were sorted.
          refine within (member.1, member.2.sorted)
            (Members.mem_of_find?_eq_some ?_)
          rw [distinct.sortedMembers.find?_ofList, Members.find?_sortedMembers,
            distinct.find?_eq_some inMembers]
          rfl

end Concordance.Json
