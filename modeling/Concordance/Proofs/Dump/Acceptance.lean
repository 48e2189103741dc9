import Concordance.Proofs.Dump.Shape
import Concordance.Proofs.Json.Recognition

/-!
# The texts that are dumps

A text is read as a tree exactly if it spells a reflection: it is a single
JSON text of the grammar, nests at most 127 deep, and its value has the shape
of a reflection.  Every other text is an error.

The tree of a dump has one node for each of its reflections.  `Tree.Numbers`
says how they are numbered: in the order in which their objects open, so that
a reflection comes before those inside it and these before what follows it,
with the nesting as the links between parents and children.
-/

namespace Concordance

open Json

mutual

/--
Whether the reflection `value` and those inside it are the nodes from `first`
up to `next`, and the reflection itself is a child of `parent`.
-/
inductive Tree.Numbers (tree : Tree) : Option NodeId → NodeId → Value → NodeId → Prop where
  | object {parent : Option NodeId} {first next : NodeId} {node : Node} {members : Members}
      (here : tree.node? first = some node)
      (below : node.parent = parent)
      (name : members.valuesOf "name" = [.string node.symbol.name])
      (kind : members.valuesOf "kind" = [.number (.integer node.symbol.kindCode.toNat)])
      (inside : Tree.NumbersAll tree first (first + 1) (Dump.childValues members)
        node.children next) :
      Tree.Numbers tree parent first (.object members) next

/--
Whether several reflections, with those inside them, are the nodes from
`first` up to `next`, and they themselves are the given children of `parent`.
-/
inductive Tree.NumbersAll (tree : Tree) :
    NodeId → NodeId → List Value → List NodeId → NodeId → Prop where
  | nil {parent first : NodeId} :
      Tree.NumbersAll tree parent first [] [] first
  | cons {parent first middle next : NodeId} {item : Value} {items : List Value}
      {children : List NodeId}
      (head : Tree.Numbers tree (some parent) first item middle)
      (others : Tree.NumbersAll tree parent middle items children next) :
      Tree.NumbersAll tree parent first (item :: items) (first :: children) next

end

/-! ### Outlines and the values they were read from -/

namespace Json

theorem Members.find?_eq_head? (members : Members) (key : String) :
    members.find? key = (members.valuesOf key).head? := by
  induction members with
  | nil => rfl
  | cons member members induction =>
      rcases member with ⟨head, value⟩
      rw [Members.find?_cons, Members.valuesOf_cons]
      by_cases same : head = key
      · rw [if_pos same.symm, if_pos same, List.head?_cons]
      · rw [if_neg (Ne.symm same), if_neg same, induction]

/-- Of several values of a key the last one counts. -/
theorem Members.find?_ofList (members : Members) (key : String) :
    (Members.ofList members).find? key = (members.valuesOf key).getLast? := by
  have reversed : Members.valuesOf members.reverse key = (members.valuesOf key).reverse := by
    rw [Members.valuesOf, Members.valuesOf, List.filter_reverse, List.map_reverse]
  rw [Members.ofList_eq_insertAll, Members.find?_insertAll, Members.find?_nil,
    Option.or_none, Members.find?_eq_head?, reversed, List.head?_reverse]

theorem Members.valuesOf_sortedMembers (members : Members) (key : String) :
    Members.valuesOf (Value.sortedMembers members) key =
      (members.valuesOf key).map Value.sorted := by
  induction members with
  | nil => rfl
  | cons member members induction =>
      rcases member with ⟨head, value⟩
      rw [Value.sortedMembers, Members.valuesOf_cons, Members.valuesOf_cons, induction]
      split <;> rfl

theorem Members.find?_sorted_of_single
    {members : Members}
    {key : String}
    {value : Value}
    (single : members.valuesOf key = [value]) :
    (Members.ofList (Value.sortedMembers members)).find? key = some value.sorted := by
  rw [Members.find?_ofList, Members.valuesOf_sortedMembers, single]
  rfl

end Json

/-- Whether an outline has the names and kinds of the reflections of a value, nested in the same way. -/
inductive Outline.Mirrors : Outline → Value → Prop where
  | object {symbol : Symbol} {children : List Outline} {members : Members}
      (name : members.valuesOf "name" = [.string symbol.name])
      (kind : members.valuesOf "kind" = [.number (.integer symbol.kindCode.toNat)])
      (below : List.Forall₂ Mirrors children (Dump.childValues members)) :
      Mirrors (.node symbol children) (.object members)

namespace Dump

/-- The array under the key of the children has the values of the children, in order. -/
theorem find?_children_sorted
    {members : Members}
    (single : AtMostOne (IsArrayOf fun _ => True) (members.valuesOf "children")) :
    ((Members.ofList (Value.sortedMembers members)).find? "children").getD (.array []) =
      .array ((childValues members).map Value.sorted) := by
  rcases single with none | ⟨_, one, items, rfl, -⟩
  · rw [Members.find?_ofList, Members.valuesOf_sortedMembers, childValues, none]
    rfl
  · rw [Members.find?_sorted_of_single one, childValues, one, List.flatMap_singleton,
      Value.sorted, Value.sortedItems_eq_map]
    rfl

theorem forall₂_of_mem
    {First Second : Type}
    {Before After : First → Second → Prop}
    {firsts : List First}
    {seconds : List Second}
    (related : List.Forall₂ Before firsts seconds)
    (each : ∀ second ∈ seconds, ∀ {first}, Before first second → After first second) :
    List.Forall₂ After firsts seconds := by
  induction related with
  | nil => exact .nil
  | cons head _ induction =>
      rcases List.forall_mem_cons.mp each with ⟨here, others⟩
      exact .cons (here head) (induction others)

/-- The outline that is read from a reflection mirrors it. -/
theorem IsReflection.mirrors
    {value : Value}
    (reflection : IsReflection value)
    {outline : Outline}
    (readFrom : outline.ReadFrom value.sorted) :
    outline.Mirrors value := by
  induction reflection generalizing outline with
  | object name kind comment children below induction =>
      rcases name with ⟨_, oneName, text, rfl⟩
      rcases kind with ⟨_, oneKind, code, -, rfl⟩
      rw [Value.sorted] at readFrom
      cases readFrom with
      | object readName readKind _ array readBelow _ =>
          rw [Members.find?_sorted_of_single oneName] at readName
          rw [Members.find?_sorted_of_single oneKind] at readKind
          rw [find?_children_sorted children] at array
          cases readName
          cases array
          rw [List.forall₂_map_right_iff] at readBelow
          refine .object oneName ?_ (forall₂_of_mem readBelow induction)
          exact oneKind.trans (congrArg (fun kind => [kind]) (Option.some.inj readKind))

end Dump

/-! ### The numbers of reflections -/

mutual

/-- A tree that holds an outline numbers the reflections of a value that the outline mirrors. -/
theorem Tree.numbers_of_holds
    {tree : Tree} :
    ∀ (outline : Outline) {value : Value} (parent : Option NodeId) (position : NodeId),
      outline.Mirrors value →
      tree.Holds position (outline.nodesAt parent position) →
      tree.Numbers parent position value (position + outline.size)
  | .node symbol children, value, parent, position, mirrors, holds => by
      cases mirrors with
      | object name kind below =>
          rw [Outline.nodesAt, Tree.holds_cons] at holds
          rcases holds with ⟨here, inside⟩
          have numbers := Tree.numbersAll_of_holds children position (position + 1) below inside
          rw [Outline.size, Nat.add_comm _ 1, ← Nat.add_assoc]
          exact .object here rfl name kind numbers

theorem Tree.numbersAll_of_holds
    {tree : Tree} :
    ∀ (outlines : List Outline) {items : List Value} (parent position : NodeId),
      List.Forall₂ Outline.Mirrors outlines items →
      tree.Holds position (Outline.nodesBelow parent position outlines) →
      tree.NumbersAll parent position items (Outline.positionsFrom position outlines)
        (position + Outline.sizes outlines)
  | [], _, _, _, .nil, _ => .nil
  | outline :: outlines, _, parent, position, .cons first others, holds => by
      rw [Outline.nodesBelow, Tree.holds_append, Outline.length_nodesAt] at holds
      rcases holds with ⟨here, behind⟩
      rw [Outline.sizes, ← Nat.add_assoc]
      exact .cons (Tree.numbers_of_holds outline _ position first here)
        (Tree.numbersAll_of_holds outlines parent _ others behind)

end

theorem Outline.Mirrors.takeReadme
    {outline : Outline}
    {value : Value}
    (mirrors : outline.Mirrors value) :
    (Dump.takeReadme outline).1.Mirrors value := by
  cases mirrors with
  | object name kind below =>
      rw [Dump.takeReadme]
      split
      · exact .object name kind below
      · exact .object name kind below

theorem Outline.Mirrors.numbers_ofOutline
    {outline : Outline}
    {value : Value}
    (mirrors : outline.Mirrors value)
    (readme : Option String) :
    (Tree.ofOutline outline readme).Numbers none Tree.root value
      (Tree.ofOutline outline readme).size := by
  have numbers := Tree.numbers_of_holds outline none Tree.root mirrors
    (Tree.holds_ofOutline outline readme)
  rwa [Tree.root, Nat.zero_add, ← Tree.size_ofOutline outline readme] at numbers

namespace Dump

/-- Whether a text is a dump: the JSON text of a reflection, at most 127 levels deep. -/
def IsDump (text : String) : Prop :=
  ∃ value : Value, value.Padded text.toList ∧ value.nesting ≤ 127 ∧ IsReflection value

theorem exists_read_iff {text : String} :
    (∃ tree, Dump.read text = .ok tree) ↔ IsDump text := by
  constructor
  · rintro ⟨tree, read⟩
    rcases found : Document.read text with ⟨document, trailing⟩
    simp only [Dump.read, found, bind_eq_ok_iff] at read
    rcases read with ⟨whole, readWhole, ⟨⟩, closed, -⟩
    rcases requireClosed_eq_ok closed with rfl
    rcases readOutline_eq_ok readWhole with ⟨plain, hasValue, -⟩
    have sound : ¬ document.Faulty := fun faulty => faulty _ hasValue
    rcases Document.read_eq_iff.mp ⟨found, sound⟩ with ⟨value, padded, shallow, rfl⟩
    exact ⟨value, padded, shallow, exists_readOutline_iff.mp ⟨whole, readWhole⟩⟩
  · rintro ⟨value, padded, shallow, reflection⟩
    rcases exists_readOutline_iff.mpr reflection with ⟨whole, readWhole⟩
    refine ⟨Tree.ofOutline (takeReadme whole).1 (takeReadme whole).2, ?_⟩
    rw [Dump.read, Document.read_of_tokens (tokens_eq_iff_padded.mpr padded) shallow]
    change (readOutline value.document >>= _) = _
    rw [readWhole]
    rfl

/-- The tree of a text numbers the reflections of whatever value the text spells. -/
theorem numbers_of_read
    {text : String}
    {tree : Tree}
    (read : Dump.read text = .ok tree)
    {value : Value}
    (padded : value.Padded text.toList) :
    tree.Numbers none Tree.root value tree.size := by
  have cut := tokens_eq_iff_padded.mpr padded
  by_cases shallow : value.nesting ≤ depthLimit
  · simp only [Dump.read, Document.read_of_tokens cut shallow, bind_eq_ok_iff] at read
    rcases read with ⟨whole, readWhole, ⟨⟩, -, ⟨⟩⟩
    have reflection := exists_readOutline_iff.mp ⟨whole, readWhole⟩
    rcases readOutline_eq_ok readWhole with ⟨plain, hasValue, readFrom⟩
    rw [Value.value_document] at hasValue
    cases hasValue
    exact (reflection.mirrors readFrom).takeReadme.numbers_ofOutline _
  · have faulty := Document.faulty_of_tokens cut shallow
    simp only [Dump.read, bind_eq_ok_iff] at read
    rcases read with ⟨whole, readWhole, -⟩
    rcases readOutline_eq_ok readWhole with ⟨plain, hasValue, -⟩
    exact (faulty plain hasValue).elim

/--
A text is read as a tree exactly if it is a dump; every other text is an
error.  The tree that is read has one node for each reflection of the text,
numbered in the order in which their objects open, with the nesting as the
links.
-/
theorem read_iff_isDump (text : String) :
    ((∃ tree, Dump.read text = .ok tree) ↔ IsDump text) ∧
      ((∃ problem, Dump.read text = .error problem) ↔ ¬ IsDump text) ∧
      ∀ tree, Dump.read text = .ok tree →
        ∀ value : Value, value.Padded text.toList →
          tree.Numbers none Tree.root value tree.size := by
  refine ⟨exists_read_iff, ?_, fun tree read value padded => numbers_of_read read padded⟩
  rw [← exists_read_iff]
  cases Dump.read text with
  | error problem => exact ⟨fun _ => nofun, fun _ => ⟨problem, rfl⟩⟩
  | ok tree => exact ⟨nofun, fun unread => (unread ⟨tree, rfl⟩).elim⟩

/-- A dump with a key that is escaped and one that stands twice. -/
def escapedDump : String :=
  " \x7b\"x\": 1E2, \"\\u006eame\": \"p\", \"x\": [null], \"kind\": 1, \"children\": ["
    ++ "\x7b\"kind\": 128, \"name\": \"C\", \"children\": [\x7b\"name\": \"f\", \"kind\": 2048\x7d]\x7d, "
    ++ "\x7b\"name\": \"m\", \"kind\": 2\x7d]\x7d\n"

/-- A text that gives a name twice, once with an escape in its key. -/
def twiceNamed : String :=
  "\x7b\"name\": \"p\", \"kind\": 1, \"n\\u0061me\": \"q\"\x7d"

/-- A repeated key is no obstacle unless it is interpreted, however it is spelled. -/
theorem read_iff_isDump_escapedDump :
    ¬ IsDump twiceNamed ∧
      ∃ tree value, Dump.read escapedDump = .ok tree ∧
        value.Padded escapedDump.toList ∧ tree.Numbers none Tree.root value 4 := by
  constructor
  · have failed : Dump.read twiceNamed = .error (.misshapen (.duplicateField "name")) := by
      decide +kernel
    exact (read_iff_isDump twiceNamed).2.1.mp ⟨_, failed⟩
  · have counted : (Dump.read escapedDump).map Tree.size = .ok 4 := by decide +kernel
    cases read : Dump.read escapedDump with
    | error problem =>
        rw [read] at counted
        cases counted
    | ok tree =>
        rw [read] at counted
        have size : tree.size = 4 := Except.ok.inj counted
        rcases read_iff_isDump escapedDump with ⟨accepted, -, numbered⟩
        rcases accepted.mp ⟨tree, read⟩ with ⟨value, padded, -⟩
        have numbers := numbered tree read value padded
        rw [size] at numbers
        exact ⟨tree, value, rfl, padded, numbers⟩

end Dump

end Concordance
