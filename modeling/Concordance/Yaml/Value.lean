import Concordance.Yaml.Node
import Concordance.Yaml.Scalar

/-!
# YAML documents as JSON values

An alias stands for the node with its anchor.  Anchors are numbered as they
occur, by the number of different names before them; an alias gets the number
that its name has at that place, and stands for the last node with that
number in the whole document.

Keys are texts, whatever their form; of several members with one key the last
one counts.  Collections nest at most 128 deep, and a document may be
repeated through aliases only a hundred times its size.
-/

namespace Concordance.Yaml

open Json (Value Members)

/-- A node whose aliases are numbers. -/
inductive Linked where
  | scalar (tag : Option String) (text : String) (plain : Bool)
  | sequence (tag : Option String) (items : List Linked)
  | mapping (tag : Option String) (members : List (Linked × Linked))
  | alias (number : Nat)
  deriving Repr

/-- The anchors of the part of a document that has been linked. -/
structure Anchors where
  /-- The names with their latest numbers. -/
  names : List (String × Nat) := []
  /-- How many anchors there are. -/
  count : Nat := 0
  /-- The nodes with their numbers and their places among the anchors. -/
  targets : List (Nat × Nat × Linked) := []
  /-- How many nodes, and ends of collections, there are. -/
  size : Nat := 0

namespace Anchors

/-- Count nodes or ends of collections. -/
def grow (anchors : Anchors) : Anchors :=
  { anchors with size := anchors.size + 1 }

/-- Number an anchor: its number and its place among the anchors. -/
def declare (anchors : Anchors) (name : Option String) :
    Anchors × Option (Nat × Nat) :=
  match name with
  | none => (anchors, none)
  | some name =>
      let number := anchors.names.length
      let others := anchors.names.filter fun known => known.1 != name
      ({ anchors with
          names := (name, number) :: others
          count := anchors.count + 1 },
        some (number, anchors.count))

/-- Remember the node of an anchor. -/
def define (anchors : Anchors) (key : Option (Nat × Nat)) (node : Linked) :
    Anchors :=
  match key with
  | none => anchors
  | some (number, place) =>
      { anchors with targets := (number, place, node) :: anchors.targets }

/-- The last node with a number. -/
def target? (anchors : Anchors) (number : Nat) : Option Linked :=
  let found := anchors.targets.filter fun target => target.1 == number
  let latest := found.foldl (fun best target =>
    match best with
    | some (place, _) =>
        if place < target.2.1 then some target.2 else best
    | none => some target.2) (none : Option (Nat × Linked))
  latest.map Prod.snd

end Anchors

mutual

/-- Number the anchors and aliases of a node; an alias needs an anchor before it. -/
def link (anchors : Anchors) : Node → Option (Linked × Anchors)
  | .alias name => do
      let number ← anchors.names.lookup name
      pure (.alias number, anchors.grow)
  | .scalar properties text plain =>
      let (anchors, key) := anchors.grow.declare properties.anchor
      let node := Linked.scalar properties.tag text plain
      some (node, anchors.define key node)
  | .sequence properties items => do
      let (anchors, key) := anchors.grow.declare properties.anchor
      let (items, anchors) ← linkItems anchors items
      let node := Linked.sequence properties.tag items
      pure (node, anchors.grow.define key node)
  | .mapping properties members => do
      let (anchors, key) := anchors.grow.declare properties.anchor
      let (members, anchors) ← linkMembers anchors members
      let node := Linked.mapping properties.tag members
      pure (node, anchors.grow.define key node)

/-- Number the anchors and aliases of several nodes. -/
def linkItems (anchors : Anchors) : List Node → Option (List Linked × Anchors)
  | [] => some ([], anchors)
  | item :: items => do
      let (item, anchors) ← link anchors item
      let (items, anchors) ← linkItems anchors items
      pure (item :: items, anchors)

/-- Number the anchors and aliases of several members. -/
def linkMembers (anchors : Anchors) :
    List (Node × Node) → Option (List (Linked × Linked) × Anchors)
  | [] => some ([], anchors)
  | (key, value) :: members => do
      let (key, anchors) ← link anchors key
      let (value, anchors) ← link anchors value
      let (members, anchors) ← linkMembers anchors members
      pure ((key, value) :: members, anchors)

end

/-- A computation that may fail and uses up repetitions. -/
abbrev Repeating := StateT Nat Option

/-- Follow an alias, which uses up a repetition. -/
def follow (anchors : Anchors) (node : Linked) : Repeating Linked :=
  match node with
  | .alias number => do
      match ← get with
      | 0 => failure
      | left + 1 => set left
      match anchors.target? number with
      | some target => pure target
      | none => failure
  | other => pure other

/-- Whether a tag is local to its document. -/
def isLocalTag (tag : Option String) : Bool :=
  match tag with
  | some tag => tag.toList.head? == some '!'
  | none => false

/-- The value of a scalar. -/
def scalarValue (tag : Option String) (text : String) (plain : Bool) : Option Value :=
  match tag with
  | some tag => taggedValue tag text
  | none => if plain then plainValue text else some (.string text)

/-- The text of a key. -/
def keyText (anchors : Anchors) (key : Linked) : Repeating String := do
  match ← follow anchors key with
  | .scalar _ text _ => pure text
  | _ => failure

/-- The value of a node, which may nest some number of levels. -/
def valueOf (anchors : Anchors) : (depth : Nat) → Linked → Repeating Value
  | depth, node => do
      match ← follow anchors node with
      | .scalar tag text plain =>
          if isLocalTag tag then failure
          else
            match scalarValue tag text plain with
            | some value => pure value
            | none => failure
      | .sequence tag items =>
          match depth with
          | 0 => failure
          | depth + 1 =>
              if isLocalTag tag then failure
              else do
                let values ← items.mapM (valueOf anchors depth)
                pure (.array values)
      | .mapping tag members =>
          match depth with
          | 0 => failure
          | depth + 1 =>
              if isLocalTag tag then failure
              else do
                let values ← members.mapM fun (key, value) => do
                  let key ← keyText anchors key
                  let value ← valueOf anchors depth value
                  pure (key, value)
                pure (.object (Members.ofList values))
      | .alias _ => failure

/-- How deep collections may nest. -/
def depthLimit : Nat := 128

/-- The value of the only document of a text, or nothing if there is an error. -/
def read (text : String) : Option Value := do
  let tokens ← tokens? text
  let node ← Node.ofTokens? tokens
  let (linked, anchors) ← link {} node
  let (value, _) ← (valueOf anchors depthLimit linked).run (100 * anchors.size)
  pure value

end Concordance.Yaml
