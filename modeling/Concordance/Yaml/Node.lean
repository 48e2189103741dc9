import Concordance.Yaml.Token

/-!
# YAML nodes

The tokens of a text make up documents; a document is a tree of scalars,
sequences, mappings and aliases.  Only texts with at most one document are
read; a text without any stands for an empty scalar.

Nothing is resolved yet: an alias has its name and a scalar its text.
-/

namespace Concordance.Yaml

/-- What may stand in front of a node. -/
structure Properties where
  anchor : Option String := none
  tag : Option String := none
  deriving DecidableEq, Repr

/-- A node of a document. -/
inductive Node where
  | scalar (properties : Properties) (text : String) (plain : Bool)
  | sequence (properties : Properties) (items : List Node)
  | mapping (properties : Properties) (members : List (Node × Node))
  | alias (name : String)
  deriving Repr

/-- The node where nothing is written. -/
def Node.empty (properties : Properties) : Node :=
  .scalar properties "" true

/-- The handles of tags, with what they stand for. -/
abbrev Handles := List (String × String)

/-- The handles that need no directive. -/
def standardHandles : Handles :=
  [("!", "!"), ("!!", "tag:yaml.org,2002:")]

/-- The tag that a handle and a suffix write; it is an error if the handle is not known. -/
def resolveTag (handles : Handles) (handle suffix : String) : Option String :=
  if handle.isEmpty then some suffix
  else (handles.lookup handle).map (· ++ suffix)

namespace Node

/-- The rest of a reading: a node and the tokens behind it. -/
abbrev Read := Option (Node × List Token)

/-- Read the tag of a node. -/
def readTagProperty
    (handles : Handles)
    (properties : Properties) :
    List Token → Option (Properties × List Token)
  | .tag handle suffix :: rest => do
      let tag ← resolveTag handles handle suffix
      pure ({ properties with tag := some tag }, rest)
  | rest => some (properties, rest)

/-- Read the anchor of a node. -/
def readAnchorProperty
    (properties : Properties) :
    List Token → Properties × List Token
  | .anchor name :: rest => ({ properties with anchor := some name }, rest)
  | rest => (properties, rest)

/-- Read the properties of a node, in either order. -/
def readProperties
    (handles : Handles)
    (tokens : List Token) : Option (Properties × List Token) := do
  match tokens with
  | .tag .. :: _ => do
      let (properties, rest) ← readTagProperty handles {} tokens
      pure (readAnchorProperty properties rest)
  | _ =>
      let (properties, rest) := readAnchorProperty {} tokens
      readTagProperty handles properties rest

/-- The scalar that a token writes; a lone exclamation mark makes it plain. -/
def ofScalar (properties : Properties) (text : String) (plain : Bool) : Node :=
  if properties.tag = some "!" then
    .scalar { properties with tag := none } text plain
  else .scalar properties text plain

/-- Whether nothing is written for an item of a block sequence. -/
def endsItem : List Token → Bool
  | .blockEntry :: _ | .blockEnd :: _ => true
  | _ => false

/-- Whether nothing is written for an item of a sequence that is indented like its key. -/
def endsLooseItem : List Token → Bool
  | .blockEntry :: _ | .key :: _ | .value :: _ | .blockEnd :: _ => true
  | _ => false

/-- Whether nothing is written for a key or a value of a block mapping. -/
def endsMember : List Token → Bool
  | .key :: _ | .value :: _ | .blockEnd :: _ => true
  | _ => false

/-- Whether nothing is written for a key or a value in a flow sequence. -/
def endsFlowItem : List Token → Bool
  | .flowEntry :: _ | .flowSequenceEnd :: _ => true
  | _ => false

/-- Whether nothing is written for a value in a flow mapping. -/
def endsFlowMember : List Token → Bool
  | .flowEntry :: _ | .flowMappingEnd :: _ => true
  | _ => false

mutual

/--
Read a node.  Block collections are allowed only outside of flow collections,
and a sequence that is indented like its key only in a block mapping.
-/
def read (handles : Handles) (block loose : Bool) :
    (fuel : Nat) → List Token → Read
  | 0, _ => none
  | _ + 1, .alias name :: rest => some (.alias name, rest)
  | fuel + 1, tokens => do
      let (properties, rest) ← readProperties handles tokens
      match rest with
      | .scalar text plain :: rest => pure (ofScalar properties text plain, rest)
      | .flowSequenceStart :: rest =>
          let (items, rest) ← readFlowItems handles fuel true rest
          pure (.sequence properties items, rest)
      | .flowMappingStart :: rest =>
          let (members, rest) ← readFlowMembers handles fuel true rest
          pure (.mapping properties members, rest)
      | .blockEntry :: _ =>
          if loose then
            let (items, rest) ← readLooseItems handles fuel rest
            pure (.sequence properties items, rest)
          else finishEmpty properties rest
      | .blockSequenceStart :: rest' =>
          if block then
            let (items, rest) ← readItems handles fuel rest'
            pure (.sequence properties items, rest)
          else finishEmpty properties rest
      | .blockMappingStart :: rest' =>
          if block then
            let (members, rest) ← readMembers handles fuel rest'
            pure (.mapping properties members, rest)
          else finishEmpty properties rest
      | rest => finishEmpty properties rest

/-- A node of which only the properties are written. -/
def finishEmpty (properties : Properties) (rest : List Token) : Read :=
  if properties.anchor.isNone && properties.tag.isNone then none
  else some (Node.empty properties, rest)

/-- Read the items of a block sequence, to its end. -/
def readItems (handles : Handles) :
    (fuel : Nat) → List Token → Option (List Node × List Token)
  | 0, _ => none
  | fuel + 1, .blockEntry :: rest => do
      let (item, rest) ←
        if endsItem rest then some (Node.empty {}, rest)
        else read handles true false fuel rest
      let (items, rest) ← readItems handles fuel rest
      pure (item :: items, rest)
  | _ + 1, .blockEnd :: rest => some ([], rest)
  | _ + 1, _ => none

/-- Read the items of a sequence that is indented like its key. -/
def readLooseItems (handles : Handles) :
    (fuel : Nat) → List Token → Option (List Node × List Token)
  | 0, _ => none
  | fuel + 1, .blockEntry :: rest => do
      let (item, rest) ←
        if endsLooseItem rest then some (Node.empty {}, rest)
        else read handles true false fuel rest
      let (items, rest) ← readLooseItems handles fuel rest
      pure (item :: items, rest)
  | _ + 1, rest => some ([], rest)

/-- Read the members of a block mapping, to its end. -/
def readMembers (handles : Handles) :
    (fuel : Nat) → List Token → Option (List (Node × Node) × List Token)
  | 0, _ => none
  | fuel + 1, .key :: rest => do
      let (key, rest) ←
        if endsMember rest then some (Node.empty {}, rest)
        else read handles true true fuel rest
      let (value, rest) ← readValue handles fuel rest
      let (members, rest) ← readMembers handles fuel rest
      pure ((key, value) :: members, rest)
  | _ + 1, .blockEnd :: rest => some ([], rest)
  | _ + 1, _ => none

/-- Read the value of a member of a block mapping. -/
def readValue (handles : Handles) :
    (fuel : Nat) → List Token → Read
  | 0, _ => none
  | fuel + 1, .value :: rest =>
      if endsMember rest then some (Node.empty {}, rest)
      else read handles true true fuel rest
  | _ + 1, rest => some (Node.empty {}, rest)

/-- Read the items of a flow sequence, to its end. -/
def readFlowItems (handles : Handles) :
    (fuel : Nat) → (first : Bool) → List Token →
      Option (List Node × List Token)
  | 0, _, _ => none
  | _ + 1, _, .flowSequenceEnd :: rest => some ([], rest)
  | fuel + 1, first, tokens => do
      let rest ←
        if first then some tokens
        else
          match tokens with
          | .flowEntry :: rest => some rest
          | _ => none
      match rest with
      | .flowSequenceEnd :: rest => pure ([], rest)
      | .key :: rest =>
          let (item, rest) ← readFlowPair handles fuel rest
          let (items, rest) ← readFlowItems handles fuel false rest
          pure (item :: items, rest)
      | rest =>
          let (item, rest) ← read handles false false fuel rest
          let (items, rest) ← readFlowItems handles fuel false rest
          pure (item :: items, rest)

/--
Read the single member of a mapping that is an item of a flow sequence.  If
no key is written, the token in its place is lost.
-/
def readFlowPair (handles : Handles) :
    (fuel : Nat) → List Token → Read
  | 0, _ => none
  | fuel + 1, tokens => do
      let (key, rest) ←
        match tokens with
        | .value :: rest => some (Node.empty {}, rest)
        | .flowEntry :: rest => some (Node.empty {}, rest)
        | .flowSequenceEnd :: rest => some (Node.empty {}, rest)
        | rest => read handles false false fuel rest
      let (value, rest) ←
        match rest with
        | .value :: rest =>
            if endsFlowItem rest then some (Node.empty {}, rest)
            else read handles false false fuel rest
        | rest => some (Node.empty {}, rest)
      pure (.mapping {} [(key, value)], rest)

/-- Read the members of a flow mapping, to its end. -/
def readFlowMembers (handles : Handles) :
    (fuel : Nat) → (first : Bool) → List Token →
      Option (List (Node × Node) × List Token)
  | 0, _, _ => none
  | _ + 1, _, .flowMappingEnd :: rest => some ([], rest)
  | fuel + 1, first, tokens => do
      let rest ←
        if first then some tokens
        else
          match tokens with
          | .flowEntry :: rest => some rest
          | _ => none
      match rest with
      | .flowMappingEnd :: rest => pure ([], rest)
      | .key :: rest =>
          let (key, rest) ←
            match rest with
            | .value :: _ | .flowEntry :: _ | .flowMappingEnd :: _ =>
                some (Node.empty {}, rest)
            | _ => read handles false false fuel rest
          let (value, rest) ←
            match rest with
            | .value :: rest =>
                if endsFlowMember rest then some (Node.empty {}, rest)
                else read handles false false fuel rest
            | rest => some (Node.empty {}, rest)
          let (members, rest) ← readFlowMembers handles fuel false rest
          pure ((key, value) :: members, rest)
      | rest =>
          let (key, rest) ← read handles false false fuel rest
          let (members, rest) ← readFlowMembers handles fuel false rest
          pure ((key, Node.empty {}) :: members, rest)

end

/-! ### Documents -/

/--
Read the directives in front of a document: whether a version is given, the
handles, and the rest.
-/
def readDirectives :
    List Token → Option (Bool × Handles × List Token)
  | .version major minor :: rest => do
      let (versioned, handles, rest) ← readDirectives rest
      if versioned || major != 1 || (minor != 1 && minor != 2) then none
      else pure (true, handles, rest)
  | .tagDirective handle expansion :: rest => do
      let (versioned, handles, rest) ← readDirectives rest
      if (handles.lookup handle).isSome then none
      else pure (versioned, (handle, expansion) :: handles, rest)
  | rest => some (false, [], rest)

/-- Drop the end markers behind a document. -/
def dropEnds : List Token → List Token
  | .documentEnd :: rest => dropEnds rest
  | rest => rest

/-- Whether a document ends before it begins. -/
def endsDocument : List Token → Bool
  | [] => true
  | .version .. :: _ | .tagDirective .. :: _ | .documentStart :: _
  | .documentEnd :: _ => true
  | _ => false

/-- Whether a document begins with its start marker or directives. -/
def startsExplicitly : List Token → Bool
  | .version .. :: _ | .tagDirective .. :: _ | .documentStart :: _ => true
  | _ => false

/-- Read the content of a document behind its start marker. -/
def readContent (handles : Handles) (fuel : Nat) (tokens : List Token) : Read :=
  if endsDocument tokens then some (Node.empty {}, tokens)
  else read handles true false fuel tokens

/-- Read a document that begins with its start marker or directives. -/
def readExplicit (fuel : Nat) (tokens : List Token) : Read := do
  let (_, handles, rest) ← readDirectives tokens
  match rest with
  | .documentStart :: rest =>
      readContent (handles ++ standardHandles) fuel rest
  | _ => none

/-- The only document of a text, or nothing if there is an error or another document. -/
def ofTokens? (tokens : List Token) : Option Node := do
  let fuel := 4 * tokens.length + 8
  if tokens.isEmpty then pure (Node.empty {})
  else
    let (node, rest) ←
      if startsExplicitly tokens then readExplicit fuel tokens
      else read standardHandles true false fuel tokens
    if (dropEnds rest).isEmpty then pure node else none

end Node

end Concordance.Yaml
