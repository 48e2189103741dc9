import Concordance.Proofs.Dump.Reading
import Concordance.Proofs.Tree.Renumbering

/-!
# From a tree to its dump and back

Every part of a portable symbol is read as it was written: tags, comments,
kind codes, and the symbol with its children.  The readme travels as one more
member of the root and is taken out again.  What is read is therefore the
outline of the tree, laid out anew, so the tree comes back renumbered by its
walk.

A dump that nests deeper than the limit is not read at all.
-/

namespace Concordance.Dump

open Json

/-! ### Reading what was written -/

/-- A tag that was written is read as it was. -/
theorem readTag_document {tag : Tag} (portable : tag.Portable) :
    readTag (tagValue tag).document = .ok tag := by
  have carried (extra : Members) (key : String) (document : Document)
      (kept : key ∉ tagKeys) :
      TagFields.read ⟨some tag.name, some tag.text, extra⟩ key document =
        (readExtra document).map fun value =>
          ⟨some tag.name, some tag.text, extra.insert key value⟩ := by
    simp only [tagKeys, List.mem_cons, List.not_mem_nil, or_false, not_or] at kept
    rw [TagFields.read, if_neg kept.1, if_neg kept.2]
    rfl
  have interpreted :
      readWritten TagFields.read {}
          [("tag", .string tag.name), ("text", .string tag.text)] =
        .ok ⟨some tag.name, some tag.text, []⟩ := rfl
  rw [tagValue, Value.document, readTag]
  change (readWritten TagFields.read {} _ >>= _) = _
  rw [readWritten_append interpreted, readWritten_portable carried portable]
  rfl

/-- Elements that are read as they were written make a list that is. -/
theorem mapM_documents
    {Element : Type}
    {read : Document → Except Problem Element}
    {write : Element → Value}
    {elements : List Element}
    (each : ∀ element ∈ elements, read (write element).document = .ok element) :
    (Value.documents (elements.map write)).mapM read = .ok elements := by
  rw [Value.documents_eq_map, mapM_eq_ok_iff, List.forall₂_map_left_iff,
    List.forall₂_map_left_iff, List.forall₂_same]
  exact each

theorem readTags_document
    {tags : List Tag}
    (portable : ∀ tag ∈ tags, tag.Portable) :
    readTags (Value.array (tags.map tagValue)).document = .ok tags := by
  rw [Value.document, readTags,
    mapM_documents fun tag member => readTag_document (portable tag member)]
  rfl

/-- What is read of a comment that was written, with some of its extra members. -/
def commentFields (comment : Comment) (extra : Members) : CommentFields where
  text := if comment.text.isEmpty then none else some comment.text
  tags := if comment.tags.isEmpty then none else some comment.tags
  extra := extra

theorem readWritten_comment_text (comment : Comment) :
    readWritten CommentFields.read {} (textMember comment.text) =
      .ok { text := if comment.text.isEmpty then none else some comment.text } := by
  rw [textMember]
  split <;> rfl

theorem readWritten_comment_tags
    {comment : Comment}
    (portable : comment.Portable)
    (text : Option String) :
    readWritten CommentFields.read { text := text } (tagsMember comment.tags) =
      .ok
        { text := text
          tags := if comment.tags.isEmpty then none else some comment.tags } := by
  rw [tagsMember]
  split
  · rfl
  · rw [readWritten_singleton, CommentFields.read, if_neg (by decide), if_pos rfl,
      readTags_document portable.tags]
    rfl

/-- A comment that was written is read as it was. -/
theorem readComment_document {comment : Comment} (portable : comment.Portable) :
    readComment (commentValue comment).document = .ok (some comment) := by
  have carried (extra : Members) (key : String) (document : Document)
      (kept : key ∉ commentKeys) :
      CommentFields.read (commentFields comment extra) key document =
        (readExtra document).map fun value =>
          commentFields comment (extra.insert key value) := by
    simp only [commentKeys, List.mem_cons, List.not_mem_nil, or_false,
      not_or] at kept
    rw [CommentFields.read, if_neg kept.1, if_neg kept.2]
    rfl
  have text : (if comment.text.isEmpty then none else some comment.text).getD "" =
      comment.text := by
    split
    · rename_i empty
      exact (String.isEmpty_iff.mp empty).symm
    · rfl
  have tags : (if comment.tags.isEmpty then none else some comment.tags).getD [] =
      comment.tags := by
    split
    · rename_i empty
      exact (List.isEmpty_iff.mp empty).symm
    · rfl
  have collected := readWritten_portable carried portable.extra
  unfold commentFields at collected
  rw [commentValue_eq, Value.document, readComment]
  change (readWritten CommentFields.read {} _ >>= _) = _
  rw [List.append_assoc, readWritten_append (readWritten_comment_text comment),
    readWritten_append (readWritten_comment_tags portable _), collected]
  change Except.ok (some (Comment.mk (Option.getD _ _) (Option.getD _ _) _)) = _
  rw [text, tags]

theorem readKindCode_document (code : UInt32) :
    readKindCode (Value.number (.integer code.toNat)).document = .ok code := by
  have below : (code.toNat : Int) < (UInt32.size : Int) :=
    Int.ofNat_lt.mpr code.toNat_lt
  rw [Value.document, readKindCode, if_pos ⟨Int.natCast_nonneg _, below⟩,
    Int.toNat_natCast, UInt32.ofNat_toNat]

theorem readChildren_document
    {children : List Outline}
    (each : ∀ child ∈ children,
      readOutline (outlineValue child).document = .ok child) :
    readChildren (Value.array (children.map outlineValue)).document =
      .ok children := by
  rw [Value.document, readChildren, readOutlines_eq_mapM, mapM_documents each]
  rfl

/-- What is read of a symbol that was written, with some of its extra members. -/
def symbolFields
    (symbol : Symbol)
    (children : List Outline)
    (extra : Members) : SymbolFields where
  name := some symbol.name
  kindCode := some symbol.kindCode
  comment := symbol.comment.map some
  children := if children.isEmpty then none else some children
  extra := extra

theorem readWritten_name_kind (symbol : Symbol) :
    readWritten SymbolFields.read {}
        [("name", .string symbol.name),
          ("kind", .number (.integer symbol.kindCode.toNat))] =
      .ok { name := some symbol.name, kindCode := some symbol.kindCode } := by
  have name :
      SymbolFields.read {} "name" (Value.string symbol.name).document =
        .ok { name := some symbol.name } := rfl
  have kind :
      SymbolFields.read { name := some symbol.name } "kind"
          (Value.number (.integer symbol.kindCode.toNat)).document =
        .ok { name := some symbol.name, kindCode := some symbol.kindCode } := by
    rw [SymbolFields.read, if_neg (by decide), if_pos rfl, readKindCode_document]
    rfl
  rw [readWritten_cons_of_read name, readWritten_singleton, kind]

theorem readWritten_commentMember
    {symbol : Symbol}
    (portable : symbol.Portable) :
    readWritten SymbolFields.read
        { name := some symbol.name, kindCode := some symbol.kindCode }
        (commentMember symbol.comment) =
      .ok (symbolFields symbol [] []) := by
  rw [symbolFields]
  cases given : symbol.comment with
  | none => rfl
  | some comment =>
      rw [commentMember, readWritten_singleton, SymbolFields.read,
        if_neg (by decide), if_neg (by decide), if_pos rfl,
        readComment_document (portable.comment comment given)]
      rfl

theorem readWritten_childrenMember
    (symbol : Symbol)
    {children : List Outline}
    (each : ∀ child ∈ children,
      readOutline (outlineValue child).document = .ok child) :
    readWritten SymbolFields.read (symbolFields symbol [] [])
        (childrenMember children) =
      .ok (symbolFields symbol children []) := by
  rw [childrenMember_eq]
  rw [symbolFields]
  cases children with
  | nil => rfl
  | cons child children =>
      change readWritten SymbolFields.read _ [("children", _)] = _
      rw [readWritten_singleton, SymbolFields.read,
        if_neg (by decide), if_neg (by decide), if_neg (by decide), if_pos rfl,
        readChildren_document each]
      rfl

/-- An outline that was written is read as it was. -/
theorem readOutline_document {outline : Outline} (portable : outline.Portable) :
    readOutline (outlineValue outline).document = .ok outline := by
  induction outline with
  | node symbol children induction =>
      rcases Outline.portable_node.mp portable with ⟨here, below⟩
      have carried (extra : Members) (key : String) (document : Document)
          (kept : key ∉ symbolKeys) :
          SymbolFields.read (symbolFields symbol children extra) key document =
            (readExtra document).map fun value =>
              symbolFields symbol children (extra.insert key value) := by
        simp only [symbolKeys, List.mem_cons, List.not_mem_nil, or_false,
          not_or] at kept
        rcases kept with ⟨name, kind, comment, children⟩
        rw [SymbolFields.read, if_neg name, if_neg kind, if_neg comment,
          if_neg children]
        rfl
      have each (child : Outline) (member : child ∈ children) :=
        induction child member (below child member)
      have whole :
          (if children.isEmpty then none else some children).getD [] =
            children := by
        cases children <;> rfl
      have comment : (symbol.comment.map some).join = symbol.comment := by
        cases symbol.comment <;> rfl
      rw [outlineValue_eq, Value.document, readOutline, readFields_eq_foldlM]
      change (readWritten SymbolFields.read {} _ >>= _) = _
      rw [interpretedMembers, List.append_assoc, List.append_assoc,
        readWritten_append (readWritten_name_kind symbol),
        readWritten_append (readWritten_commentMember here),
        readWritten_append (readWritten_childrenMember symbol each),
        readWritten_portable carried here.extra]
      change
        Except.ok
          (Outline.node ⟨_, _, (symbol.comment.map some).join, _⟩
            ((if children.isEmpty then none else some children).getD [])) = _
      rw [comment, whole]
      rfl

/-! ### The readme -/

/-- Whether a readme is told apart from the members of the root that it is put into. -/
def ReadmeApart (readme : Option String) (extra : Members) : Prop :=
  match readme with
  | some _ => extra.find? readmeKey = none
  | none => ∀ text, extra.find? readmeKey ≠ some (.string text)

theorem takeReadme_putReadme
    {outline : Outline}
    {readme : Option String}
    (sorted : outline.symbol.extra.Sorted)
    (apart : ReadmeApart readme outline.symbol.extra) :
    takeReadme (putReadme readme outline) = (outline, readme) := by
  rcases outline with ⟨symbol, children⟩
  change symbol.extra.Sorted at sorted
  cases readme with
  | none =>
      rw [putReadme, takeReadme]
      split
      · rename_i text found
        exact (apart text found).elim
      · rfl
  | some text =>
      simp only [putReadme, takeReadme, Members.find?_insert_self,
        Members.erase_insert sorted apart]

theorem portable_putReadme
    {outline : Outline}
    (portable : outline.Portable)
    (readme : Option String) :
    (putReadme readme outline).Portable := by
  rcases outline with ⟨symbol, children⟩
  cases readme with
  | none => exact portable
  | some text =>
      rcases Outline.portable_node.mp portable with ⟨here, below⟩
      exact Outline.portable_node.mpr
        ⟨⟨here.comment, here.extra.insert (by decide) text⟩, below⟩

end Concordance.Dump

namespace Concordance

open Json Dump

/-! ### Whole trees -/

/-- Whether a dump can carry every symbol of a tree, and its readme beside the root. -/
structure Tree.Portable (tree : Tree) : Prop where
  symbols : ∀ node ∈ tree.nodes, node.symbol.Portable
  readme : ∀ symbol, tree.symbol? root = some symbol →
    symbol.extra.find? readmeKey = none

theorem Tree.Linked.portable_outlineAt
    {tree : Tree}
    (linked : tree.Linked)
    (portable : ∀ node ∈ tree.nodes, node.symbol.Portable)
    {id : NodeId}
    (inside : id < tree.size) :
    (tree.outlineAt id).Portable := by
  induction id using linked.inductionFromBelow with
  | step id induction =>
      rcases exists_node inside with ⟨node, found⟩
      rw [linked.outlineAt_eq found, Outline.portable_node]
      refine ⟨portable node (Array.mem_of_getElem? found), ?_⟩
      intro below inBelow
      rcases List.mem_map.mp inBelow with ⟨child, inChildren, rfl⟩
      have listed : child ∈ tree.childrenOf id := by
        rw [childrenOf_eq found]
        exact inChildren
      exact induction child listed (linked.forward listed).2

theorem Tree.Portable.outline
    {tree : Tree}
    (portable : tree.Portable)
    (linked : tree.Linked) :
    tree.outline.Portable :=
  linked.portable_outlineAt portable.symbols linked.root_inside

theorem Tree.Portable.readmeApart
    {tree : Tree}
    (portable : tree.Portable)
    (linked : tree.Linked) :
    ReadmeApart tree.readme tree.outline.symbol.extra := by
  rcases exists_node linked.root_inside with ⟨node, found⟩
  have absent : node.symbol.extra.find? readmeKey = none := by
    apply portable.readme
    rw [symbol?, found]
    rfl
  have top : tree.outline.symbol = node.symbol := by
    rw [Tree.outline, linked.outlineAt_eq found]
    rfl
  rw [top]
  cases tree.readme with
  | some text => exact absent
  | none =>
      intro text found
      rw [absent] at found
      cases found

/-- The value that is written for a tree. -/
def Tree.dumpValue (tree : Tree) : Value :=
  outlineValue (putReadme tree.readme tree.outline)

/-- A shallow dump is read if the symbols are portable and the readme can be taken out again. -/
theorem Dump.read_write_of_apart
    {tree : Tree}
    (linked : tree.Linked)
    (portable : tree.outline.Portable)
    (apart : ReadmeApart tree.readme tree.outline.symbol.extra)
    (shallow : tree.dumpValue.nesting ≤ depthLimit) :
    Dump.read (write tree) = .ok tree.renumbered := by
  have written := portable_putReadme portable tree.readme
  have scanned : Document.read (write tree) = (tree.dumpValue.document, none) :=
    Document.read_pretty written.faithful.integral shallow
  have whole : readOutline tree.dumpValue.document =
      .ok (putReadme tree.readme tree.outline) :=
    readOutline_document written
  rw [Dump.read, scanned]
  change (readOutline _ >>= _) = _
  rw [whole]
  change Except.ok (Tree.ofOutline (takeReadme _).1 (takeReadme _).2) = _
  rw [takeReadme_putReadme portable.sorted_extra apart, linked.ofOutline_outline]

theorem Dump.read_write_of_shallow
    {tree : Tree}
    (linked : tree.Linked)
    (portable : tree.Portable)
    (shallow : tree.dumpValue.nesting ≤ depthLimit) :
    Dump.read (write tree) = .ok tree.renumbered :=
  read_write_of_apart linked (portable.outline linked) (portable.readmeApart linked) shallow

/-- A dump that nests too deep is not read. -/
theorem Dump.shallow_of_read_write
    {tree result : Tree}
    (linked : tree.Linked)
    (portable : tree.Portable)
    (read : Dump.read (write tree) = .ok result) :
    tree.dumpValue.nesting ≤ depthLimit := by
  by_contra deep
  have faulty : (Document.read (write tree)).1.Faulty :=
    Document.read_pretty_deep
      (portable_putReadme (portable.outline linked) tree.readme).faithful.integral deep
  simp only [Dump.read, bind_eq_ok_iff] at read
  rcases read with ⟨whole, readWhole, -⟩
  rcases readOutline_eq_ok readWhole with ⟨value, found, -⟩
  exact faulty value found

/--
The dump of a tree is read exactly if it nests at most 127 deep.  What is read
is the tree itself with every node at its place in the walk: the readme and
the symbols are the same, and parents and children are the places of the
parents and children.  So the tree comes back as it was exactly if the walk
counts its positions up.
-/
theorem Dump.read_write
    {tree : Tree}
    (built : tree.Built)
    (portable : tree.Portable) :
    write tree = tree.dumpValue.pretty ∧
      ((∃ result, Dump.read (write tree) = .ok result) ↔
        tree.dumpValue.nesting ≤ 127) ∧
      tree.walk.Perm (List.range tree.size) ∧
      ∀ result, Dump.read (write tree) = .ok result →
        result.readme = tree.readme ∧
        result.size = tree.size ∧
        (∀ id, id < tree.size →
          result.node? (tree.place id) =
            (tree.node? id).map (Node.relabel tree.place)) ∧
        (result = tree ↔ tree.walk = List.range tree.size) := by
  have linked := built.linked
  refine ⟨rfl, ?_, linked.walk_perm, ?_⟩
  · constructor
    · rintro ⟨result, read⟩
      exact shallow_of_read_write linked portable read
    · intro shallow
      exact ⟨tree.renumbered, read_write_of_shallow linked portable shallow⟩
  · intro result read
    have shallow := shallow_of_read_write linked portable read
    rw [read_write_of_shallow linked portable shallow] at read
    cases read
    exact ⟨rfl, linked.size_renumbered,
      fun id inside => linked.node?_renumbered inside,
      linked.renumbered_eq_self_iff⟩

/-- A project whose last symbol was added below its first one. -/
def Tree.lateComer : Tree :=
  let planted := withRoot ⟨"m", 1, some ⟨"", [⟨"since", "", []⟩], []⟩, []⟩
  let first := (planted.addChild 0 ⟨"a", 128, none, []⟩).1
  let second := (first.addChild 0 ⟨"b", 128, none, [("id", .number (.integer 7))]⟩).1
  { (second.addChild 1 ⟨"c", 2048, some ⟨"", [], []⟩, []⟩).1 with readme := some "r" }

theorem Tree.built_lateComer : lateComer.Built := by
  refine .changeReadme (.addChild (.addChild (.addChild (.withRoot _) ?_ _) ?_ _)
    ?_ _) _
  all_goals decide

theorem Json.Members.portable_nil (taken : List String) :
    Members.Portable taken [] where
  canonical := .object Members.sorted_nil (List.forall_mem_nil _)
  integral := .object (List.forall_mem_nil _)
  free := fun _ _ => rfl

theorem Tree.portable_lateComer : lateComer.Portable where
  symbols := by
    have nil := Members.portable_nil
    have since : ∀ tag ∈ [Tag.mk "since" "" []], tag.Portable := by
      rw [List.forall_mem_singleton]
      exact nil tagKeys
    have seven : (Value.number (.integer 7)).Integral := by
      refine .number ⟨?_, ?_⟩ <;> decide
    have numbered : Members.Portable symbolKeys [("id", .number (.integer 7))] := by
      refine ⟨.object (by decide) ?_, .object ?_, by decide⟩
      · exact List.forall_mem_singleton.mpr (.number _)
      · exact List.forall_mem_singleton.mpr seven
    have nodes : lateComer.nodes =
        [⟨⟨"m", 1, some ⟨"", [⟨"since", "", []⟩], []⟩, []⟩, none, [1, 2]⟩,
          ⟨⟨"a", 128, none, []⟩, some 0, [3]⟩,
          ⟨⟨"b", 128, none, [("id", .number (.integer 7))]⟩, some 0, []⟩,
          ⟨⟨"c", 2048, some ⟨"", [], []⟩, []⟩, some 1, []⟩].toArray := by
      decide
    rw [nodes]
    simp only [List.mem_toArray, List.forall_mem_cons]
    refine ⟨⟨?_, nil _⟩, ⟨nofun, nil _⟩, ⟨nofun, numbered⟩, ⟨?_, nil _⟩,
      List.forall_mem_nil _⟩
    · rintro _ ⟨⟩
      exact ⟨since, nil _⟩
    · rintro _ ⟨⟩
      exact ⟨List.forall_mem_nil _, nil _⟩
  readme := by
    intro symbol found
    cases found
    rfl

/-- The late comer comes back, at the place where the walk meets it. -/
theorem Dump.read_write_lateComer :
    ∃ result, Dump.read (write Tree.lateComer) = .ok result ∧
      result ≠ Tree.lateComer ∧
      result.node? 2 = some ⟨⟨"c", 2048, some ⟨"", [], []⟩, []⟩, some 1, []⟩ := by
  rcases read_write Tree.built_lateComer Tree.portable_lateComer with
    ⟨-, shallow, -, same⟩
  rcases shallow.mpr (by decide +kernel) with ⟨result, read⟩
  rcases same result read with ⟨-, -, nodes, unchanged⟩
  refine ⟨result, read, ?_, ?_⟩
  · intro back
    exact absurd (unchanged.mp back) (by decide +kernel)
  · exact (nodes 3 (by decide)).trans (by decide +kernel)

end Concordance
