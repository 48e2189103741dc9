import Concordance.Proofs.Dump.Fidelity
import Concordance.Proofs.Dump.RoundTrip

/-!
# Rewording a dump

A tree that has been read from a dump can have its comments and its readme
reworded and be written again: other texts, and no tags where there were some,
make no symbol less portable and nest no deeper (`Outline.Rewords`).  The links
are untouched, so the nodes are still numbered in walking order, and the dump
of the reworded tree is read as that very tree (`Dump.read_write_of_rewords`).
-/

namespace Concordance

open Json Dump

/-! ### Rewording -/

/-- Whether a comment has the tags of another one or none, and the same extra members. -/
structure Comment.Rewords (reworded comment : Comment) : Prop where
  tags : reworded.tags = comment.tags ∨ reworded.tags = []
  extra : reworded.extra = comment.extra

/-- Whether a symbol differs from another one in the wording of its comment only. -/
structure Symbol.Rewords (reworded symbol : Symbol) : Prop where
  name : reworded.name = symbol.name
  kindCode : reworded.kindCode = symbol.kindCode
  comment : Option.Rel Comment.Rewords reworded.comment symbol.comment
  extra : reworded.extra = symbol.extra

/-- Whether an outline differs from another one in the wording of comments only. -/
inductive Outline.Rewords : Outline → Outline → Prop where
  | node {reworded symbol : Symbol} {rewordedChildren children : List Outline}
      (here : reworded.Rewords symbol)
      (below : List.Forall₂ Rewords rewordedChildren children) :
      Rewords (.node reworded rewordedChildren) (.node symbol children)

/-- Whether a tree differs from another one in the wording of comments and the readme only. -/
structure Tree.Rewords (reworded tree : Tree) : Prop where
  links : reworded.SameLinks tree
  symbols : ∀ id, Option.Rel Symbol.Rewords (reworded.symbol? id) (tree.symbol? id)
  readme : reworded.readme.isSome = tree.readme.isSome

theorem Comment.Rewords.refl (comment : Comment) : comment.Rewords comment :=
  ⟨.inl rfl, rfl⟩

theorem Symbol.Rewords.refl (symbol : Symbol) : symbol.Rewords symbol where
  name := rfl
  kindCode := rfl
  comment := by
    cases symbol.comment with
    | none => exact .none
    | some comment => exact .some (.refl comment)
  extra := rfl

/-- The outlines of a reworded tree are reworded. -/
theorem Tree.Rewords.outlineAt
    {reworded tree : Tree}
    (rewords : reworded.Rewords tree)
    (linked : tree.Linked)
    {id : NodeId}
    (inside : id < tree.size) :
    (reworded.outlineAt id).Rewords (tree.outlineAt id) := by
  have linkedReworded := rewords.links.linked linked
  induction id using linked.inductionFromBelow with
  | step id induction =>
      rcases exists_node inside with ⟨node, found⟩
      rcases exists_node (rewords.links.size ▸ inside) with ⟨changed, foundChanged⟩
      have sameChildren := rewords.links.children id
      rw [childrenOf_eq found, childrenOf_eq foundChanged] at sameChildren
      rw [linked.outlineAt_eq found, linkedReworded.outlineAt_eq foundChanged, sameChildren]
      constructor
      · have related := rewords.symbols id
        rw [symbol?, symbol?, found, foundChanged] at related
        cases related with
        | some here => exact here
      · rw [List.forall₂_map_left_iff, List.forall₂_map_right_iff, List.forall₂_same]
        intro child inChildren
        have listed : child ∈ tree.childrenOf id := by
          rw [childrenOf_eq found]
          exact inChildren
        exact induction child listed (linked.forward listed).2

/-! ### Reworded symbols stay portable -/

theorem Comment.Rewords.portable
    {reworded comment : Comment}
    (rewords : reworded.Rewords comment)
    (portable : comment.Portable) :
    reworded.Portable where
  tags := by
    rcases rewords.tags with same | none
    · rw [same]
      exact portable.tags
    · rw [none]
      exact nofun
  extra := rewords.extra ▸ portable.extra

theorem Symbol.Rewords.portable
    {reworded symbol : Symbol}
    (rewords : reworded.Rewords symbol)
    (portable : symbol.Portable) :
    reworded.Portable where
  comment := by
    intro inner given
    have related := rewords.comment
    rw [Option.mem_def.mp given] at related
    generalize before : symbol.comment = comment at related
    cases related with
    | some here => exact here.portable (portable.comment _ before)
  extra := rewords.extra ▸ portable.extra

theorem Outline.Rewords.portable
    {reworded outline : Outline}
    (rewords : reworded.Rewords outline)
    (portable : outline.Portable) :
    reworded.Portable := by
  induction outline generalizing reworded with
  | node symbol children induction =>
      rcases Outline.portable_node.mp portable with ⟨portableHere, portableBelow⟩
      cases rewords with
      | node here below =>
          refine Outline.portable_node.mpr ⟨here.portable portableHere, ?_⟩
          intro child inChildren
          rcases exists_mem_of_forall₂ below child inChildren with ⟨old, inOld, rewordsChild⟩
          exact induction old inOld rewordsChild (portableBelow old inOld)

/-! ### Reworded symbols nest no deeper -/

namespace Dump

theorem nesting_commentValue_le_iff {comment : Comment} {limit : Nat} :
    (commentValue comment).nesting ≤ limit + 1 ↔
      (comment.tags ≠ [] → (Value.array (comment.tags.map tagValue)).nesting ≤ limit) ∧
        ∀ member ∈ comment.extra, member.2.nesting ≤ limit := by
  rw [commentValue_eq, Value.nesting_object_le_iff, List.forall_mem_append,
    List.forall_mem_append, textMember, tagsMember]
  have textFits : ∀ member ∈ (if comment.text.isEmpty then [] else
      [("text", Value.string comment.text)] : Members), member.2.nesting ≤ limit := by
    split
    · exact List.forall_mem_nil _
    · exact List.forall_mem_singleton.mpr (Nat.zero_le limit)
  rw [and_iff_right textFits]
  cases comment.tags <;> simp

theorem nesting_outlineValue_le_iff
    {symbol : Symbol}
    {children : List Outline}
    {limit : Nat} :
    (outlineValue (.node symbol children)).nesting ≤ limit + 1 ↔
      (∀ comment ∈ symbol.comment, (commentValue comment).nesting ≤ limit) ∧
        (children ≠ [] → (Value.array (children.map outlineValue)).nesting ≤ limit) ∧
        ∀ member ∈ symbol.extra, member.2.nesting ≤ limit := by
  rw [outlineValue_eq, Value.nesting_object_le_iff, interpretedMembers, List.forall_mem_append,
    List.forall_mem_append, List.forall_mem_append, childrenMember_eq]
  have leadingFits : ∀ member ∈ ([("name", .string symbol.name),
      ("kind", .number (.integer symbol.kindCode.toNat))] : Members),
      member.2.nesting ≤ limit := by
    simp [Value.nesting]
  rw [and_iff_right leadingFits, and_assoc]
  cases symbol.comment <;> cases children <;> simp [commentMember]

end Dump

theorem Comment.Rewords.nesting_le
    {reworded comment : Comment}
    (rewords : reworded.Rewords comment)
    {limit : Nat}
    (within : (commentValue comment).nesting ≤ limit) :
    (commentValue reworded).nesting ≤ limit := by
  cases limit with
  | zero => exact (Nat.not_succ_le_zero _ within).elim
  | succ limit =>
      rw [nesting_commentValue_le_iff] at within ⊢
      rw [rewords.extra]
      refine ⟨?_, within.2⟩
      rcases rewords.tags with same | none
      · rw [same]
        exact within.1
      · rw [none]
        exact fun some => (some rfl).elim

theorem Outline.Rewords.nesting_le
    {reworded outline : Outline}
    (rewords : reworded.Rewords outline)
    {limit : Nat}
    (within : (outlineValue outline).nesting ≤ limit) :
    (outlineValue reworded).nesting ≤ limit := by
  induction outline generalizing reworded limit with
  | node symbol children induction =>
      cases rewords with
      | @node rewordedSymbol _ rewordedChildren _ here below =>
          cases limit with
          | zero => exact (Nat.not_succ_le_zero _ within).elim
          | succ limit =>
              rw [nesting_outlineValue_le_iff] at within ⊢
              rcases within with ⟨comment, array, extra⟩
              refine ⟨?_, ?_, here.extra ▸ extra⟩
              · intro inner given
                have related := here.comment
                rw [Option.mem_def.mp given] at related
                generalize before : symbol.comment = old at related
                cases related with
                | some rewordsComment => exact rewordsComment.nesting_le (comment _ before)
              · intro notEmpty
                refine Value.nesting_array_le_of_forall ?_ (array ?_)
                · intro inner each item inItems
                  rcases List.mem_map.mp inItems with ⟨child, inChildren, rfl⟩
                  rcases exists_mem_of_forall₂ below child inChildren with
                    ⟨old, inOld, rewordsChild⟩
                  exact induction old inOld rewordsChild
                    (each _ (List.mem_map_of_mem inOld))
                · rintro rfl
                  exact notEmpty (List.forall₂_nil_right_iff.mp below)

/-! ### The readme -/

theorem Json.Members.Portable.erase
    {taken : List String}
    {members : Members}
    (portable : members.Portable taken)
    (erased : String) :
    (members.erase erased).Portable taken := by
  have kept {member : String × Value} (inErased : member ∈ members.erase erased) :
      member ∈ members := by
    rw [Members.erase_eq_without] at inErased
    exact Members.mem_of_mem_without inErased
  refine ⟨.object (portable.sorted.erase erased) ?_, .object ?_, ?_⟩
  · exact fun member inErased => portable.canonical.member member (kept inErased)
  · exact fun member inErased => portable.integral.member member (kept inErased)
  · intro key inTaken
    rw [Members.find?_erase]
    split
    · rfl
    · exact portable.free key inTaken

namespace Dump

theorem portable_takeReadme
    {outline : Outline}
    (portable : outline.Portable) :
    (takeReadme outline).1.Portable := by
  rcases outline with ⟨symbol, children⟩
  rcases Outline.portable_node.mp portable with ⟨here, below⟩
  rw [takeReadme]
  split
  · exact Outline.portable_node.mpr ⟨⟨here.comment, here.extra.erase readmeKey⟩, below⟩
  · exact portable

theorem readmeApart_takeReadme (outline : Outline) :
    ReadmeApart (takeReadme outline).2 (takeReadme outline).1.symbol.extra := by
  rcases outline with ⟨symbol, children⟩
  rw [takeReadme]
  split
  · change Members.find? (symbol.extra.erase readmeKey) readmeKey = none
    rw [Members.find?_erase, if_pos rfl]
  · rename_i noText
    exact noText

/-- Extra members can be left out, and texts put among them, without nesting deeper. -/
theorem nesting_outlineValue_le_of_extra
    {symbol : Symbol}
    {children : List Outline}
    {extra : Members}
    (shallow : ∀ member ∈ extra, member ∈ symbol.extra ∨ member.2.nesting = 0)
    {limit : Nat}
    (within : (outlineValue (.node symbol children)).nesting ≤ limit) :
    (outlineValue (.node { symbol with extra := extra } children)).nesting ≤ limit := by
  cases limit with
  | zero => exact (Nat.not_succ_le_zero _ within).elim
  | succ limit =>
      rw [nesting_outlineValue_le_iff] at within ⊢
      refine ⟨within.1, within.2.1, ?_⟩
      intro member inExtra
      rcases shallow member inExtra with old | isZero
      · exact within.2.2 member old
      · exact isZero ▸ Nat.zero_le limit

theorem nesting_takeReadme_le
    {outline : Outline}
    {limit : Nat}
    (within : (outlineValue outline).nesting ≤ limit) :
    (outlineValue (takeReadme outline).1).nesting ≤ limit := by
  rcases outline with ⟨symbol, children⟩
  rw [takeReadme]
  split
  · refine nesting_outlineValue_le_of_extra (fun member inErased => .inl ?_) within
    rw [Members.erase_eq_without] at inErased
    exact Members.mem_of_mem_without inErased
  · exact within

theorem nesting_putReadme_le
    {outline : Outline}
    {limit : Nat}
    (within : (outlineValue outline).nesting ≤ limit)
    (readme : Option String) :
    (outlineValue (putReadme readme outline)).nesting ≤ limit := by
  rcases outline with ⟨symbol, children⟩
  cases readme with
  | none => exact within
  | some text =>
      refine nesting_outlineValue_le_of_extra (fun member inExtra => ?_) within
      rcases Members.mem_insert inExtra with same | old
      · exact .inr (same ▸ rfl)
      · exact .inl old

end Dump

/-! ### Reworded trees -/

theorem Outline.Rewords.extra_eq
    {reworded outline : Outline}
    (rewords : reworded.Rewords outline) :
    reworded.symbol.extra = outline.symbol.extra := by
  cases rewords with
  | node here below => exact here.extra

theorem Dump.ReadmeApart.congr
    {reworded readme : Option String}
    {extra : Members}
    (same : reworded.isSome = readme.isSome)
    (apart : ReadmeApart readme extra) :
    ReadmeApart reworded extra := by
  cases reworded <;> cases readme
  · exact apart
  · cases same
  · cases same
  · exact apart

/-- A tree that was read from whole numbers and reworded is read as it was written. -/
theorem Dump.read_write_of_rewords
    {text : String}
    {tree reworded : Tree}
    (read : Dump.read text = .ok tree)
    {value : Value}
    (plain : Value.read text = .ok value)
    (integral : value.Integral)
    (rewords : reworded.Rewords tree) :
    Dump.read (write reworded) = .ok reworded := by
  have linked := (built_of_read read).linked
  have linkedReworded := rewords.links.linked linked
  rcases exists_readFrom_of_read read with
    ⟨found, whole, plainFound, shallow, canonical, readFrom, isTree⟩
  cases plain.symm.trans plainFound
  have portableWhole := readFrom.portable canonical integral
  have shallowWhole := nesting_outlineValue_le readFrom canonical portableWhole shallow
  have outlines := rewords.outlineAt linked linked.root_inside
  have isOutline : tree.outline = (takeReadme whole).1 := by
    rw [isTree, Tree.outline_ofOutline]
  have isReadme : tree.readme = (takeReadme whole).2 := by
    rw [isTree, Tree.readme_ofOutline]
  change reworded.outline.Rewords tree.outline at outlines
  rw [isOutline] at outlines
  have apart : ReadmeApart reworded.readme reworded.outline.symbol.extra := by
    rw [outlines.extra_eq]
    refine (readmeApart_takeReadme whole).congr ?_
    rw [rewords.readme, isReadme]
  have back := read_write_of_apart linkedReworded
    (outlines.portable (portable_takeReadme portableWhole)) apart
    (nesting_putReadme_le (outlines.nesting_le (nesting_takeReadme_le shallowWhole)) _)
  have inOrder : reworded.walk = List.range reworded.size := by
    rw [rewords.links.walk_eq, rewords.links.size, isTree]
    exact Tree.walk_ofOutline _ _
  rw [back, linkedReworded.renumbered_eq_self_iff.mpr inOrder]

end Concordance
