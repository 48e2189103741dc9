import Concordance.Proofs.Config.Effective
import Mathlib.Data.List.Triplewise

/-!
# Merging in any grouping

Merging is not associative: what stands between two objects and is no object
itself hides the outer one if it is merged with it first, and is hidden by the
inner one otherwise.  `Compatible` excludes this, for objects and for arrays,
at the root and below every key that all three values have; then it makes no
difference which two are merged first (`Compatible.deepMerge_assoc`).

A merged pair fits in between the values around it as the two did
(`Compatible.merged_outer`, `Compatible.merged_middle`), so a chain of which
every three layers are compatible stays one while neighbours are merged, and
every grouping of its layers gives the value that merging from the outermost
to the innermost gives.
-/

namespace Concordance.Json

/-! ### What kind of value a merge gives -/

/-- Whether a value is an object. -/
def Value.IsObject (value : Value) : Prop :=
  ∃ members, value = .object members

/-- Whether a value is an array. -/
def Value.IsArray (value : Value) : Prop :=
  ∃ items, value = .array items

theorem Value.isObject_or_isArray_or_replaces (value : Value) :
    value.IsObject ∨ value.IsArray ∨ value.Replaces := by
  cases value with
  | object members => exact .inl ⟨members, rfl⟩
  | array items => exact .inr (.inl ⟨items, rfl⟩)
  | null | bool | number | string => exact .inr (.inr ⟨nofun, nofun⟩)

section Kind

variable {base overlay : Value}

theorem deepMerge_object_of_not_isObject
    (other : ¬ base.IsObject)
    (members : Members) :
    deepMerge base (.object members) = .object members := by
  cases base with
  | object baseMembers => exact (other ⟨baseMembers, rfl⟩).elim
  | null | bool | number | string | array => rfl

theorem deepMerge_array_of_not_isArray
    (other : ¬ base.IsArray)
    (items : List Value) :
    deepMerge base (.array items) = .array items := by
  cases base with
  | array baseItems => exact (other ⟨baseItems, rfl⟩).elim
  | null | bool | number | string | object => rfl

/-- A merge gives an object exactly if the overlay is one. -/
theorem isObject_deepMerge : (deepMerge base overlay).IsObject ↔ overlay.IsObject := by
  rcases overlay.isObject_or_isArray_or_replaces with ⟨members, rfl⟩ | ⟨items, rfl⟩ | replaces
  · refine iff_of_true ?_ ⟨members, rfl⟩
    cases base <;> exact ⟨_, rfl⟩
  · cases base <;> simp [Value.IsObject, deepMerge]
  · rw [deepMerge_of_replaces replaces]

/-- A merge gives an array exactly if the overlay is one. -/
theorem isArray_deepMerge : (deepMerge base overlay).IsArray ↔ overlay.IsArray := by
  rcases overlay.isObject_or_isArray_or_replaces with ⟨members, rfl⟩ | ⟨items, rfl⟩ | replaces
  · cases base <;> simp [Value.IsArray, deepMerge]
  · refine iff_of_true ?_ ⟨items, rfl⟩
    cases base <;> exact ⟨_, rfl⟩
  · rw [deepMerge_of_replaces replaces]

end Kind

theorem Value.isObject_of_at?
    {value inner : Value}
    {key : String}
    (found : value.at? [key] = some inner) :
    value.IsObject := by
  cases value with
  | object members => exact ⟨members, rfl⟩
  | null | bool | number | string | array => cases found

theorem Value.Canonical.at?_key
    {value inner : Value}
    (canonical : value.Canonical)
    {key : String}
    (found : value.at? [key] = some inner) :
    inner.Canonical := by
  rcases isObject_of_at? found with ⟨members, rfl⟩
  rw [Value.at?_key] at found
  exact canonical.member _ (Members.mem_of_find?_eq_some found)

/-- What merged objects have under a key comes from one of the two, or from both. -/
theorem find?_mergeMembers_cases
    {base overlay : Members}
    (distinct : overlay.Distinct)
    {key : String}
    {inner : Value}
    (found : Members.find? (mergeMembers base overlay) key = some inner) :
    base.find? key = some inner ∨ overlay.find? key = some inner ∨
      ∃ below above, base.find? key = some below ∧ overlay.find? key = some above ∧
        inner = deepMerge below above := by
  rw [find?_mergeMembers distinct] at found
  cases inBase : base.find? key with
  | none =>
      rw [inBase, Option.merge_none_left] at found
      exact .inr (.inl found)
  | some below =>
      cases inOverlay : overlay.find? key with
      | none =>
          rw [inBase, inOverlay, Option.merge_none_right] at found
          exact .inl found
      | some above =>
          rw [inBase, inOverlay] at found
          exact .inr (.inr ⟨below, above, rfl, rfl, (Option.some.inj found).symm⟩)

theorem at?_key_deepMerge_cases
    {base overlay : Value}
    (canonical : overlay.Canonical)
    {key : String}
    {inner : Value}
    (found : (deepMerge base overlay).at? [key] = some inner) :
    base.at? [key] = some inner ∨ overlay.at? [key] = some inner ∨
      ∃ below above, base.at? [key] = some below ∧ overlay.at? [key] = some above ∧
        inner = deepMerge below above := by
  rcases isObject_deepMerge.mp (Value.isObject_of_at? found) with ⟨members, rfl⟩
  by_cases isObject : base.IsObject
  · rcases isObject with ⟨baseMembers, rfl⟩
    rw [deepMerge] at found
    simp only [Value.at?_key] at found ⊢
    exact find?_mergeMembers_cases canonical.members_sorted.distinct found
  · rw [deepMerge_object_of_not_isObject isObject] at found
    exact .inr (.inl found)

theorem Value.Canonical.deepMerge
    {base overlay : Value}
    (canonicalBase : base.Canonical)
    (canonical : overlay.Canonical) :
    (deepMerge base overlay).Canonical := by
  induction canonical generalizing base with
  | null => cases base <;> exact .null
  | bool value => cases base <;> exact .bool value
  | number value => cases base <;> exact .number value
  | string value => cases base <;> exact .string value
  | @array items each _ =>
      by_cases isArray : base.IsArray
      · rcases isArray with ⟨baseItems, rfl⟩
        rw [Json.deepMerge]
        refine .array fun item member => ?_
        exact (List.mem_append.mp member).elim (canonicalBase.item item) (each item)
      · rw [deepMerge_array_of_not_isArray isArray]
        exact .array each
  | @object members sorted each induction =>
      by_cases isObject : base.IsObject
      · rcases isObject with ⟨baseMembers, rfl⟩
        rw [Json.deepMerge]
        have sortedMerge := sorted_mergeMembers canonicalBase.members_sorted members
        refine .object sortedMerge ?_
        rintro ⟨key, value⟩ inMerge
        rcases find?_mergeMembers_cases sorted.distinct (sortedMerge.find?_eq_some inMerge) with
          inBase | inOverlay | ⟨below, above, inBase, inOverlay, rfl⟩
        · exact canonicalBase.member _ (Members.mem_of_find?_eq_some inBase)
        · exact each _ (Members.mem_of_find?_eq_some inOverlay)
        · exact induction _ (Members.mem_of_find?_eq_some inOverlay)
            (canonicalBase.member _ (Members.mem_of_find?_eq_some inBase))
      · rw [deepMerge_object_of_not_isObject isObject]
        exact .object sorted each

/-- Objects may be merged in either grouping if the values of the keys that all have may. -/
theorem mergeMembers_assoc
    {outer middle inner : Members}
    (sortedOuter : outer.Sorted)
    (sortedMiddle : middle.Sorted)
    (sorted : inner.Sorted)
    (below : ∀ key first second third,
      outer.find? key = some first → middle.find? key = some second →
        inner.find? key = some third →
          deepMerge (deepMerge first second) third =
            deepMerge first (deepMerge second third)) :
    mergeMembers (mergeMembers outer middle) inner =
      mergeMembers outer (mergeMembers middle inner) := by
  have sortedMerge := sorted_mergeMembers sortedMiddle inner
  refine Members.eq_of_find?_eq
    (sorted_mergeMembers (sorted_mergeMembers sortedOuter middle) inner)
    (sorted_mergeMembers sortedOuter (mergeMembers middle inner)) fun key => ?_
  rw [find?_mergeMembers sorted.distinct, find?_mergeMembers sortedMiddle.distinct,
    find?_mergeMembers sortedMerge.distinct, find?_mergeMembers sorted.distinct]
  cases inOuter : Members.find? outer key with
  | none => simp only [Option.merge_none_left]
  | some first =>
      cases inMiddle : Members.find? middle key with
      | none => simp only [Option.merge_none_left, Option.merge_none_right]
      | some second =>
          cases inInner : Members.find? inner key with
          | none => simp only [Option.merge_none_right]
          | some third =>
              exact congrArg some (below key first second third inOuter inMiddle inInner)

/-! ### Compatible values -/

/--
Whether three values, outermost first, may be merged in either grouping: nothing
but an object stands between two objects and nothing but an array between two
arrays, and the values below every key that all three have are compatible too.
-/
inductive Compatible : (outer middle inner : Value) → Prop where
  | intro {outer middle inner : Value}
      (objects : outer.IsObject → inner.IsObject → middle.IsObject)
      (arrays : outer.IsArray → inner.IsArray → middle.IsArray)
      (below : ∀ key first second third,
        outer.at? [key] = some first → middle.at? [key] = some second →
          inner.at? [key] = some third → Compatible first second third) :
      Compatible outer middle inner

namespace Compatible

section

variable {outer middle inner : Value}

theorem objects (compatible : Compatible outer middle inner) :
    outer.IsObject → inner.IsObject → middle.IsObject := by
  cases compatible with
  | intro objects _ _ => exact objects

theorem arrays (compatible : Compatible outer middle inner) :
    outer.IsArray → inner.IsArray → middle.IsArray := by
  cases compatible with
  | intro _ arrays _ => exact arrays

theorem inside
    (compatible : Compatible outer middle inner)
    {key : String}
    {first second third : Value}
    (inOuter : outer.at? [key] = some first)
    (inMiddle : middle.at? [key] = some second)
    (inInner : inner.at? [key] = some third) :
    Compatible first second third := by
  cases compatible with
  | intro _ _ below => exact below key first second third inOuter inMiddle inInner

/-- Of compatible values it makes no difference which two are merged first. -/
theorem deepMerge_assoc
    (compatible : Compatible outer middle inner)
    (canonicalOuter : outer.Canonical)
    (canonicalMiddle : middle.Canonical)
    (canonical : inner.Canonical) :
    deepMerge (deepMerge outer middle) inner = deepMerge outer (deepMerge middle inner) := by
  induction compatible with
  | @intro outer middle inner objects arrays below induction =>
      rcases inner.isObject_or_isArray_or_replaces with ⟨members, rfl⟩ | ⟨items, rfl⟩ | replaces
      · by_cases isObject : middle.IsObject
        · rcases isObject with ⟨middleMembers, rfl⟩
          by_cases isObject : outer.IsObject
          · rcases isObject with ⟨outerMembers, rfl⟩
            simp only [deepMerge]
            refine congrArg Value.object (mergeMembers_assoc canonicalOuter.members_sorted
              canonicalMiddle.members_sorted canonical.members_sorted ?_)
            intro key first second third inOuter inMiddle inInner
            rw [← Value.at?_key] at inOuter inMiddle inInner
            exact induction key first second third inOuter inMiddle inInner
              (canonicalOuter.at?_key inOuter) (canonicalMiddle.at?_key inMiddle)
              (canonical.at?_key inInner)
          · rw [deepMerge_object_of_not_isObject isObject, deepMerge,
              deepMerge_object_of_not_isObject isObject]
        · have outerOther : ¬ outer.IsObject := fun isOuter =>
            isObject (objects isOuter ⟨members, rfl⟩)
          rw [deepMerge_object_of_not_isObject (mt isObject_deepMerge.mp isObject),
            deepMerge_object_of_not_isObject isObject,
            deepMerge_object_of_not_isObject outerOther]
      · by_cases isArray : middle.IsArray
        · rcases isArray with ⟨middleItems, rfl⟩
          by_cases isArray : outer.IsArray
          · rcases isArray with ⟨outerItems, rfl⟩
            simp only [deepMerge, List.append_assoc]
          · rw [deepMerge_array_of_not_isArray isArray, deepMerge,
              deepMerge_array_of_not_isArray isArray]
        · have outerOther : ¬ outer.IsArray := fun isOuter =>
            isArray (arrays isOuter ⟨items, rfl⟩)
          rw [deepMerge_array_of_not_isArray (mt isArray_deepMerge.mp isArray),
            deepMerge_array_of_not_isArray isArray,
            deepMerge_array_of_not_isArray outerOther]
      · rw [deepMerge_of_replaces replaces, deepMerge_of_replaces replaces,
          deepMerge_of_replaces replaces]

end

/-! ### Neighbours merged -/

/-- Two values merged are compatible with what follows, if each of them is. -/
theorem merged_outer
    {first second middle inner : Value}
    (firstApart : Compatible first middle inner)
    (secondApart : Compatible second middle inner)
    (untilMiddle : Compatible first second middle)
    (untilInner : Compatible first second inner)
    (canonical : second.Canonical) :
    Compatible (deepMerge first second) middle inner := by
  induction firstApart generalizing second with
  | @intro first middle inner objects arrays below induction =>
      refine .intro ?_ ?_ ?_
      · rw [isObject_deepMerge]
        exact secondApart.objects
      · rw [isArray_deepMerge]
        exact secondApart.arrays
      · intro key outermost next innermost inMerge inMiddle inInner
        rcases at?_key_deepMerge_cases canonical inMerge with
          inFirst | inSecond | ⟨lower, upper, inFirst, inSecond, rfl⟩
        · exact below key _ _ _ inFirst inMiddle inInner
        · exact secondApart.inside inSecond inMiddle inInner
        · exact induction key _ _ _ inFirst inMiddle inInner
            (secondApart.inside inSecond inMiddle inInner)
            (untilMiddle.inside inFirst inSecond inMiddle)
            (untilInner.inside inFirst inSecond inInner) (canonical.at?_key inSecond)

/-- Two values merged are compatible with what is around them, if each of them is. -/
theorem merged_middle
    {outer first second inner : Value}
    (firstBetween : Compatible outer first inner)
    (secondBetween : Compatible outer second inner)
    (fromOuter : Compatible outer first second)
    (untilInner : Compatible first second inner)
    (canonical : second.Canonical) :
    Compatible outer (deepMerge first second) inner := by
  induction firstBetween generalizing second with
  | @intro outer first inner objects arrays below induction =>
      refine .intro ?_ ?_ ?_
      · rw [isObject_deepMerge]
        exact secondBetween.objects
      · rw [isArray_deepMerge]
        exact secondBetween.arrays
      · intro key outermost next innermost inOuter inMerge inInner
        rcases at?_key_deepMerge_cases canonical inMerge with
          inFirst | inSecond | ⟨lower, upper, inFirst, inSecond, rfl⟩
        · exact below key _ _ _ inOuter inFirst inInner
        · exact secondBetween.inside inOuter inSecond inInner
        · exact induction key _ _ _ inOuter inFirst inInner
            (secondBetween.inside inOuter inSecond inInner)
            (fromOuter.inside inOuter inFirst inSecond)
            (untilInner.inside inFirst inSecond inInner) (canonical.at?_key inSecond)

end Compatible

/-! ### Chains -/

/-- Whether layers, outermost first, may be merged in any grouping. -/
structure Chain (layers : List Value) : Prop where
  canonical : ∀ layer ∈ layers, layer.Canonical
  compatible : layers.Triplewise Compatible

namespace Chain

variable {outer first second : Value} {layers : List Value}

/-- The two outermost layers of a chain may be merged. -/
theorem merge_outermost (chain : Chain (first :: second :: layers)) :
    Chain (deepMerge first second :: layers) := by
  rcases chain with ⟨canonical, compatible⟩
  simp only [List.forall_mem_cons] at canonical
  simp only [List.triplewise_cons, List.pairwise_cons] at compatible
  rcases canonical with ⟨canonicalFirst, canonicalSecond, canonicalOthers⟩
  rcases compatible with ⟨⟨untilOther, firstApart⟩, secondApart, others⟩
  refine ⟨List.forall_mem_cons.mpr ⟨canonicalFirst.deepMerge canonicalSecond, canonicalOthers⟩,
    List.triplewise_cons.mpr ⟨?_, others⟩⟩
  refine (firstApart.and secondApart).imp_of_mem ?_
  rintro middle inner inMiddle inInner ⟨apart, nextApart⟩
  exact apart.merged_outer nextApart (untilOther middle inMiddle) (untilOther inner inInner)
    canonicalSecond

/-- The two layers behind the outermost one may be merged. -/
theorem merge_behind (chain : Chain (outer :: first :: second :: layers)) :
    Chain (outer :: deepMerge first second :: layers) := by
  have inner : Chain (first :: second :: layers) :=
    ⟨(List.forall_mem_cons.mp chain.canonical).2, (List.triplewise_cons.mp chain.compatible).2⟩
  rcases inner.merge_outermost with ⟨canonicalInner, compatibleInner⟩
  rcases chain with ⟨canonical, compatible⟩
  simp only [List.forall_mem_cons] at canonical
  simp only [List.triplewise_cons, List.pairwise_cons, List.forall_mem_cons] at compatible
  rcases canonical with ⟨canonicalOuter, -, canonicalSecond, -⟩
  rcases compatible with
    ⟨⟨⟨untilSecond, firstBetween⟩, secondBetween, others⟩, ⟨fromFirst, -⟩, -⟩
  refine ⟨List.forall_mem_cons.mpr ⟨canonicalOuter, canonicalInner⟩,
    List.triplewise_cons.mpr ⟨List.pairwise_cons.mpr ⟨?_, others⟩, compatibleInner⟩⟩
  intro last inLayers
  exact (firstBetween last inLayers).merged_middle (secondBetween last inLayers) untilSecond
    (fromFirst last inLayers) canonicalSecond

/-- Of a chain the outermost layer may be merged last. -/
theorem foldl_deepMerge_eq (chain : Chain (outer :: first :: layers)) :
    (first :: layers).foldl deepMerge outer = deepMerge outer (layers.foldl deepMerge first) := by
  induction layers generalizing first with
  | nil => rfl
  | cons second layers induction =>
      rw [List.foldl_cons, List.foldl_cons, List.foldl_cons, ← induction chain.merge_behind,
        List.foldl_cons]
      rcases chain with ⟨canonical, compatible⟩
      simp only [List.forall_mem_cons] at canonical
      simp only [List.triplewise_cons, List.pairwise_cons, List.forall_mem_cons] at compatible
      rw [compatible.1.1.1.deepMerge_assoc canonical.1 canonical.2.1 canonical.2.2.1]

/-- The outer layers of a chain may be merged to one. -/
theorem merge_outer
    {inner : List Value}
    (chain : Chain (first :: layers ++ inner)) :
    Chain (layers.foldl deepMerge first :: inner) := by
  induction layers generalizing first with
  | nil => exact chain
  | cons second layers induction => exact induction chain.merge_outermost

end Chain

/-! ### Groupings -/

/-- Layers with the order in which they are merged: neighbours first, by twos. -/
inductive Grouping where
  | layer (value : Value)
  | both (outer inner : Grouping)

namespace Grouping

/-- The layers of a grouping, outermost first. -/
def layers : Grouping → List Value
  | layer value => [value]
  | both outer inner => outer.layers ++ inner.layers

/-- The value that merging in the order of the grouping gives. -/
def value : Grouping → Value
  | layer value => value
  | both outer inner => deepMerge outer.value inner.value

theorem exists_layers_eq_cons (grouping : Grouping) :
    ∃ first others, grouping.layers = first :: others := by
  induction grouping with
  | layer value => exact ⟨value, [], rfl⟩
  | both outer inner outerInduction _ =>
      rcases outerInduction with ⟨first, others, isLayers⟩
      exact ⟨first, others ++ inner.layers, by rw [layers, isLayers, List.cons_append]⟩

/-- In whatever order the layers of a chain are merged, they give the same value. -/
theorem mergeAll_layers
    (grouping : Grouping)
    (chain : Chain grouping.layers) :
    mergeAll grouping.layers = some grouping.value := by
  induction grouping with
  | layer value => rfl
  | both outer inner outerInduction innerInduction =>
      rcases outer.exists_layers_eq_cons with ⟨outermost, before, isOuter⟩
      rcases inner.exists_layers_eq_cons with ⟨next, behind, isInner⟩
      rw [layers, isOuter, isInner] at chain ⊢
      have outerChain : Chain (outermost :: before) :=
        ⟨fun layer inOuter => chain.canonical layer (List.mem_append_left _ inOuter),
          (List.triplewise_append.mp chain.compatible).1⟩
      have innerChain : Chain (next :: behind) :=
        ⟨fun layer inInner => chain.canonical layer (List.mem_append_right _ inInner),
          (List.triplewise_append.mp chain.compatible).2.1⟩
      have outerValue := outerInduction (isOuter ▸ outerChain)
      have innerValue := innerInduction (isInner ▸ innerChain)
      rw [isOuter, mergeAll] at outerValue
      rw [isInner, mergeAll] at innerValue
      rw [List.cons_append, mergeAll, List.foldl_append, chain.merge_outer.foldl_deepMerge_eq,
        Option.some.inj outerValue, Option.some.inj innerValue, value]

end Grouping

/--
Compatible values may be merged in either grouping; an empty object changes no
object that it is merged with on either side, an empty array no array; and so
the layers of a chain may be merged in any grouping: the value is that of
merging them one after the other, from the empty object on if they are objects.
-/
theorem merge_in_any_grouping :
    (∀ outer middle inner : Value,
      outer.Canonical → middle.Canonical → inner.Canonical → Compatible outer middle inner →
        deepMerge (deepMerge outer middle) inner = deepMerge outer (deepMerge middle inner)) ∧
      (∀ members : Members, (Value.object members).Canonical →
        deepMerge (.object []) (.object members) = .object members ∧
          deepMerge (.object members) (.object []) = .object members) ∧
      (∀ items : List Value,
        deepMerge (.array []) (.array items) = .array items ∧
          deepMerge (.array items) (.array []) = .array items) ∧
      ∀ grouping : Grouping, Chain grouping.layers →
        mergeAll grouping.layers = some grouping.value ∧
          ((∀ layer ∈ grouping.layers, layer.IsObject) →
            mergeLayers grouping.layers = grouping.value) := by
  refine ⟨?_, ?_, ?_, ?_⟩
  · intro outer middle inner canonicalOuter canonicalMiddle canonical compatible
    exact compatible.deepMerge_assoc canonicalOuter canonicalMiddle canonical
  · intro members canonical
    refine ⟨deepMerge_empty canonical.members_sorted, ?_⟩
    rw [deepMerge, mergeMembers]
  · intro items
    simp only [deepMerge, List.nil_append, List.append_nil, and_self]
  · intro grouping chain
    have merged := grouping.mergeAll_layers chain
    refine ⟨merged, fun objects => ?_⟩
    rcases grouping.exists_layers_eq_cons with ⟨first, others, isLayers⟩
    have nonempty : grouping.layers ≠ [] := isLayers ▸ List.cons_ne_nil first others
    rw [mergeAll_eq_mergeLayers nonempty objects chain.canonical] at merged
    exact Option.some.inj merged

/-- A layer whose command is a word, above two that give it arguments. -/
def wordLayer : Value :=
  .object [("install", .string "npm"), ("list", .array [.string "a"])]

/-- A layer that gives the command an argument and adds to the list. -/
def argumentLayer : Value :=
  .object [("install", .object [("args", .array [.string "b"])]),
    ("list", .array [.string "b"])]

/-- A layer that gives the command an argument. -/
def lastLayer : Value :=
  .object [("install", .object [("args", .array [.string "c"])])]

theorem canonical_wordLayer : wordLayer.Canonical := by
  refine .object (by decide) ?_
  simp only [List.forall_mem_cons]
  exact ⟨.string _, .array (List.forall_mem_singleton.mpr (.string _)), List.forall_mem_nil _⟩

theorem canonical_argumentLayer : argumentLayer.Canonical := by
  have list : (Value.array [.string "b"]).Canonical :=
    .array (List.forall_mem_singleton.mpr (.string _))
  refine .object (by decide) ?_
  simp only [List.forall_mem_cons]
  exact ⟨.object (by decide) (List.forall_mem_singleton.mpr list), list, List.forall_mem_nil _⟩

theorem canonical_lastLayer : lastLayer.Canonical := by
  have list : (Value.array [.string "c"]).Canonical :=
    .array (List.forall_mem_singleton.mpr (.string _))
  refine .object (by decide) (List.forall_mem_singleton.mpr ?_)
  exact .object (by decide) (List.forall_mem_singleton.mpr list)

/-- The word stands above two objects, not between them. -/
theorem compatible_wordLayer : Compatible wordLayer argumentLayer lastLayer := by
  refine .intro (fun _ _ => ⟨_, rfl⟩) nofun ?_
  intro key first second third inWord inArgument inLast
  simp only [wordLayer, argumentLayer, lastLayer, Value.at?_key, Members.find?_cons,
    Members.find?_nil] at inWord inArgument inLast
  by_cases isInstall : key = "install"
  · rw [if_pos isInstall] at inWord inArgument inLast
    cases inWord
    cases inArgument
    cases inLast
    exact .intro nofun nofun nofun
  · rw [if_neg isInstall] at inLast
    cases inLast

/-- The two inner layers may be merged first; the arguments of both take the place of the word. -/
theorem merge_in_any_grouping_wordLayer :
    Compatible wordLayer argumentLayer lastLayer ∧
      deepMerge (deepMerge wordLayer argumentLayer) lastLayer =
        deepMerge wordLayer (deepMerge argumentLayer lastLayer) ∧
      mergeLayers [wordLayer, argumentLayer, lastLayer] =
        .object [("install", .object [("args", .array [.string "b", .string "c"])]),
          ("list", .array [.string "a", .string "b"])] := by
  rcases merge_in_any_grouping with ⟨assoc, -, -, grouped⟩
  have chain : Chain [wordLayer, argumentLayer, lastLayer] := by
    refine ⟨?_, List.triplewise_triple.mpr compatible_wordLayer⟩
    simp only [List.forall_mem_cons]
    exact ⟨canonical_wordLayer, canonical_argumentLayer, canonical_lastLayer,
      List.forall_mem_nil _⟩
  have objects : ∀ layer ∈ [wordLayer, argumentLayer, lastLayer], layer.IsObject := by
    simp only [List.forall_mem_cons]
    exact ⟨⟨_, rfl⟩, ⟨_, rfl⟩, ⟨_, rfl⟩, List.forall_mem_nil _⟩
  let innerFirst : Grouping :=
    .both (.layer wordLayer) (.both (.layer argumentLayer) (.layer lastLayer))
  have merged := (grouped innerFirst chain).2 objects
  exact ⟨compatible_wordLayer,
    assoc _ _ _ canonical_wordLayer canonical_argumentLayer canonical_lastLayer
      compatible_wordLayer, merged⟩

/-- A value between two objects that is none itself: the grouping matters. -/
example :
    deepMerge (deepMerge wordLayer .null) lastLayer ≠
      deepMerge wordLayer (deepMerge .null lastLayer) := by
  decide

end Concordance.Json
