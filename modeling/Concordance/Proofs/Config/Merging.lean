import Concordance.Config.Merge
import Concordance.Proofs.Json.Shape

/-!
# Merging along a path

A path of keys leads from a value through nested objects to the value at its
end.  Where every layer that reaches so far has objects on the way, layers are
merged path by path: what the merged value has at the end of a path is what
the layers have there, merged in the same order, and nothing else.

`at?_deepMerge` says this for one layer on top of another and
`ObjectsAlong.deepMerge` says that the merged value has objects on the way as
well, so that the next layer can be put on top; `at?_foldl_deepMerge` goes
through all layers.
-/

namespace Concordance.Json

/-! ### Paths -/

/-- The value at the end of a path of keys. -/
def Value.at? : (path : List String) → Value → Option Value
  | [], value => some value
  | key :: path, .object members => (Members.find? members key).bind (Value.at? path)
  | _ :: _, _ => none

theorem Value.at?_object (key : String) (path : List String) (members : Members) :
    (Value.object members).at? (key :: path) =
      (members.find? key).bind (Value.at? path) := rfl

/-- Whether a value has objects, as far as it reaches, at every proper beginning of a path. -/
def Value.ObjectsAlong (path : List String) (value : Value) : Prop :=
  ∀ before after, path = before ++ after → after ≠ [] →
    ∀ inner, value.at? before = some inner → ∃ members, inner = .object members

theorem Value.objectsAlong_nil (value : Value) : value.ObjectsAlong [] := by
  intro before after split nonempty
  exact (nonempty (List.append_eq_nil_iff.mp split.symm).2).elim

theorem Value.objectsAlong_cons {key : String} {path : List String} {value : Value} :
    value.ObjectsAlong (key :: path) ↔
      ∃ members, value = .object members ∧
        ∀ inner, Members.find? members key = some inner → inner.ObjectsAlong path := by
  constructor
  · intro objects
    rcases objects [] (key :: path) rfl (List.cons_ne_nil _ _) value rfl with
      ⟨members, rfl⟩
    refine ⟨members, rfl, ?_⟩
    intro inner found before after split nonempty deeper reached
    refine objects (key :: before) after (by rw [split, List.cons_append]) nonempty deeper ?_
    rw [Value.at?_object, found, Option.bind_some, reached]
  · rintro ⟨members, rfl, below⟩ before after split nonempty deeper reached
    cases before with
    | nil =>
        cases reached
        exact ⟨members, rfl⟩
    | cons first before =>
        rw [List.cons_append] at split
        rcases List.cons.inj split with ⟨rfl, rest⟩
        rw [Value.at?_object] at reached
        rcases Option.bind_eq_some_iff.mp reached with ⟨inner, found, reached⟩
        exact below inner found before after rest nonempty deeper reached

/-- An empty object has objects along every path, since it reaches nowhere. -/
theorem Value.objectsAlong_empty (path : List String) :
    (Value.object []).ObjectsAlong path := by
  cases path with
  | nil => exact objectsAlong_nil _
  | cons key path => exact objectsAlong_cons.mpr ⟨[], rfl, nofun⟩

instance Value.decidableObjectsAlong :
    (path : List String) → (value : Value) → Decidable (value.ObjectsAlong path)
  | [], value => isTrue (objectsAlong_nil value)
  | key :: path, value =>
      match value with
      | .object members =>
          match found : Members.find? members key with
          | none =>
              isTrue (objectsAlong_cons.mpr ⟨members, rfl, by simp [found]⟩)
          | some inner =>
              have := decidableObjectsAlong path inner
              decidable_of_iff (inner.ObjectsAlong path) (by
                rw [objectsAlong_cons]
                simp [found])
      | .null | .bool _ | .number _ | .string _ | .array _ =>
          isFalse fun objects => by
            rcases objectsAlong_cons.mp objects with ⟨_, ⟨⟩, _⟩

theorem Value.Unrepeated.distinct
    {members : Members}
    (unrepeated : (Value.object members).Unrepeated) :
    members.Distinct := by
  cases unrepeated with
  | object distinct _ => exact distinct

theorem Value.Unrepeated.of_find?
    {members : Members}
    (unrepeated : (Value.object members).Unrepeated)
    {key : String}
    {value : Value}
    (found : members.find? key = some value) :
    value.Unrepeated := by
  cases unrepeated with
  | object _ each => exact each _ (Members.mem_of_find?_eq_some found)

/-! ### One layer on top of another -/

/-- A merged object has, under each key, what the base and the overlay have there, merged. -/
theorem find?_mergeMembers
    {overlay : Members}
    (distinct : overlay.Distinct)
    (base : Members)
    (key : String) :
    Members.find? (mergeMembers base overlay) key =
      Option.merge deepMerge (base.find? key) (overlay.find? key) := by
  induction overlay generalizing base with
  | nil => rw [mergeMembers, Members.find?_nil, Option.merge_none_right]
  | cons member overlay induction =>
      rcases member with ⟨head, value⟩
      rcases Members.distinct_cons.mp distinct with ⟨absent, rest⟩
      rw [mergeMembers, induction rest, Members.find?_insert, Members.find?_cons]
      by_cases same : key = head
      · rw [if_pos same, if_pos same, same, Members.find?_eq_none_of_forall absent]
        cases base.find? head <;> rfl
      · rw [if_neg same, if_neg same]

theorem Value.ObjectsAlong.deepMerge
    {path : List String}
    {base overlay : Value}
    (below : base.ObjectsAlong path)
    (above : overlay.ObjectsAlong path)
    (unrepeated : overlay.Unrepeated) :
    (deepMerge base overlay).ObjectsAlong path := by
  induction path generalizing base overlay with
  | nil => exact objectsAlong_nil _
  | cons key path induction =>
      rcases objectsAlong_cons.mp below with ⟨baseMembers, rfl, baseInner⟩
      rcases objectsAlong_cons.mp above with ⟨members, rfl, overlayInner⟩
      rw [Json.deepMerge, objectsAlong_cons]
      refine ⟨_, rfl, ?_⟩
      intro inner found
      rw [find?_mergeMembers unrepeated.distinct] at found
      cases inBase : Members.find? baseMembers key with
      | none =>
          rw [inBase, Option.merge_none_left] at found
          exact overlayInner inner found
      | some first =>
          cases inOverlay : Members.find? members key with
          | none =>
              rw [inBase, inOverlay, Option.merge_none_right] at found
              cases found
              exact baseInner inner inBase
          | some second =>
              rw [inBase, inOverlay] at found
              cases found
              exact induction (baseInner first inBase) (overlayInner second inOverlay)
                (unrepeated.of_find? inOverlay)

/-- At the end of a path the merged value has what the two values have there, merged. -/
theorem at?_deepMerge
    {path : List String}
    {base overlay : Value}
    (below : base.ObjectsAlong path)
    (above : overlay.ObjectsAlong path)
    (unrepeated : overlay.Unrepeated) :
    (deepMerge base overlay).at? path =
      Option.merge deepMerge (base.at? path) (overlay.at? path) := by
  induction path generalizing base overlay with
  | nil => rfl
  | cons key path induction =>
      rcases Value.objectsAlong_cons.mp below with ⟨baseMembers, rfl, baseInner⟩
      rcases Value.objectsAlong_cons.mp above with ⟨members, rfl, overlayInner⟩
      rw [deepMerge, Value.at?_object, Value.at?_object, Value.at?_object,
        find?_mergeMembers unrepeated.distinct]
      cases inBase : Members.find? baseMembers key with
      | none =>
          rw [Option.bind_none, Option.merge_none_left, Option.merge_none_left]
      | some first =>
          cases inOverlay : Members.find? members key with
          | none =>
              rw [Option.bind_none, Option.merge_none_right, Option.merge_none_right]
          | some second =>
              exact induction (baseInner first inBase) (overlayInner second inOverlay)
                (unrepeated.of_find? inOverlay)

/-! ### Layers one after the other -/

/-- Values merged from the first one on; no values give none. -/
def mergeAll : List Value → Option Value
  | [] => none
  | first :: others => some (others.foldl deepMerge first)

/-- Whether a value can be merged as a layer along a path. -/
structure LayerAlong (path : List String) (layer : Value) : Prop where
  objects : layer.ObjectsAlong path
  unrepeated : layer.Unrepeated

theorem at?_foldl_deepMerge
    {path : List String}
    {layers : List Value}
    (along : ∀ layer ∈ layers, LayerAlong path layer)
    {base : Value}
    (objects : base.ObjectsAlong path) :
    (layers.foldl deepMerge base).at? path =
      layers.foldl
        (fun found layer => Option.merge deepMerge found (layer.at? path))
        (base.at? path) := by
  induction layers generalizing base with
  | nil => rfl
  | cons layer layers induction =>
      rcases List.forall_mem_cons.mp along with ⟨first, others⟩
      rw [List.foldl_cons, List.foldl_cons,
        induction others (objects.deepMerge first.objects first.unrepeated),
        at?_deepMerge objects first.objects first.unrepeated]

section

variable (valueOf : Value → Option Value)

/-- Layers without a value do not matter, once there is a value to merge onto. -/
theorem foldl_merge_some (base : Value) (layers : List Value) :
    layers.foldl (fun found layer => Option.merge deepMerge found (valueOf layer))
        (some base) =
      some ((layers.filterMap valueOf).foldl deepMerge base) := by
  induction layers generalizing base with
  | nil => rfl
  | cons layer layers induction =>
      rw [List.foldl_cons, List.filterMap_cons]
      cases valueOf layer with
      | none => exact induction base
      | some value => exact induction (deepMerge base value)

theorem foldl_merge_none (layers : List Value) :
    layers.foldl (fun found layer => Option.merge deepMerge found (valueOf layer)) none =
      mergeAll (layers.filterMap valueOf) := by
  induction layers with
  | nil => rfl
  | cons layer layers induction =>
      rw [List.foldl_cons, List.filterMap_cons]
      cases valueOf layer with
      | none => exact induction
      | some value => exact foldl_merge_some valueOf value layers

end

theorem isSome_mergeAll {values : List Value} :
    (mergeAll values).isSome ↔ ∃ value, value ∈ values := by
  cases values with
  | nil => simp [mergeAll]
  | cons first others =>
      exact ⟨fun _ => ⟨first, List.mem_cons_self⟩, fun _ => rfl⟩

/-- Arrays are put one behind the other. -/
theorem mergeAll_arrays {lists : List (List Value)} (nonempty : lists ≠ []) :
    mergeAll (lists.map .array) = some (.array lists.flatten) := by
  have onto (base : List Value) (lists : List (List Value)) :
      (lists.map Value.array).foldl deepMerge (.array base) =
        .array (base ++ lists.flatten) := by
    induction lists generalizing base with
    | nil => simp
    | cons list lists induction =>
        rw [List.map_cons, List.foldl_cons, deepMerge, induction, List.flatten_cons,
          List.append_assoc]
  cases lists with
  | nil => exact (nonempty rfl).elim
  | cons first others =>
      rw [List.map_cons, mergeAll, onto, List.flatten_cons]

/-- Whether a value replaces whatever it is merged onto. -/
def Value.Replaces (value : Value) : Prop :=
  (∀ members, value ≠ .object members) ∧ ∀ items, value ≠ .array items

theorem deepMerge_of_replaces
    {overlay : Value}
    (replaces : overlay.Replaces)
    (base : Value) :
    deepMerge base overlay = overlay := by
  cases overlay with
  | array items => exact (replaces.2 items rfl).elim
  | object members => exact (replaces.1 members rfl).elim
  | null | bool | number | string => cases base <;> rfl

theorem mergeAll_of_replaces
    {last : Value}
    (replaces : last.Replaces)
    (earlier : List Value) :
    mergeAll (earlier ++ [last]) = some last := by
  cases earlier with
  | nil => rfl
  | cons first others =>
      rw [List.cons_append, mergeAll, List.foldl_append]
      exact congrArg some (deepMerge_of_replaces replaces _)

/-- What the merged layers have at the end of a path. -/
theorem at?_mergeLayers_eq
    {path : List String}
    (nonempty : path ≠ [])
    {layers : List Value}
    (along : ∀ layer ∈ layers, LayerAlong path layer) :
    (mergeLayers layers).at? path = mergeAll (layers.filterMap (Value.at? path)) := by
  have start : (Value.object []).at? path = none := by
    cases path with
    | nil => exact (nonempty rfl).elim
    | cons key path => rfl
  rw [mergeLayers, at?_foldl_deepMerge along (Value.objectsAlong_empty path), start,
    foldl_merge_none]

/--
The merged layers have a value at the end of a path exactly if some layer has
one, and it is what the layers have there, merged in the same order.  Arrays
are put one behind the other; an innermost value that is neither an object nor
an array stands alone; and where inner layers have nothing, the outer layers
decide.
-/
theorem at?_mergeLayers
    {path : List String}
    (nonempty : path ≠ [])
    {layers : List Value}
    (along : ∀ layer ∈ layers, LayerAlong path layer) :
    ((∃ value, (mergeLayers layers).at? path = some value) ↔
        ∃ layer ∈ layers, ∃ value, layer.at? path = some value) ∧
      (mergeLayers layers).at? path = mergeAll (layers.filterMap (Value.at? path)) ∧
      (∀ lists, lists ≠ [] →
        layers.filterMap (Value.at? path) = lists.map .array →
        (mergeLayers layers).at? path = some (.array lists.flatten)) ∧
      (∀ earlier last, last.Replaces →
        layers.filterMap (Value.at? path) = earlier ++ [last] →
        (mergeLayers layers).at? path = some last) ∧
      ∀ outer inner, layers = outer ++ inner →
        (∀ layer ∈ inner, layer.at? path = none) →
        (mergeLayers layers).at? path = (mergeLayers outer).at? path := by
  have merged := at?_mergeLayers_eq nonempty along
  refine ⟨?_, merged, ?_, ?_, ?_⟩
  · rw [merged, ← Option.isSome_iff_exists, isSome_mergeAll]
    simp only [List.mem_filterMap]
    constructor
    · rintro ⟨value, layer, member, found⟩
      exact ⟨layer, member, value, found⟩
    · rintro ⟨layer, member, value, found⟩
      exact ⟨value, layer, member, found⟩
  · intro lists some arrays
    rw [merged, arrays, mergeAll_arrays some]
  · intro earlier last replaces values
    rw [merged, values, mergeAll_of_replaces replaces]
  · rintro outer inner rfl silent
    have nothing : inner.filterMap (Value.at? path) = [] :=
      List.filterMap_eq_nil_iff.mpr silent
    have outerAlong : ∀ layer ∈ outer, LayerAlong path layer :=
      fun layer member => along layer (List.mem_append_left _ member)
    rw [merged, List.filterMap_append, nothing, List.append_nil,
      at?_mergeLayers_eq nonempty outerAlong]

/-- Layers that add to a list inside an object, the middle one excepted. -/
def listLayers : List Value :=
  [.object [("a", .object [("b", .array [.bool true]), ("c", .null)])],
    .object [("a", .object [])],
    .object [("a", .object [("b", .array [.bool false, .bool true])])]]

/-- The list inside has the items of the outermost layer before those of the innermost. -/
theorem at?_mergeLayers_listLayers :
    (∀ layer ∈ listLayers, LayerAlong ["a", "b"] layer) ∧
      (mergeLayers listLayers).at? ["a", "b"] =
        some (.array [.bool true, .bool false, .bool true]) := by
  have list (items : List Bool) : (Value.array (items.map .bool)).Unrepeated := by
    refine .array ?_
    intro item member
    rcases List.mem_map.mp member with ⟨value, -, rfl⟩
    exact .bool value
  have only (key : String) (value : Value) (unrepeated : value.Unrepeated) :
      (Value.object [(key, value)]).Unrepeated :=
    .object (List.pairwise_singleton _ _) (List.forall_mem_singleton.mpr unrepeated)
  have pair : (Value.object
      [("b", .array [.bool true]), ("c", .null)]).Unrepeated := by
    refine .object (by simp [Members.Distinct]) ?_
    rw [List.forall_mem_cons, List.forall_mem_singleton]
    exact ⟨list [true], .null⟩
  have along : ∀ layer ∈ listLayers, LayerAlong ["a", "b"] layer := by
    simp only [listLayers, List.forall_mem_cons]
    refine ⟨⟨by decide, only _ _ pair⟩, ⟨by decide, only _ _ ?_⟩,
      ⟨by decide, only _ _ (only _ _ (list [false, true]))⟩, List.forall_mem_nil _⟩
    exact .object List.nodup_nil (List.forall_mem_nil _)
  rcases at?_mergeLayers (by decide) along with ⟨-, -, arrays, -, -⟩
  exact ⟨along, arrays [[.bool true], [.bool false, .bool true]] (by decide) rfl⟩

end Concordance.Json
