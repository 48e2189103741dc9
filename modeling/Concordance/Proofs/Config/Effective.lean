import Concordance.Proofs.Config.Decoding
import Concordance.Proofs.Config.Merging

/-!
# The configuration that layers give together

Layers are merged as plain values, and defaults are filled in only once they
are merged.  If each layer makes a configuration by itself, so do all of them
together: a single setting is what the innermost layer with its key says,
arguments and repositories are put one behind the other, and a default counts
only where no layer says anything.  `Config.decode_mergeLayers` is the
statement for all settings at once.

The merged object is described key by key (`exists_mergeLayers_eq_object`), so
each setting is settled apart from the others: `exists_innermost` for single
values, `taken_concatenated` for lists, `CommandSpec.exists_combined` for
commands.
-/

namespace Concordance

open Json (Value Members Mismatch mergeAll mergeLayers)
open Decode (Taken)

namespace Json

/-! ### Merged objects -/

/-- What the layers have under a key, outermost first. -/
def given (key : String) (layers : List Value) : List Value :=
  layers.filterMap (Value.at? [key])

theorem Value.at?_key (members : Members) (key : String) :
    (Value.object members).at? [key] = members.find? key := by
  rw [Value.at?_object]
  exact Option.bind_fun_some _

theorem Value.objectsAlong_key (members : Members) (key : String) :
    (Value.object members).ObjectsAlong [key] :=
  objectsAlong_cons.mpr ⟨members, rfl, fun _ _ => objectsAlong_nil _⟩

theorem sorted_mergeMembers
    {base : Members}
    (sorted : base.Sorted)
    (overlay : Members) :
    Members.Sorted (mergeMembers base overlay) := by
  induction overlay generalizing base with
  | nil =>
      rw [mergeMembers]
      exact sorted
  | cons member overlay induction =>
      rw [mergeMembers]
      exact induction (sorted.insert _ _)

/-- An object with its keys in order is not changed by being merged onto the empty one. -/
theorem deepMerge_empty {members : Members} (sorted : members.Sorted) :
    deepMerge (.object []) (.object members) = .object members := by
  rw [deepMerge]
  refine congrArg Value.object ?_
  refine Members.eq_of_find?_eq (sorted_mergeMembers Members.sorted_nil members) sorted ?_
  intro key
  rw [find?_mergeMembers sorted.distinct, Members.find?_nil, Option.merge_none_left]

theorem exists_foldl_deepMerge_eq_object
    {base : Members}
    (sorted : base.Sorted)
    {layers : List Value}
    (objects : ∀ layer ∈ layers, ∃ members, layer = .object members) :
    ∃ merged : Members, layers.foldl deepMerge (.object base) = .object merged ∧
      merged.Sorted := by
  induction layers generalizing base with
  | nil => exact ⟨base, rfl, sorted⟩
  | cons layer layers induction =>
      rcases List.forall_mem_cons.mp objects with ⟨⟨members, rfl⟩, others⟩
      rw [List.foldl_cons, deepMerge]
      exact induction (sorted_mergeMembers sorted members) others

/-- Objects are merged to an object that has, under each key, what they have there, merged. -/
theorem exists_mergeLayers_eq_object
    {layers : List Value}
    (objects : ∀ layer ∈ layers, ∃ members, layer = .object members)
    (canonical : ∀ layer ∈ layers, layer.Canonical) :
    ∃ merged : Members, mergeLayers layers = .object merged ∧ merged.Sorted ∧
      ∀ key, merged.find? key = mergeAll (given key layers) := by
  have shape := exists_foldl_deepMerge_eq_object Members.sorted_nil objects
  rcases shape with ⟨merged, isObject, sorted⟩
  refine ⟨merged, isObject, sorted, ?_⟩
  intro key
  rw [← Value.at?_key, ← isObject]
  refine at?_mergeLayers_eq (List.cons_ne_nil _ _) ?_
  intro layer inLayers
  rcases objects layer inLayers with ⟨members, rfl⟩
  exact ⟨Value.objectsAlong_key members key, (canonical _ inLayers).unrepeated⟩

/-- It makes no difference whether the merge starts from an empty object or from the first one. -/
theorem mergeAll_eq_mergeLayers
    {layers : List Value}
    (nonempty : layers ≠ [])
    (objects : ∀ layer ∈ layers, ∃ members, layer = .object members)
    (canonical : ∀ layer ∈ layers, layer.Canonical) :
    mergeAll layers = some (mergeLayers layers) := by
  cases layers with
  | nil => exact (nonempty rfl).elim
  | cons first others =>
      rcases objects first List.mem_cons_self with ⟨members, rfl⟩
      have sorted := (canonical _ List.mem_cons_self).members_sorted
      rw [mergeAll, mergeLayers, List.foldl_cons, deepMerge_empty sorted]

end Json

open Json (given)

section

variable {α β : Type}

theorem exists_layer_of_mem_given
    {key : String}
    {layers : List (Value × β)}
    {value : Value}
    (inGiven : value ∈ given key (layers.map Prod.fst)) :
    ∃ layer ∈ layers, layer.1.at? [key] = some value := by
  rcases List.mem_filterMap.mp inGiven with ⟨_, inValues, found⟩
  rcases List.mem_map.mp inValues with ⟨layer, inLayers, rfl⟩
  exact ⟨layer, inLayers, found⟩

/-! ### Single values -/

/-- A setting is what the innermost of some values holds, or the default if there is none. -/
inductive Innermost (holds : Value → α → Prop) (default : α) : List Value → α → Prop where
  | held {outer : List Value} {value : Value} {setting : α} (held : holds value setting) :
      Innermost holds default (outer ++ [value]) setting
  | default : Innermost holds default [] default

/-- Of single values that can be read, the innermost one remains and gives the setting. -/
theorem exists_innermost
    {read : Value → Except Mismatch α}
    {holds : Value → α → Prop}
    (default : α)
    {values : List Value}
    (readable : ∀ value ∈ values, ∃ setting, read value = .ok setting)
    (holds_of_read : ∀ value ∈ values, ∀ setting, read value = .ok setting →
      holds value setting)
    (replaces : ∀ value setting, holds value setting → value.Replaces) :
    ∃ setting, Taken read default (mergeAll values) setting ∧
      Innermost holds default values setting := by
  rcases values.eq_nil_or_concat with rfl | ⟨outer, value, rfl⟩
  · exact ⟨default, .default, .default⟩
  · rw [List.concat_eq_append] at readable holds_of_read ⊢
    have inValues : value ∈ outer ++ [value] := by simp
    rcases readable value inValues with ⟨setting, read⟩
    have held := holds_of_read value inValues setting read
    refine ⟨setting, ?_, .held held⟩
    rw [Json.mergeAll_of_replaces (replaces value setting held)]
    exact .read read

/-! ### Lists -/

/-- Lists that can be read are read, put one behind the other, as what they are read as. -/
theorem taken_concatenated
    {read : Value → Except Mismatch α}
    {key : String}
    {layers : List (Value × β)}
    {part : β → List α}
    (each : ∀ layer ∈ layers,
      Taken (Decode.list read) [] (layer.1.at? [key]) (part layer.2)) :
    Taken (Decode.list read) [] (mergeAll (given key (layers.map Prod.fst)))
      (layers.flatMap fun layer => part layer.2) := by
  have arrays : ∃ lists : List (List Value),
      given key (layers.map Prod.fst) = lists.map .array ∧
        lists.flatten.mapM read = .ok (layers.flatMap fun layer => part layer.2) := by
    induction layers with
    | nil => exact ⟨[], rfl, rfl⟩
    | cons layer layers induction =>
        rcases List.forall_mem_cons.mp each with ⟨first, others⟩
        rcases induction others with ⟨lists, values, run⟩
        rw [given, List.map_cons, List.filterMap_cons, List.flatMap_cons]
        cases found : layer.1.at? [key] with
        | none =>
            rw [found, Decode.taken_none_iff] at first
            exact ⟨lists, values, by rw [first, List.nil_append, run]⟩
        | some value =>
            rw [found, Decode.taken_some_iff, Decode.list_eq_ok_iff] at first
            rcases first with ⟨items, rfl, here⟩
            refine ⟨items :: lists, congrArg _ values, ?_⟩
            rw [List.flatten_cons, List.mapM_append, here, run]
            rfl
  rcases arrays with ⟨lists, values, run⟩
  rw [values]
  cases lists with
  | nil =>
      rw [← Except.ok.inj run]
      exact .default
  | cons first others =>
      rw [Json.mergeAll_arrays (List.cons_ne_nil _ _)]
      exact .read run

/-- Values that stand in a relation to something can be listed together with it. -/
theorem exists_map_fst_eq
    {related : α → β → Prop}
    {values : List α}
    (each : ∀ value ∈ values, ∃ other, related value other) :
    ∃ pairs : List (α × β), pairs.map Prod.fst = values ∧
      ∀ pair ∈ pairs, related pair.1 pair.2 := by
  induction values with
  | nil => exact ⟨[], rfl, nofun⟩
  | cons value values induction =>
      rcases List.forall_mem_cons.mp each with ⟨⟨other, here⟩, others⟩
      rcases induction others with ⟨pairs, rfl, below⟩
      exact ⟨(value, other) :: pairs, rfl, List.forall_mem_cons.mpr ⟨here, below⟩⟩

end

/-! ### What a value holds -/

section

variable {α : Type}

/-- A value holds a path: it is the text of the path. -/
def HoldsPath (value : Value) (path : Path) : Prop :=
  ∃ text, value = .string text ∧ path = Path.ofText text

/-- A value holds a text. -/
def HoldsText (value : Value) (text : String) : Prop :=
  value = .string text

/-- A value holds one of several choices: it is the word for it. -/
def HoldsChoice (words : List (String × α)) (value : Value) (choice : α) : Prop :=
  ∃ word, value = .string word ∧ words.lookup word = some choice

/-- A value holds something, or it is null and holds nothing. -/
def HoldsNullable
    (holds : Value → α → Prop)
    (value : Value)
    (setting : Option α) : Prop :=
  (value = .null ∧ setting = none) ∨ ∃ content, holds value content ∧ setting = some content

theorem holdsNullable_of_nullable
    {read : Value → Except Mismatch α}
    {holds : Value → α → Prop}
    (holds_of_read : ∀ value content, read value = .ok content → holds value content)
    {value : Value}
    {setting : Option α}
    (readable : Decode.nullable read value = .ok setting) :
    HoldsNullable holds value setting := by
  rcases Decode.nullable_eq_ok readable with ⟨rfl, rfl⟩ | ⟨content, read, rfl⟩
  · exact .inl ⟨rfl, rfl⟩
  · exact .inr ⟨content, holds_of_read value content read, rfl⟩

theorem holdsChoice_of_choice
    {words : List (String × α)}
    {word : String}
    {choice : α}
    (readable : Decode.choice words (.string word) = .ok choice) :
    HoldsChoice words (.string word) choice :=
  ⟨word, rfl, Decode.choose_eq_ok_iff.mp readable⟩

theorem replaces_string (text : String) : (Value.string text).Replaces :=
  ⟨nofun, nofun⟩

theorem HoldsPath.replaces {value : Value} {path : Path} (held : HoldsPath value path) :
    value.Replaces := by
  rcases held with ⟨text, rfl, -⟩
  exact replaces_string text

theorem HoldsText.replaces {value : Value} {text : String} (held : HoldsText value text) :
    value.Replaces := by
  rw [held]
  exact replaces_string text

theorem HoldsChoice.replaces
    {words : List (String × α)}
    {value : Value}
    {choice : α}
    (held : HoldsChoice words value choice) :
    value.Replaces := by
  rcases held with ⟨word, rfl, -⟩
  exact replaces_string word

theorem HoldsNullable.replaces
    {holds : Value → α → Prop}
    (replaces : ∀ value content, holds value content → value.Replaces)
    {value : Value}
    {setting : Option α}
    (held : HoldsNullable holds value setting) :
    value.Replaces := by
  rcases held with ⟨rfl, -⟩ | ⟨content, held, -⟩
  · exact ⟨nofun, nofun⟩
  · exact replaces value content held

end

/-! ### Commands -/

namespace CommandSpec

/-- A value holds a command: an object with the program and, if there are any, the arguments. -/
def HeldBy (spec : CommandSpec) (value : Value) : Prop :=
  ∃ members : Members, value = .object members ∧
    members.find? "command" = some (.string spec.command) ∧
    (members.find? "args").getD (.array []) = .array (spec.args.map .string)

/--
Commands are combined to the program of the innermost one with the arguments of
all of them, outermost first; without any command the default remains.
-/
inductive Combined (default : CommandSpec) : List Value → CommandSpec → Prop where
  | given {outer : List (Value × CommandSpec)} {innermost : Value × CommandSpec}
      (held : ∀ layer ∈ outer ++ [innermost], layer.2.HeldBy layer.1) :
      Combined default ((outer ++ [innermost]).map Prod.fst)
        ⟨innermost.2.command, (outer ++ [innermost]).flatMap fun layer => layer.2.args⟩
  | default : Combined default [] default

theorem ReadFrom.heldBy
    {spec : CommandSpec}
    {members : Members}
    (read : spec.ReadFrom members) :
    spec.HeldBy (.object members) := by
  refine ⟨members, rfl, read.command, ?_⟩
  have args := read.args
  cases found : members.find? "args" with
  | none =>
      rw [found, Decode.taken_none_iff] at args
      rw [args]
      rfl
  | some value =>
      rw [found, Decode.taken_some_iff, Decode.list_eq_ok_iff] at args
      rcases args with ⟨items, rfl, texts⟩
      rw [Decode.mapM_text_eq_ok_iff.mp texts]
      rfl

/-- What several commands are merged to is read as their combination. -/
theorem readFrom_merged
    {outer : List (Value × CommandSpec)}
    {innermost : Value × CommandSpec}
    (each : ∀ layer ∈ outer ++ [innermost],
      ∃ members, layer.1 = .object members ∧ layer.2.ReadFrom members)
    {merged : Members}
    (find?_merged : ∀ key,
      merged.find? key = mergeAll (given key ((outer ++ [innermost]).map Prod.fst))) :
    ReadFrom
      ⟨innermost.2.command, (outer ++ [innermost]).flatMap fun layer => layer.2.args⟩
      merged where
  command := by
    rcases each innermost (by simp) with ⟨members, isObject, read⟩
    rw [find?_merged, given, List.map_append, List.filterMap_append, List.map_singleton,
      List.filterMap_cons, isObject, Value.at?_key, read.command, List.filterMap_nil]
    exact Json.mergeAll_of_replaces (replaces_string _) _
  args := by
    rw [find?_merged]
    apply taken_concatenated
    intro layer inLayers
    rcases each layer inLayers with ⟨members, isObject, read⟩
    rw [isObject, Value.at?_key]
    exact read.args

/-- Values that are commands are merged to one that is read as their combination. -/
theorem exists_combined
    (default : CommandSpec)
    {values : List Value}
    (objects : ∀ value ∈ values, ∃ members, value = .object members)
    (canonical : ∀ value ∈ values, value.Canonical)
    (readable : ∀ value ∈ values, ∃ spec, decode value = .ok spec) :
    ∃ spec, Taken decode default (mergeAll values) spec ∧ Combined default values spec := by
  rcases exists_map_fst_eq readable with ⟨layers, rfl, decoded⟩
  rcases layers.eq_nil_or_concat with rfl | ⟨outer, innermost, rfl⟩
  · exact ⟨default, .default, .default⟩
  · rw [List.concat_eq_append] at objects canonical decoded ⊢
    have each : ∀ layer ∈ outer ++ [innermost],
        ∃ members, layer.1 = .object members ∧ layer.2.ReadFrom members := by
      intro layer inLayers
      have inValues := List.mem_map_of_mem (f := Prod.fst) inLayers
      rcases objects layer.1 inValues with ⟨members, isObject⟩
      have sorted := (isObject ▸ canonical layer.1 inValues).members_sorted
      refine ⟨members, isObject, (decode_object_eq_ok_iff sorted.distinct).mp ?_⟩
      rw [← isObject]
      exact decoded layer inLayers
    rcases Json.exists_mergeLayers_eq_object objects canonical with
      ⟨merged, isMerged, sorted, find?_merged⟩
    refine ⟨_, ?_, .given fun layer inLayers => ?_⟩
    · rw [Json.mergeAll_eq_mergeLayers (by simp) objects canonical, isMerged]
      exact .read ((decode_object_eq_ok_iff sorted.distinct).mpr
        (readFrom_merged each find?_merged))
    · rcases each layer inLayers with ⟨members, isObject, read⟩
      rw [isObject]
      exact read.heldBy

end CommandSpec

/-! ### Configurations -/

namespace Config

/--
A layer makes a configuration by itself, and gives its commands as objects and
its choices as words.
-/
structure StandsAlone (layer : Value) (config : Config) : Prop where
  object : ∃ members, layer = .object members
  canonical : layer.Canonical
  decoded : decode layer = .ok config
  commands : ∀ key ∈ ["install", "compiler"], ∀ value, layer.at? [key] = some value →
    ∃ members, value = .object members
  words : ∀ key ∈ ["markerPolicy", "pageLayout"], ∀ value,
    layer.at? [key] = some value → ∃ word, value = .string word

/-- A configuration is what layers, each with its own configuration, give together. -/
structure Effective (layers : List (Value × Config)) (config : Config) : Prop where
  outDir :
    Innermost HoldsPath (Path.ofText "docs") (given "outDir" (layers.map Prod.fst))
      config.outDir
  workDir :
    Innermost HoldsPath (Path.ofText ".doccer") (given "workDir" (layers.map Prod.fst))
      config.workDir
  name :
    Innermost (HoldsNullable HoldsText) none (given "name" (layers.map Prod.fst))
      config.name
  readme :
    Innermost (HoldsNullable HoldsPath) none (given "readme" (layers.map Prod.fst))
      config.readme
  indexMarker :
    Innermost HoldsText Index.defaultMarker (given "indexMarker" (layers.map Prod.fst))
      config.indexMarker
  markerPolicy :
    Innermost (HoldsChoice policyWords) .firstOnly
      (given "markerPolicy" (layers.map Prod.fst)) config.markerPolicy
  pageLayout :
    Innermost (HoldsChoice layoutWords) .flat (given "pageLayout" (layers.map Prod.fst))
      config.pageLayout
  install :
    CommandSpec.Combined ⟨"npm", ["install"]⟩ (given "install" (layers.map Prod.fst))
      config.install
  compiler :
    CommandSpec.Combined ⟨"npx", ["typedoc"]⟩ (given "compiler" (layers.map Prod.fst))
      config.compiler
  repositories :
    config.repositories = layers.flatMap fun layer => layer.2.repositories

theorem StandsAlone.readFrom
    {layer : Value}
    {config : Config}
    (alone : StandsAlone layer config) :
    ∃ members : Members, layer = .object members ∧ members.Sorted ∧
      config.ReadFrom members := by
  rcases alone.object with ⟨members, rfl⟩
  have sorted := alone.canonical.members_sorted
  exact ⟨members, rfl, sorted, (decode_object_eq_ok_iff sorted.distinct).mp alone.decoded⟩

section

variable
    {layers : List (Value × Config)}
    (each : ∀ layer ∈ layers, StandsAlone layer.1 layer.2)

include each

/-- What a key of a layer holds can be read, as the configuration of the layer was. -/
theorem readable_given
    {β : Type}
    {key : String}
    {read : Value → Except Mismatch β}
    {default : β}
    {part : Config → β}
    (taken : ∀ members (config : Config), config.ReadFrom members →
      Taken read default (members.find? key) (part config)) :
    ∀ value ∈ given key (layers.map Prod.fst), ∃ setting, read value = .ok setting := by
  intro value inGiven
  rcases exists_layer_of_mem_given inGiven with ⟨layer, inLayers, found⟩
  rcases (each layer inLayers).readFrom with ⟨members, isObject, -, readFrom⟩
  have here := taken members layer.2 readFrom
  rw [isObject, Value.at?_key] at found
  rw [found, Decode.taken_some_iff] at here
  exact ⟨_, here⟩

theorem exists_single
    {β : Type}
    {key : String}
    {read : Value → Except Mismatch β}
    {holds : Value → β → Prop}
    {default : β}
    {part : Config → β}
    (taken : ∀ members (config : Config), config.ReadFrom members →
      Taken read default (members.find? key) (part config))
    (holds_of_read : ∀ value ∈ given key (layers.map Prod.fst), ∀ setting,
      read value = .ok setting → holds value setting)
    (replaces : ∀ value setting, holds value setting → value.Replaces) :
    ∃ setting,
      Taken read default (mergeAll (given key (layers.map Prod.fst))) setting ∧
        Innermost holds default (given key (layers.map Prod.fst)) setting :=
  exists_innermost default (readable_given each taken) holds_of_read replaces

theorem exists_choice
    {β : Type}
    {key : String}
    (isChoice : key ∈ ["markerPolicy", "pageLayout"])
    {words : List (String × β)}
    {default : β}
    {part : Config → β}
    (taken : ∀ members (config : Config), config.ReadFrom members →
      Taken (Decode.choice words) default (members.find? key) (part config)) :
    ∃ setting,
      Taken (Decode.choice words) default (mergeAll (given key (layers.map Prod.fst)))
          setting ∧
        Innermost (HoldsChoice words) default (given key (layers.map Prod.fst))
          setting := by
  refine exists_single each taken ?_ fun _ _ => HoldsChoice.replaces
  intro value inGiven setting read
  rcases exists_layer_of_mem_given inGiven with ⟨layer, inLayers, found⟩
  rcases (each layer inLayers).words key isChoice value found with ⟨word, rfl⟩
  exact holdsChoice_of_choice read

theorem exists_command
    {key : String}
    (isCommand : key ∈ ["install", "compiler"])
    {default : CommandSpec}
    {part : Config → CommandSpec}
    (taken : ∀ members (config : Config), config.ReadFrom members →
      Taken CommandSpec.decode default (members.find? key) (part config)) :
    ∃ spec,
      Taken CommandSpec.decode default (mergeAll (given key (layers.map Prod.fst))) spec ∧
        CommandSpec.Combined default (given key (layers.map Prod.fst)) spec := by
  refine CommandSpec.exists_combined default ?_ ?_ (readable_given each taken)
  · intro value inGiven
    rcases exists_layer_of_mem_given inGiven with ⟨layer, inLayers, found⟩
    exact (each layer inLayers).commands key isCommand value found
  · intro value inGiven
    rcases exists_layer_of_mem_given inGiven with ⟨layer, inLayers, found⟩
    rcases (each layer inLayers).object with ⟨members, isObject⟩
    have canonical := (each layer inLayers).canonical
    rw [isObject] at canonical
    rw [isObject, Value.at?_key] at found
    exact canonical.member _ (Members.mem_of_find?_eq_some found)

theorem taken_repositories :
    Taken (Decode.list Repository.decode) []
      (mergeAll (given "repositories" (layers.map Prod.fst)))
      (layers.flatMap fun layer => layer.2.repositories) := by
  apply taken_concatenated
  intro layer inLayers
  rcases (each layer inLayers).readFrom with ⟨members, isObject, -, readFrom⟩
  rw [isObject, Value.at?_key]
  exact readFrom.repositories

end

/--
Layers that each make a configuration make one together, whether the merge
starts from an empty object or from the outermost layer.  Each single setting
is what the innermost layer with its key holds, or else its default; commands
have the arguments of all layers that give them; and the repositories are those
of all layers, each as its own layer has it.
-/
theorem decode_mergeLayers
    {layers : List (Value × Config)}
    (nonempty : layers ≠ [])
    (each : ∀ layer ∈ layers, StandsAlone layer.1 layer.2) :
    ∃ merged config,
      mergeLayers (layers.map Prod.fst) = merged ∧
        mergeAll (layers.map Prod.fst) = some merged ∧
        decode merged = .ok config ∧
        config.Effective layers := by
  have objects : ∀ value ∈ layers.map Prod.fst, ∃ members, value = .object members :=
    List.forall_mem_map.mpr fun layer inLayers => (each layer inLayers).object
  have canonical : ∀ value ∈ layers.map Prod.fst, value.Canonical :=
    List.forall_mem_map.mpr fun layer inLayers => (each layer inLayers).canonical
  rcases Json.exists_mergeLayers_eq_object objects canonical with
    ⟨merged, isMerged, sorted, find?_merged⟩
  rcases exists_single each (fun _ _ read => read.outDir)
    (fun _ _ _ => Decode.path_eq_ok_iff.mp) (fun _ _ => HoldsPath.replaces) with
    ⟨outDir, outDirTaken, outDirHeld⟩
  rcases exists_single each (fun _ _ read => read.workDir)
    (fun _ _ _ => Decode.path_eq_ok_iff.mp) (fun _ _ => HoldsPath.replaces) with
    ⟨workDir, workDirTaken, workDirHeld⟩
  rcases exists_single each (fun _ _ read => read.name)
    (fun _ _ _ => holdsNullable_of_nullable fun _ _ => Decode.text_eq_ok_iff.mp)
    (fun _ _ => HoldsNullable.replaces fun _ _ => HoldsText.replaces) with
    ⟨name, nameTaken, nameHeld⟩
  rcases exists_single each (fun _ _ read => read.readme)
    (fun _ _ _ => holdsNullable_of_nullable fun _ _ => Decode.path_eq_ok_iff.mp)
    (fun _ _ => HoldsNullable.replaces fun _ _ => HoldsPath.replaces) with
    ⟨readme, readmeTaken, readmeHeld⟩
  rcases exists_single each (fun _ _ read => read.indexMarker)
    (fun _ _ _ => Decode.text_eq_ok_iff.mp) (fun _ _ => HoldsText.replaces) with
    ⟨indexMarker, indexMarkerTaken, indexMarkerHeld⟩
  rcases exists_choice each (by simp) (fun _ _ read => read.markerPolicy) with
    ⟨markerPolicy, markerPolicyTaken, markerPolicyHeld⟩
  rcases exists_choice each (by simp) (fun _ _ read => read.pageLayout) with
    ⟨pageLayout, pageLayoutTaken, pageLayoutHeld⟩
  rcases exists_command each (by simp) (fun _ _ read => read.install) with
    ⟨install, installTaken, installCombined⟩
  rcases exists_command each (by simp) (fun _ _ read => read.compiler) with
    ⟨compiler, compilerTaken, compilerCombined⟩
  let config : Config :=
    ⟨outDir, workDir, name, readme, indexMarker, markerPolicy, pageLayout, install,
      compiler, layers.flatMap fun layer => layer.2.repositories⟩
  have readFrom : config.ReadFrom merged := by
    constructor <;> rw [find?_merged]
    · exact outDirTaken
    · exact workDirTaken
    · exact nameTaken
    · exact readmeTaken
    · exact indexMarkerTaken
    · exact markerPolicyTaken
    · exact pageLayoutTaken
    · exact installTaken
    · exact compilerTaken
    · exact taken_repositories each
  refine ⟨.object merged, config, isMerged, ?_, ?_, ?_⟩
  · rw [Json.mergeAll_eq_mergeLayers (by simpa using nonempty) objects canonical, isMerged]
  · exact (decode_object_eq_ok_iff sorted.distinct).mpr readFrom
  · exact ⟨outDirHeld, workDirHeld, nameHeld, readmeHeld, indexMarkerHeld,
      markerPolicyHeld, pageLayoutHeld, installCombined, compilerCombined, rfl⟩

/-- A layer of a company, with a repository of its own. -/
def companyLayer : Value :=
  .object [
    ("install", .object [("args", .array [.string "ci"]), ("command", .string "pnpm")]),
    ("name", .string "Company"), ("outDir", .string "/srv/site"),
    ("repositories", .array
      [.object [("name", .string "core"), ("url", .string "git:core")]])]

/-- A layer of a team, which takes the name away and adds an argument and a repository. -/
def teamLayer : Value :=
  .object [
    ("install", .object [("args", .array [.string "--offline"]),
      ("command", .string "yarn"), ("shell", .bool true)]),
    ("markerPolicy", .string "reject"), ("name", .null),
    ("repositories", .array
      [.object [("install", .bool false), ("name", .string "web"),
        ("url", .string "git:web")]])]

/-- The two layers with an empty one between them, each with its own configuration. -/
def companyLayers : List (Value × Config) :=
  [(companyLayer,
      { outDir := ⟨true, ["srv", "site"]⟩
        name := some "Company"
        install := ⟨"pnpm", ["ci"]⟩
        repositories := [{ name := "core", url := "git:core" }] }),
    (.object [], {}),
    (teamLayer,
      { markerPolicy := .reject
        install := ⟨"yarn", ["--offline"]⟩
        repositories := [{ name := "web", url := "git:web", install := false }] })]

theorem canonical_companyLayer : companyLayer.Canonical := by
  refine .object (by decide) ?_
  simp only [List.forall_mem_cons]
  refine ⟨.object (by decide) ?_, .string _, .string _, .array ?_, List.forall_mem_nil _⟩
  · simp only [List.forall_mem_cons]
    exact ⟨.array (List.forall_mem_singleton.mpr (.string _)), .string _,
      List.forall_mem_nil _⟩
  · refine List.forall_mem_singleton.mpr (.object (by decide) ?_)
    simp only [List.forall_mem_cons]
    exact ⟨.string _, .string _, List.forall_mem_nil _⟩

theorem canonical_teamLayer : teamLayer.Canonical := by
  refine .object (by decide) ?_
  simp only [List.forall_mem_cons]
  refine ⟨.object (by decide) ?_, .string _, .null, .array ?_, List.forall_mem_nil _⟩
  · simp only [List.forall_mem_cons]
    exact ⟨.array (List.forall_mem_singleton.mpr (.string _)), .string _, .bool _,
      List.forall_mem_nil _⟩
  · refine List.forall_mem_singleton.mpr (.object (by decide) ?_)
    simp only [List.forall_mem_cons]
    exact ⟨.bool _, .string _, .string _, List.forall_mem_nil _⟩

/-- The team's command runs with the arguments of both, and its null leaves no name. -/
theorem decode_mergeLayers_companyLayers :
    companyLayers ≠ [] ∧
      (∀ layer ∈ companyLayers, StandsAlone layer.1 layer.2) ∧
      ∃ config,
        decode (mergeLayers (companyLayers.map Prod.fst)) = .ok config ∧
          config.Effective companyLayers ∧
          config.name = none ∧
          config.install = ⟨"yarn", ["ci", "--offline"]⟩ ∧
          config.repositories.map Repository.install = [true, false] := by
  have nonempty : companyLayers ≠ [] := List.cons_ne_nil _ _
  have each : ∀ layer ∈ companyLayers, StandsAlone layer.1 layer.2 := by
    simp only [companyLayers, List.forall_mem_cons]
    refine ⟨⟨⟨_, rfl⟩, canonical_companyLayer, rfl, ?_, ?_⟩,
      ⟨⟨_, rfl⟩, .object List.Pairwise.nil (List.forall_mem_nil _), rfl, ?_, ?_⟩,
      ⟨⟨_, rfl⟩, canonical_teamLayer, rfl, ?_, ?_⟩, List.forall_mem_nil _⟩ <;>
    simp [companyLayer, teamLayer, Value.at?_key, Members.find?_cons]
  have decoded : decode (mergeLayers (companyLayers.map Prod.fst)) = .ok
      { outDir := ⟨true, ["srv", "site"]⟩
        install := ⟨"yarn", ["ci", "--offline"]⟩
        markerPolicy := .reject
        repositories := [{ name := "core", url := "git:core" },
          { name := "web", url := "git:web", install := false }] } := rfl
  rcases decode_mergeLayers nonempty each with ⟨merged, config, rfl, -, found, effective⟩
  refine ⟨nonempty, each, config, found, effective, ?_⟩
  rw [← Except.ok.inj (decoded.symm.trans found)]
  exact ⟨rfl, rfl, rfl⟩

end Config

end Concordance
