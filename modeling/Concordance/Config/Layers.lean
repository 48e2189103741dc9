import Concordance.Config.Decode
import Concordance.Config.Merge
import Concordance.Json.Document
import Concordance.Yaml.Value

/-!
# Layers of a configuration

Each directory from the start up to the root may hold a configuration file
and so contribute a layer.  The walk ends early at a ceiling, which still
contributes.  The layers are merged from the outermost to the innermost
directory, so that the file closest to the start has the last word.
-/

namespace Concordance

open Json (Value)

/-- The format of a configuration file. -/
inductive LayerFormat where
  | json
  | yaml
  deriving DecidableEq, Repr

/-- The names of configuration files; in each directory the first one that is there counts. -/
def layerNames : List (String × LayerFormat) :=
  [("doccer.json", .json), ("doccer.yaml", .yaml), ("doccer.yml", .yaml)]

/-- A configuration file with the object that it holds. -/
structure Layer where
  path : Path
  value : Value
  deriving DecidableEq, Repr

/-- The path from the root as seen from the current directory. -/
def Path.absolute (current : Location) (path : Path) : Except OsError Path :=
  match Path.absolute? ⟨true, current⟩ path with
  | some absolute => .ok absolute
  | none => .error .emptyPath

/-- The value that a text writes in some format. -/
def LayerFormat.read (format : LayerFormat) (path : Path) (text : String) :
    Except ConfigError Value :=
  match format with
  | .json => (Value.read text).mapError (.invalidJson path)
  | .yaml =>
      match Yaml.read text with
      | some value => .ok value
      | none => .error (.invalidYaml path)

/-- The configuration file of a directory. -/
def layerFile?
    (files : FileSystem)
    (current : Location)
    (directory : Path) : Option (Path × LayerFormat) :=
  (layerNames.map fun (name, format) => (directory.joinText name, format)).find?
    fun candidate => files.isFile current candidate.1

/-- Read a configuration file; one that holds null contributes nothing. -/
def readLayer
    (files : FileSystem)
    (current : Location)
    (path : Path)
    (format : LayerFormat) : Except ConfigError (Option Layer) := do
  let text ← (files.readText current path).mapError (.unreadable path)
  match ← format.read path text with
  | .null => pure none
  | .object members => pure (some ⟨path, .object members⟩)
  | _ => throw (.notAnObject path)

/-- The layer that a directory contributes. -/
def layerOf
    (files : FileSystem)
    (current : Location)
    (directory : Path) : Except ConfigError (Option Layer) :=
  match layerFile? files current directory with
  | some (path, format) => readLayer files current path format
  | none => .ok none

/-- The layers that directories contribute, up to the first error. -/
def layersOf (files : FileSystem) (current : Location) :
    List Path → Except ConfigError (List Layer)
  | [] => .ok []
  | directory :: directories => do
      let layer ← layerOf files current directory
      let layers ← layersOf files current directories
      pure (layer.toList ++ layers)

/-- Where layers are searched: upwards from a start, as far as a ceiling if there is one. -/
structure LayerSearch where
  start : Path
  ceiling : Option Path := none
  deriving DecidableEq, Repr

namespace LayerSearch

/-- The directories up to the ceiling, or all of them if the ceiling is none of them. -/
def upTo (ceiling : Option Path) : List Path → List Path
  | [] => []
  | directory :: directories =>
      if ceiling.any directory.same then [directory]
      else directory :: upTo ceiling directories

/-- A path of a search from the root. -/
def absolute (current : Location) (path : Path) : Except ConfigError Path :=
  (path.absolute current).mapError (.unreadable path)

/-- The directories that are searched, outermost first. -/
def directories (search : LayerSearch) (current : Location) :
    Except ConfigError (List Path) := do
  let start ← absolute current search.start
  let ceiling ← search.ceiling.mapM (absolute current)
  pure (upTo ceiling start.ancestors).reverse

/-- The layers, outermost first. -/
def layers
    (search : LayerSearch)
    (files : FileSystem)
    (current : Location) : Except ConfigError (List Layer) := do
  let directories ← search.directories current
  layersOf files current directories

/-- The merged value of the layers, and the files that it was made from. -/
def merged
    (search : LayerSearch)
    (files : FileSystem)
    (current : Location) : Except ConfigError (Value × List Path) := do
  let layers ← search.layers files current
  pure (Json.mergeLayers (layers.map Layer.value), layers.map Layer.path)

/-- The configuration that the layers give together, with its paths seen from the start. -/
def load
    (search : LayerSearch)
    (files : FileSystem)
    (current : Location) : Except ConfigError Config := do
  let start ← absolute current search.start
  let (merged, _) ← search.merged files current
  let config ← Config.decode merged
  pure (config.resolve start)

end LayerSearch

end Concordance
