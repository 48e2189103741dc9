import Concordance.Config.Decode
import Concordance.EntryPoints
import Concordance.Json.Printer

/-!
# Project files of the documentation compiler

A build runs the compiler twice, each time with a project file in the working
directory that holds the options.  The first project turns the entry points
of all repositories into one dump; the second one merges the indexed dump
back in and writes the site.  An indexed readme is put into a file of its own
next to the second project file, which then names it as the readme.
-/

namespace Concordance.Project

open Json (Value Members)

/-- The options of one compiler run. -/
structure Options where
  entryPoints : List Path
  strategy : Option String := none
  out : Option Path := none
  json : Option Path := none
  name : Option String := none
  readme : Option Path := none
  deriving DecidableEq, Repr

/-- The project file of the first run. -/
def projectFileName : String := "typedoc.json"

/-- The project file of the second run. -/
def renderFileName : String := "typedoc.render.json"

/-- The dump of the first run. -/
def dumpFileName : String := "reflection.json"

/-- The file of the indexed readme. -/
def readmeFileName : String := "readme.indexed.md"

namespace Options

/-- The options of the first run: all entry points in order, and a dump as the only output. -/
def reflect (config : Config) (entryPoints : List EntryPoints) : Options where
  entryPoints := entryPoints.flatMap EntryPoints.files
  json := some (config.workDir.joinText dumpFileName)
  name := config.name
  readme := config.readme

/-- The options of the second run: the dump as the only entry point, and the site as the output. -/
def render (config : Config) (dump : Path) (readme : Option Path) : Options where
  entryPoints := [dump]
  strategy := some "merge"
  out := some config.outDir
  name := config.name
  readme := readme.or config.readme

/-- A member that is left out if it has no value. -/
def optionalMember (key : String) (value : Option Value) : Members :=
  (value.map fun value => (key, value)).toList

/-- The options as a JSON object. -/
def value (options : Options) : Value :=
  .object <|
    [("entryPoints", .array (options.entryPoints.map Config.pathValue))]
      ++ optionalMember "entryPointStrategy" (options.strategy.map .string)
      ++ optionalMember "out" (options.out.map Config.pathValue)
      ++ optionalMember "json" (options.json.map Config.pathValue)
      ++ optionalMember "name" (options.name.map .string)
      ++ optionalMember "readme" (options.readme.map Config.pathValue)

/-- The text of a project file. -/
def text (options : Options) : String :=
  options.value.pretty

end Options

/-- What can go wrong while a project file is written. -/
inductive ProjectError where
  | unwritable (path : Path) (cause : OsError)
  deriving DecidableEq, Repr

/-- The wording of an error. -/
def ProjectError.message : ProjectError → String
  | .unwritable path cause =>
      "failed to write compiler project file " ++ path.text ++ ": "
        ++ cause.message

/-- The wordings of an error and of its cause. -/
def ProjectError.chain : ProjectError → List String
  | .unwritable path cause =>
      [ProjectError.message (.unwritable path cause), cause.message]

/-- The first project on disk: its file and where its dump will lie. -/
structure ReflectProject where
  projectFile : Path
  dump : Path
  deriving DecidableEq, Repr

/-- The second project on disk: its file, the dump it reads and where the site will lie. -/
structure RenderProject where
  projectFile : Path
  dump : Path
  outDir : Path
  deriving DecidableEq, Repr

open FileSystem (Step)

/-- Write a text into a file, making the directories above it. -/
def write (current : Location) (path : Path) (text : String) :
    Step ProjectError Unit :=
  Step.explain (.unwritable path) do
    match path.parent? with
    | some parent => FileSystem.makeDirectories current parent
    | none => pure ()
    Step.change fun files => files.writeText current path text

/-- Write the first project. -/
def emit
    (current : Location)
    (config : Config)
    (entryPoints : List EntryPoints) : Step ProjectError ReflectProject := do
  let path := config.workDir.joinText projectFileName
  write current path (Options.reflect config entryPoints).text
  pure ⟨path, config.workDir.joinText dumpFileName⟩

/-- Write the indexed readme, if there is one. -/
def emitReadme
    (current : Location)
    (config : Config)
    (readme : Option String) : Step ProjectError (Option Path) :=
  match readme with
  | some text => do
      let path := config.workDir.joinText readmeFileName
      write current path text
      pure (some path)
  | none => pure none

/-- Write the second project. -/
def emitRender
    (current : Location)
    (config : Config)
    (dump : Path)
    (readme : Option String) : Step ProjectError RenderProject := do
  let readmePath ← emitReadme current config readme
  let path := config.workDir.joinText renderFileName
  write current path (Options.render config dump readmePath).text
  pure ⟨path, dump, config.outDir⟩

end Concordance.Project
