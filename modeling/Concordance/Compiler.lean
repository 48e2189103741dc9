import Concordance.Process
import Concordance.Project

/-!
# The documentation compiler

The compiler is a configured command that is given a project file.  It runs
in the directory of the project file and must leave the expected output.
-/

namespace Concordance

open FileSystem (Step)

/-- What can go wrong while the compiler runs. -/
inductive CompileError where
  | notLaunched (command : String) (cause : OsError)
  | failed (command : String) (status : ExitStatus)
  | missingOutput (path : Path)
  /-- The compiler's work ended without a result. -/
  | abandoned
  deriving DecidableEq, Repr

namespace CompileError

/-- The wording of an error. -/
def message : CompileError → String
  | notLaunched command cause =>
      "failed to launch documentation compiler \x60" ++ command ++ "\x60: "
        ++ cause.message
  | failed command status =>
      "documentation compiler \x60" ++ command ++ "\x60 exited with "
        ++ status.message
  | missingOutput path =>
      "documentation compiler did not produce " ++ path.text
  | abandoned => "compiler worker panicked or was cancelled"

/-- The wording of the cause of an error, if it has one. -/
def cause? : CompileError → Option String
  | notLaunched _ cause => some cause.message
  | failed .. | missingOutput _ | abandoned => none

/-- The wordings of an error and of its cause. -/
def chain (error : CompileError) : List String :=
  error.message :: error.cause?.toList

end CompileError

namespace CommandSpec

/-- The invocation that compiles a project file. -/
def compilation (command : CommandSpec) (projectFile : Path) : Invocation where
  program := command.command
  args := command.args ++ ["--options", projectFile.text]
  directory := projectFile.parent?

/-- Compile a project file; the result is the expected output. -/
def compile
    (command : CommandSpec)
    (launch : Launcher)
    (current : Location)
    (projectFile expected : Path) : Step CompileError Path := do
  let status ← Step.explain (.notLaunched command.command)
    (launch (command.compilation projectFile))
  if !status.isSuccess then throw (.failed command.command status)
  if (← get).exists? current expected then pure expected
  else throw (.missingOutput expected)

/-- Run the compiler for the dump of a project. -/
def reflect
    (command : CommandSpec)
    (launch : Launcher)
    (current : Location)
    (project : Project.ReflectProject) : Step CompileError Path :=
  command.compile launch current project.projectFile project.dump

/-- Run the compiler for the site of a project. -/
def render
    (command : CommandSpec)
    (launch : Launcher)
    (current : Location)
    (project : Project.RenderProject) : Step CompileError Path :=
  command.compile launch current project.projectFile project.outDir

end CommandSpec

end Concordance
