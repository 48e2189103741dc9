import Concordance.Build
import Concordance.CommandLine.Arguments
import Concordance.Config.Overrides

/-!
# Carrying out a command

A command works on the file system from a current directory and ends with
what it prints, or with an error that is shown with its causes, outermost
first.
-/

namespace Concordance.CommandLine

open FileSystem (Step)

/-- What can go wrong while a command is carried out. -/
inductive CommandError where
  | config (cause : DirectoryConfigError)
  | build (cause : Build.BuildError)
  | index (input : Path) (cause : Index.DumpError)
  deriving DecidableEq, Repr

/-- The wordings of an error and of its causes, outermost first. -/
def CommandError.chain : CommandError → List String
  | .config cause => cause.chain
  | .build cause => cause.chain
  | .index input cause => ("Failed to index " ++ input.text) :: cause.chain

/-- Where a command is carried out. -/
structure Setting where
  current : Location
  environment : Environment
  launch : Launcher

namespace Setting

/-- The configuration of the directory that a command is given, or of the current one. -/
def config (setting : Setting) (directory : Option Path) : Step CommandError Config :=
  Step.look fun files =>
    (Config.ofDirectory files setting.current setting.environment
      (directory.getD ⟨true, setting.current⟩)).mapError .config

/-- A whole build as one step. -/
def build (setting : Setting) (config : Config) : Step CommandError Build.BuildReport :=
  Step.explain .build <| ExceptT.mk do
    let tools := Toolchain.ofConfig setting.launch setting.current config
    let (result, progress) :=
      Id.run ((Build.run config setting.current tools).run ⟨← get, []⟩)
    set progress.files
    pure result

end Setting

/-- What a build prints. -/
def buildText (report : Build.BuildReport) : String :=
  "Built documentation for " ++ Nat.repr report.repositories.length
    ++ " repositories into " ++ report.outDir.text ++ "; index has "
    ++ Nat.repr report.index.entries ++ " entries.\n"

/-- What an injection prints. -/
def indexText (report : Index.Report) : String :=
  "Indexed " ++ Nat.repr report.entries ++ " entries into "
    ++ Nat.repr report.injected.length ++ " site(s); "
    ++ Nat.repr report.skipped.length ++ " marker(s) skipped.\n"

/-- Carry out a command; the result is what it prints. -/
def Command.run (setting : Setting) : Command → Step CommandError String
  | .build directory => do
      let config ← setting.config directory
      let report ← setting.build config
      pure (buildText report)
  | .index input output injector => do
      let (report, _) ← Step.explain (.index input)
        (Index.indexFile injector setting.current input output)
      pure (indexText report)
  | .config directory => do
      let config ← setting.config directory
      pure (config.value.pretty ++ "\n")

end Concordance.CommandLine
