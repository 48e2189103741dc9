import Concordance.Config.Basic

/-!
# Checkout directories

Each repository is checked out in a directory of its own, directly below the
working directory, named for the repository and its version.
-/

namespace Concordance

/-- Whether a character separates the parts of a path or of an address. -/
def isPathSeparator (char : Char) : Bool :=
  char == '/' || char == '\\' || char == ':'

/-- The name of the directory of a repository. -/
def Repository.checkoutName (repository : Repository) : String :=
  let written := repository.name ++ "_" ++ repository.reference
  String.ofList <| written.toList.map fun char =>
    if isPathSeparator char then '_' else char

/-- The directory of a repository. -/
def Repository.checkoutDirectory (repository : Repository) (workDir : Path) : Path :=
  workDir.join ⟨false, [repository.checkoutName]⟩

end Concordance
