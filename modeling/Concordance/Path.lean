import Concordance.Text.Split

/-!
# Paths

A path is written as pieces between slashes, behind a leading slash if it
starts at the root.  The pieces are kept as they are written: nothing is
normalised, so that a path is shown as it was given.

What a path means is told by its components, which leave out empty pieces
and pieces that stay in place; only a leading dot counts.  Two paths with the
same components are the same place, and paths are ordered by their
components.  `parent?`, `ancestors` and `stripBase?` follow the components and
keep the text of the pieces that remain.
-/

namespace Concordance

/-- A path: whether it starts at the root, and its pieces between slashes. -/
structure Path where
  rooted : Bool
  pieces : List String
  deriving DecidableEq, Repr

namespace Path

/-- The path that a text writes. -/
def ofText (text : String) : Path :=
  match text.toList with
  | [] => ⟨false, []⟩
  | ['/'] => ⟨true, []⟩
  | '/' :: rest => ⟨true, (Text.splitChars '/' rest).map String.ofList⟩
  | chars => ⟨false, (Text.splitChars '/' chars).map String.ofList⟩

/-- The text of a path. -/
def text (path : Path) : String :=
  (if path.rooted then "/" else "") ++ "/".intercalate path.pieces

instance : ToString Path := ⟨text⟩

/-- The empty path. -/
def empty : Path := ⟨false, []⟩

/-- What a piece of a path contributes to its meaning, in the order in which paths are sorted. -/
inductive Component where
  | root
  | current
  | parent
  | name (text : String)
  deriving DecidableEq, Repr

/-- The component that a piece stands for; a dot counts only in front. -/
def component? (leading : Bool) (piece : String) : Option Component :=
  if piece = "" then none
  else if piece = "." then (if leading then some .current else none)
  else if piece = ".." then some .parent
  else some (.name piece)

/-- The components of pieces, of which the first may be a leading one. -/
def piecesComponents (leading : Bool) : List String → List Component
  | [] => []
  | piece :: pieces =>
      (component? leading piece).toList ++ pieces.filterMap (component? false)

/-- The components of a path. -/
def components (path : Path) : List Component :=
  (if path.rooted then [.root] else [])
    ++ piecesComponents (!path.rooted) path.pieces

/-- Whether two paths have the same components. -/
def same (left right : Path) : Bool :=
  left.components == right.components

/-- The order of components: root, dot, double dot, names by their text. -/
def Component.lt : Component → Component → Bool
  | .root, .root => false
  | .root, _ => true
  | _, .root => false
  | .current, .current => false
  | .current, _ => true
  | _, .current => false
  | .parent, .parent => false
  | .parent, _ => true
  | _, .parent => false
  | .name left, .name right => left < right

/-- The order of component lists, first difference first. -/
def componentsLt : List Component → List Component → Bool
  | _, [] => false
  | [], _ :: _ => true
  | left :: lefts, right :: rights =>
      left.lt right || (left == right && componentsLt lefts rights)

/-- The order of paths. -/
def lt (left right : Path) : Bool :=
  componentsLt left.components right.components

/-! ### Joining -/

/-- The pieces in front of which further ones can be put: a last empty piece makes room. -/
def openPieces (pieces : List String) : List String :=
  if pieces.getLast? = some "" then pieces.dropLast else pieces

/--
A path as seen from another one: a rooted path stays as it is, the empty one
adds a slash at the end.
-/
def join (base path : Path) : Path :=
  if path.rooted then path
  else if base.pieces.isEmpty then ⟨base.rooted, path.pieces⟩
  else
    ⟨base.rooted,
      openPieces base.pieces
        ++ (if path.pieces.isEmpty then [""] else path.pieces)⟩

/-- A path followed by the path that a text writes. -/
def joinText (base : Path) (text : String) : Path :=
  base.join (ofText text)

/-! ### Parents -/

/-- Drop the pieces at the end that contribute no component. -/
def trimPieces (leading : Bool) : List String → List String
  | [] => []
  | piece :: pieces =>
      match trimPieces false pieces with
      | [] => if (component? leading piece).isSome then [piece] else []
      | kept => piece :: kept

theorem length_trimPieces (leading : Bool) (pieces : List String) :
    (trimPieces leading pieces).length ≤ pieces.length := by
  induction pieces generalizing leading with
  | nil => simp [trimPieces]
  | cons piece pieces inductionHypothesis =>
    have bound := inductionHypothesis false
    unfold trimPieces
    split
    · split <;> simp
    · simp only [List.length_cons]
      omega

/-- The pieces of the parent: without the last piece that contributes a component. -/
def parentPieces? (leading : Bool) (pieces : List String) : Option (List String) :=
  match trimPieces leading pieces with
  | [] => none
  | piece :: kept => some (trimPieces leading (piece :: kept).dropLast)

theorem length_parentPieces?
    {leading : Bool}
    {pieces parent : List String}
    (found : parentPieces? leading pieces = some parent) :
    parent.length < pieces.length := by
  have bound := length_trimPieces leading pieces
  unfold parentPieces? at found
  split at found
  · simp at found
  · rename_i piece kept trimmed
    have shorter := length_trimPieces leading (piece :: kept).dropLast
    simp only [Option.some.injEq] at found
    subst found
    rw [trimmed] at bound
    simp only [List.length_dropLast, List.length_cons] at shorter bound
    omega

/-- The path without its last component; the root and the empty path have no parent. -/
def parent? (path : Path) : Option Path :=
  (parentPieces? (!path.rooted) path.pieces).map fun pieces =>
    ⟨path.rooted, pieces⟩

/-- The path, its parent, the parent's parent and so on. -/
def ancestors (path : Path) : List Path :=
  match _found : parentPieces? (!path.rooted) path.pieces with
  | none => [path]
  | some pieces => path :: ancestors ⟨path.rooted, pieces⟩
termination_by path.pieces.length
decreasing_by exact length_parentPieces? ‹_›

/-! ### Relative paths -/

/--
Drop pieces from the front until some number of components is gone, and the
pieces behind them that contribute none.
-/
def dropComponents (leading : Bool) : Nat → List String → List String
  | _, [] => []
  | 0, piece :: pieces =>
      if (component? leading piece).isSome then piece :: pieces
      else dropComponents false 0 pieces
  | count + 1, piece :: pieces =>
      if (component? leading piece).isSome then dropComponents false count pieces
      else dropComponents false (count + 1) pieces

/-- The rest of a path behind a base whose components it begins with. -/
def stripBase? (path base : Path) : Option Path :=
  if base.components.isEmpty then some path
  else if base.components.isPrefixOf path.components then
    let count := base.components.length - (if base.rooted then 1 else 0)
    let pieces := dropComponents (!path.rooted) count path.pieces
    some ⟨false, trimPieces false pieces⟩
  else none

/-! ### Absolute paths -/

/-- The pieces that contribute a component other than a leading dot. -/
def plainPieces (pieces : List String) : List String :=
  pieces.filter fun piece => (component? false piece).isSome

/-- Whether a path begins with exactly two slashes. -/
def hasDoubleRoot (path : Path) : Bool :=
  path.rooted &&
    match path.pieces with
    | ["", ""] => true
    | "" :: piece :: _ => piece != ""
    | _ => false

/-- Whether a path ends with a slash. -/
def endsWithSlash (path : Path) : Bool :=
  match path.pieces.getLast? with
  | some piece => piece == ""
  | none => path.rooted

/-- The path without the slashes at its end. -/
def withoutEndSlash (path : Path) : Path :=
  ⟨path.rooted, (path.pieces.reverse.dropWhile (· == "")).reverse⟩

/--
The path from the root: seen from a directory, without empty pieces and dots.
A double slash in front and a slash at the end are kept, double dots too.
The empty path has no such form.
-/
def absolute? (directory path : Path) : Option Path :=
  if path = empty then none
  else
    let plain := plainPieces path.pieces
    let front :=
      if path.hasDoubleRoot then
        ⟨true, "" :: (if plain.isEmpty then [""] else plain)⟩
      else if path.rooted then ⟨true, plain⟩
      else if plain.isEmpty then directory
      else directory.join ⟨false, plain⟩
    some (if path.endsWithSlash then front.join empty else front)

end Path

end Concordance
