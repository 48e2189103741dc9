import Concordance.Json.Value

/-!
# Documented symbols

What a reflection compiler knows about a symbol: its name, its kind code and
its comment.  Every part also carries the members of the compiler's output
that this library does not interpret, so that they can be written out again.

An `Outline` is a symbol with the outlines of its children, in order of
declaration; it is the shape of a whole project.
-/

namespace Concordance

/-- A block tag of a comment, such as the marker that asks for the index. -/
structure Tag where
  name : String
  text : String
  extra : Json.Members := []
  deriving DecidableEq, Repr

/-- The comment of a symbol. -/
structure Comment where
  text : String
  tags : List Tag
  extra : Json.Members := []
  deriving DecidableEq, Repr

/-- The first tag with a given name. -/
def Comment.findTag? (comment : Comment) (name : String) : Option Tag :=
  comment.tags.find? fun tag => tag.name == name

/-- A documented symbol. -/
structure Symbol where
  name : String
  kindCode : UInt32
  comment : Option Comment := none
  extra : Json.Members := []
  deriving DecidableEq, Repr

/-- A symbol with its descendants. -/
inductive Outline where
  | node (symbol : Symbol) (children : List Outline)
  deriving Repr

namespace Outline

/-- The symbol at the top. -/
def symbol : Outline → Symbol
  | node symbol _ => symbol

/-- The outlines directly below the top. -/
def children : Outline → List Outline
  | node _ children => children

mutual

/-- The symbols, each before its descendants. -/
def symbols : Outline → List Symbol
  | node symbol children => symbol :: symbolsOf children

/-- The symbols of several outlines, one outline after the other. -/
def symbolsOf : List Outline → List Symbol
  | [] => []
  | outline :: outlines => outline.symbols ++ symbolsOf outlines

end

end Outline

end Concordance
