/-!
# Shell scripts

A script is a command, built from simple commands by sequencing, conditions,
pipes and loops.  The words of a command are kept as they are written: plain
and quoted text, and the places where the value of a parameter or the output
of another script is to be put in.
-/

namespace Concordance.Shell

/-- What is done with the value of a parameter before it is put in. -/
structure Modifier where
  /-- Whether an empty value is treated as a missing one. -/
  emptyIsMissing : Bool
  /--
  What is done: `-`, `=` and `+` for other texts, `#`, `##`, `%` and `%%` for
  removing an end.
  -/
  operation : String
  /-- The text or the pattern, still unread. -/
  operand : String
  deriving DecidableEq, Repr

/-- A piece of a word. -/
inductive Piece where
  | text (value : String) (quoted : Bool)
  | parameter (name : String) (modifier : Option Modifier) (quoted : Bool)
  /-- The number of characters of a parameter's value. -/
  | size (name : String)
  /-- The output of a script that is still unread. -/
  | output (script : String) (quoted : Bool)
  deriving DecidableEq, Repr

/-- A word: pieces without a gap. -/
abbrev Word := List Piece

/-- Where a descriptor is led. -/
inductive Target where
  | read (path : Word)
  | write (path : Word)
  | append (path : Word)
  /-- The text that a script brings along. -/
  | here (text : Word)
  /-- Where another descriptor leads. -/
  | same (descriptor : Word)
  deriving DecidableEq, Repr

/-- Leading a descriptor somewhere. -/
structure Redirection where
  descriptor : Nat
  target : Target
  deriving DecidableEq, Repr

/-- A command. -/
inductive Command where
  | nothing
  | simple
      (assignments : List (String × Word))
      (words : List Word)
      (redirections : List Redirection)
  | sequence (first second : Command)
  /-- The second command runs only if the first one succeeds. -/
  | both (first second : Command)
  /-- The second command runs only if the first one fails. -/
  | either (first second : Command)
  | negated (command : Command)
  | pipe (source sink : Command)
  | subshell (body : Command)
  | branch (condition consequent alternative : Command)
  /-- Repeat the body as long as the condition ends with a given success. -/
  | repeated (success : Bool) (condition body : Command)
  /-- Run the body for each word, or for each argument. -/
  | each (variableName : String) (words : Option (List Word)) (body : Command)
  /-- Run the first body of which a pattern matches the word. -/
  | choose (word : Word) (choices : List (List Word × Command))
  | define (name : String) (body : Command)
  | redirected (body : Command) (redirections : List Redirection)
  deriving Repr

end Concordance.Shell
