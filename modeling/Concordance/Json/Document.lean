import Concordance.Json.Token

/-!
# JSON documents as they are read

A `Document` is a JSON text as a reader meets it from front to back: members
keep their order and may repeat a key, and if the text goes wrong, the
document still holds everything in front of that place.  Whoever interprets a
document by going through it in order therefore meets the first problem of
the text first, be it a value of the wrong shape or a fault of the text.

`Reading` is the state of a reader between two tokens: the containers that
are open, the innermost first, and what may come next.  One token leads from
one reading to the next, so reading a text is a single pass over its tokens.
Arrays and objects may nest at most `depthLimit` deep.
-/

namespace Concordance.Json

/-- A JSON text as far as it can be read. -/
inductive Document where
  | null
  | bool (value : Bool)
  | number (value : Number)
  | string (value : String)
  /-- An array, and the fault that kept it from being closed. -/
  | array (items : List Document) (unclosed : Option Fault)
  /-- An object, and the fault that kept it from being closed. -/
  | object (members : List (String × Document)) (unclosed : Option Fault)
  /-- An array that opens below the depth limit. -/
  | deepArray
  /-- An object that opens below the depth limit. -/
  | deepObject
  /-- A fault where a value is expected. -/
  | broken (fault : Fault)
  deriving Repr

/-- How many arrays and objects may be open at once. -/
def depthLimit : Nat := 127

/-- A container that is open: what it holds so far, the latest first. -/
inductive OpenContainer where
  | array (items : List Document)
  /-- An object between two members. -/
  | object (members : List (String × Document))
  /-- An object whose next member has its key but not its value. -/
  | member (members : List (String × Document)) (key : String)
  deriving Repr

/-- What may come next. -/
inductive Expectation where
  /-- A value. -/
  | value
  /-- A value, or the end of an array that has just been opened. -/
  | valueOrEnd
  /-- A key. -/
  | key
  /-- A key, or the end of an object that has just been opened. -/
  | keyOrEnd
  /-- The colon behind a key. -/
  | colon
  /-- A comma, or the end of the innermost container. -/
  | commaOrEnd
  deriving DecidableEq, Repr

/-- The state of a reader between two tokens. -/
inductive Reading where
  /-- The document is not complete. -/
  | inside (stack : List OpenContainer) (expected : Expectation)
  /-- The document is complete. -/
  | complete (document : Document)
  /-- A complete document is followed by something else. -/
  | trailing (document : Document)
  /-- The text went wrong; the document ends at the fault. -/
  | stopped (document : Document)
  deriving Repr

namespace Reading

/-- The reading before the first token. -/
def start : Reading :=
  .inside [] .value

/-- Put a complete value where it belongs. -/
def accept (value : Document) : List OpenContainer → Reading
  | [] => .complete value
  | .array items :: stack => .inside (.array (value :: items) :: stack) .commaOrEnd
  | .object members :: stack => .inside (.object members :: stack) .commaOrEnd
  | .member members key :: stack =>
      .inside (.object ((key, value) :: members) :: stack) .commaOrEnd

/-- The document that an open container becomes when a fault ends the text. -/
def OpenContainer.abandon (fault : Fault) : OpenContainer → Document
  | .array items => .array items.reverse (some fault)
  | .object members => .object members.reverse (some fault)
  | .member members key =>
      .object (((key, .broken fault) :: members).reverse) (some fault)

/-- Close every open container at a fault, around a last incomplete value. -/
def wrap (fault : Fault) (last : Document) : List OpenContainer → Document
  | [] => last
  | .array items :: stack =>
      wrap fault (.array (last :: items).reverse (some fault)) stack
  | .object members :: stack =>
      wrap fault (.object members.reverse (some fault)) stack
  | .member members key :: stack =>
      wrap fault (.object ((key, last) :: members).reverse (some fault)) stack

/-- The document of a text that goes wrong where punctuation or a key is expected. -/
def endBetween (stack : List OpenContainer) (fault : Fault) : Document :=
  match stack with
  | [] => .broken fault
  | container :: outer => wrap fault (OpenContainer.abandon fault container) outer

/-- Open a container, unless too many are open. -/
def descend
    (stack : List OpenContainer)
    (container : OpenContainer)
    (expected : Expectation)
    (tooDeep : Document) : Reading :=
  if stack.length < depthLimit then .inside (container :: stack) expected
  else stopped (wrap .malformed tooDeep stack)

/-- Read the token of a value. -/
def stepValue (stack : List OpenContainer) : Token → Reading
  | .null => accept .null stack
  | .bool value => accept (.bool value) stack
  | .number value => accept (.number value) stack
  | .string value => accept (.string value) stack
  | .openArray => descend stack (.array []) .valueOrEnd .deepArray
  | .openObject => descend stack (.object []) .keyOrEnd .deepObject
  | .broken _ fault => .stopped (wrap fault (.broken fault) stack)
  | .closeArray | .closeObject | .comma | .colon =>
      .stopped (wrap .malformed (.broken .malformed) stack)

/-- Read the token of a key. -/
def stepKey (stack : List OpenContainer) : Token → Reading
  | .string key =>
      match stack with
      | .object members :: outer => .inside (.member members key :: outer) .colon
      | _ => .stopped (endBetween stack .malformed)
  | .broken true fault => .stopped (endBetween stack fault)
  | _ => .stopped (endBetween stack .malformed)

/-- Close the innermost container, which must be of the right kind. -/
def close (stack : List OpenContainer) (token : Token) : Reading :=
  match stack, token with
  | .array items :: outer, .closeArray =>
      accept (.array items.reverse none) outer
  | .object members :: outer, .closeObject =>
      accept (.object members.reverse none) outer
  | _, _ => .stopped (endBetween stack .malformed)

/-- Go on behind a comma. -/
def continueContainer (stack : List OpenContainer) : Reading :=
  match stack with
  | .array _ :: _ => .inside stack .value
  | .object _ :: _ => .inside stack .key
  | _ => .stopped (endBetween stack .malformed)

/-- Read one token. -/
def step : Reading → Token → Reading
  | .inside stack .value, token => stepValue stack token
  | .inside stack .valueOrEnd, .closeArray => close stack .closeArray
  | .inside stack .valueOrEnd, token => stepValue stack token
  | .inside stack .key, token => stepKey stack token
  | .inside stack .keyOrEnd, .closeObject => close stack .closeObject
  | .inside stack .keyOrEnd, token => stepKey stack token
  | .inside stack .colon, .colon => .inside stack .value
  | .inside stack .colon, _ =>
      .stopped (wrap .malformed (.broken .malformed) stack)
  | .inside stack .commaOrEnd, .comma => continueContainer stack
  | .inside stack .commaOrEnd, token => close stack token
  | .complete document, _ => .trailing document
  | .trailing document, _ => .trailing document
  | .stopped document, _ => .stopped document

/-- The document at the end of the text, and the fault behind it if something follows it. -/
def finish : Reading → Document × Option Fault
  | .inside stack .value | .inside stack .colon =>
      (wrap .truncated (.broken .truncated) stack, none)
  | .inside stack _ => (endBetween stack .truncated, none)
  | .complete document => (document, none)
  | .trailing document => (document, some .malformed)
  | .stopped document => (document, none)

end Reading

/-- Read a text: the document it begins with, and the fault behind it if something follows it. -/
def Document.read (text : String) : Document × Option Fault :=
  ((tokens text.toList).foldl Reading.step Reading.start).finish

mutual

/-- The value of a document that has no fault. -/
def Document.value : Document → Except Fault Value
  | .null => .ok .null
  | .bool value => .ok (.bool value)
  | .number value => .ok (.number value)
  | .string value => .ok (.string value)
  | .array items unclosed => do
      let values ← Document.values items
      match unclosed with
      | some fault => .error fault
      | none => pure (.array values)
  | .object members unclosed => do
      let values ← Document.memberValues members
      match unclosed with
      | some fault => .error fault
      | none => pure (.object (Members.ofList values))
  | .deepArray | .deepObject => .error .malformed
  | .broken fault => .error fault

/-- The values of documents, in order, up to the first fault. -/
def Document.values : List Document → Except Fault (List Value)
  | [] => .ok []
  | document :: documents => do
      let value ← document.value
      let values ← Document.values documents
      pure (value :: values)

/-- The values of members, in order, up to the first fault. -/
def Document.memberValues :
    List (String × Document) → Except Fault (List (String × Value))
  | [] => .ok []
  | (key, document) :: members => do
      let value ← document.value
      let values ← Document.memberValues members
      pure ((key, value) :: values)

end

/-- Read a text as a JSON value. -/
def Value.read (text : String) : Except Fault Value := do
  let (document, trailing) := Document.read text
  let value ← document.value
  match trailing with
  | some fault => .error fault
  | none => pure value

end Concordance.Json
