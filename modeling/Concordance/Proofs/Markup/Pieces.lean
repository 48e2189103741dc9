import Mathlib.Data.List.Basic
import Concordance.Markup

/-!
# Reading markup

A reader of markup sees tags, which stand between angle brackets and have a
name and quoted attributes, and the characters between the tags.  The reader
of this module goes over a text one character at a time.  It is strict: an
angle bracket or a quotation mark that is not in its place in a tag makes it
fail, so a text that it reads has these characters nowhere else.

Pieces are printed in the one way in which they are read, and what is printed
of sound pieces is read back as the same pieces.
-/

namespace Concordance.Markup

/-- What stands between angle brackets: a name and attributes with their values. -/
structure Tag where
  name : String
  attributes : List (String × String)
  deriving DecidableEq, Repr

/-- What a reader of markup sees. -/
inductive Piece where
  | char (char : Char)
  | tag (tag : Tag)
  deriving DecidableEq, Repr

/-- The characters of which tags are made. -/
def isReserved (char : Char) : Bool :=
  char == '<' || char == '>' || char == '"'

/-! ### The reader -/

/-- How far a tag has been read. -/
inductive Place where
  /-- Between tags. -/
  | text
  /-- In the name of a tag. -/
  | name (read : List Char)
  /-- In the name of an attribute. -/
  | key (tag : Tag) (read : List Char)
  /-- Before the value of an attribute. -/
  | quote (tag : Tag) (key : String)
  /-- In the value of an attribute. -/
  | value (tag : Tag) (key : String) (read : List Char)
  /-- Behind an attribute. -/
  | gap (tag : Tag)

/-- The tag with one more attribute. -/
def Tag.extend (tag : Tag) (key value : String) : Tag :=
  { tag with attributes := tag.attributes ++ [(key, value)] }

/-- Read one character: where it leads, and the piece that ends with it. -/
def step : Place → Char → Option (Place × Option Piece)
  | .text, char =>
      if char = '<' then some (.name [], none)
      else if isReserved char then none
      else some (.text, some (.char char))
  | .name read, char =>
      if char = '>' then some (.text, some (.tag ⟨String.ofList read, []⟩))
      else if char = ' ' then some (.key ⟨String.ofList read, []⟩ [], none)
      else if isReserved char then none
      else some (.name (read ++ [char]), none)
  | .key tag read, char =>
      if char = '=' then some (.quote tag (String.ofList read), none)
      else if isReserved char || char == ' ' then none
      else some (.key tag (read ++ [char]), none)
  | .quote tag key, char =>
      if char = '"' then some (.value tag key [], none) else none
  | .value tag key read, char =>
      if char = '"' then some (.gap (tag.extend key (String.ofList read)), none)
      else if isReserved char then none
      else some (.value tag key (read ++ [char]), none)
  | .gap tag, char =>
      if char = '>' then some (.text, some (.tag tag))
      else if char = ' ' then some (.key tag [], none)
      else none

/-- The pieces of a text that is read from some place on and ends between tags. -/
def readFrom (place : Place) : List Char → Option (List Piece)
  | [] =>
      match place with
      | .text => some []
      | _ => none
  | char :: rest =>
      match step place char with
      | some (next, piece) => (readFrom next rest).map (piece.toList ++ ·)
      | none => none

/-- The pieces of a text, if it is markup throughout. -/
def read? (text : String) : Option (List Piece) :=
  readFrom .text text.toList

/-! ### The printer -/

/-- An attribute as it stands in a tag. -/
def printAttribute (given : String × String) : List Char :=
  ' ' :: given.1.toList ++ '=' :: '"' :: given.2.toList ++ ['"']

def Tag.print (tag : Tag) : List Char :=
  '<' :: tag.name.toList ++ tag.attributes.flatMap printAttribute ++ ['>']

def Piece.print : Piece → List Char
  | .char letter => [letter]
  | .tag inside => inside.print

/-- The text of several pieces. -/
def print (pieces : List Piece) : List Char :=
  pieces.flatMap Piece.print

@[simp]
theorem print_nil : print [] = [] := rfl

@[simp]
theorem print_cons (piece : Piece) (pieces : List Piece) :
    print (piece :: pieces) = piece.print ++ print pieces :=
  List.flatMap_cons

@[simp]
theorem print_append (first second : List Piece) :
    print (first ++ second) = print first ++ print second :=
  List.flatMap_append

@[simp]
theorem print_map_char (text : List Char) : print (text.map .char) = text := by
  rw [print, List.flatMap_map]
  exact List.flatMap_singleton' text

/-- Whether a text has none of the characters of which tags are made. -/
def Plain (text : List Char) : Prop :=
  ∀ char ∈ text, isReserved char = false

/-- Whether a text may be the name of a tag or of an attribute. -/
def Word (text : List Char) : Prop :=
  ∀ char ∈ text, isReserved char = false ∧ char ≠ ' ' ∧ char ≠ '='

/-- Whether a piece is printed in a way in which it can be told from others. -/
def Piece.Sound : Piece → Prop
  | .char letter => isReserved letter = false
  | .tag inside =>
      Word inside.name.toList ∧
        ∀ given ∈ inside.attributes, Word given.1.toList ∧ Plain given.2.toList

instance (text : List Char) : Decidable (Plain text) :=
  List.decidableBAll _ text

instance (text : List Char) : Decidable (Word text) :=
  List.decidableBAll _ text

instance : DecidablePred Piece.Sound
  | .char _ => inferInstanceAs (Decidable (_ = false))
  | .tag inside =>
      @instDecidableAnd _ _ inferInstance (List.decidableBAll _ inside.attributes)

/-! ### Reading what is printed -/

section

variable {place next : Place} {char : Char} {piece : Option Piece} {rest : List Char}

theorem readFrom_cons
    (stepped : step place char = some (next, piece)) :
    readFrom place (char :: rest) = (readFrom next rest).map (piece.toList ++ ·) := by
  rw [readFrom, stepped]

theorem readFrom_cons_silent
    (stepped : step place char = some (next, none)) :
    readFrom place (char :: rest) = readFrom next rest := by
  rw [readFrom_cons stepped]
  cases readFrom next rest <;> rfl

theorem readFrom_congr
    {other : Place}
    (same : step place char = step other char) :
    readFrom place (char :: rest) = readFrom other (char :: rest) := by
  rw [readFrom, readFrom, same]

/-- Characters that a place gathers are read one after the other. -/
theorem readFrom_append
    {gather : List Char → Place}
    {chars : List Char}
    (gathers : ∀ char ∈ chars, ∀ read,
      step (gather read) char = some (gather (read ++ [char]), none))
    (read : List Char) :
    readFrom (gather read) (chars ++ rest) = readFrom (gather (read ++ chars)) rest := by
  induction chars generalizing read with
  | nil => rw [List.nil_append, List.append_nil]
  | cons char chars induction =>
      rcases List.forall_mem_cons.mp gathers with ⟨first, others⟩
      rw [List.cons_append, readFrom_cons_silent (first read), induction others,
        List.append_assoc]
      rfl

end

theorem Word.step_name
    {name : List Char}
    (word : Word name) :
    ∀ char ∈ name, ∀ read, step (.name read) char = some (.name (read ++ [char]), none) := by
  intro char member read
  rcases word char member with ⟨free, notBlank, -⟩
  have notClosing : char ≠ '>' := by
    rintro rfl
    cases free
  rw [step, if_neg notClosing, if_neg notBlank, if_neg (by simp [free])]

theorem Word.step_key
    {key : List Char}
    (word : Word key)
    (tag : Tag) :
    ∀ char ∈ key, ∀ read,
      step (.key tag read) char = some (.key tag (read ++ [char]), none) := by
  intro char member read
  rcases word char member with ⟨free, notBlank, notEquals⟩
  rw [step, if_neg notEquals, if_neg (by simp [free, notBlank])]

theorem Plain.step_value
    {value : List Char}
    (plain : Plain value)
    (tag : Tag)
    (key : String) :
    ∀ char ∈ value, ∀ read,
      step (.value tag key read) char = some (.value tag key (read ++ [char]), none) := by
  intro char member read
  have free := plain char member
  have notQuote : char ≠ '"' := by
    rintro rfl
    cases free
  rw [step, if_neg notQuote, if_neg (by simp [free])]

/-- An attribute is read from its name on. -/
theorem readFrom_attribute
    {key value : String}
    (word : Word key.toList)
    (plain : Plain value.toList)
    (tag : Tag)
    (rest : List Char) :
    readFrom (.key tag []) (key.toList ++ '=' :: '"' :: value.toList ++ '"' :: rest) =
      readFrom (.gap (tag.extend key value)) rest := by
  have equals : step (.key tag key.toList) '=' = some (.quote tag key, none) := by
    simp [step]
  have opening : step (.quote tag key) '"' = some (.value tag key [], none) := rfl
  have closing : step (.value tag key value.toList) '"' =
      some (.gap (tag.extend key value), none) := by
    simp [step]
  rw [List.append_assoc, readFrom_append (word.step_key tag), List.nil_append,
    List.cons_append, readFrom_cons_silent equals, List.cons_append,
    readFrom_cons_silent opening, readFrom_append (plain.step_value tag key),
    List.nil_append, readFrom_cons_silent closing]

/-- Attributes are read one after the other, and then the tag is complete. -/
theorem readFrom_attributes
    {attributes : List (String × String)}
    (sound : ∀ given ∈ attributes, Word given.1.toList ∧ Plain given.2.toList)
    (tag : Tag)
    (rest : List Char) :
    readFrom (.gap tag) (attributes.flatMap printAttribute ++ '>' :: rest) =
      (readFrom .text rest).map
        (.tag { tag with attributes := tag.attributes ++ attributes } :: ·) := by
  induction attributes generalizing tag with
  | nil =>
      have closing : step (.gap tag) '>' = some (.text, some (.tag tag)) := rfl
      rw [List.append_nil]
      exact readFrom_cons closing
  | cons given attributes induction =>
      rcases given with ⟨key, value⟩
      rcases List.forall_mem_cons.mp sound with ⟨⟨word, plain⟩, others⟩
      have blank : step (.gap tag) ' ' = some (.key tag [], none) := rfl
      have text :
          ((key, value) :: attributes).flatMap printAttribute ++ '>' :: rest =
            ' ' :: (key.toList ++ '=' :: '"' :: value.toList
              ++ '"' :: (attributes.flatMap printAttribute ++ '>' :: rest)) := by
        simp [printAttribute]
      rw [text, readFrom_cons_silent blank, readFrom_attribute word plain,
        induction others, Tag.extend, List.append_assoc]
      rfl

theorem step_name_eq_gap
    {char : Char}
    (ends : char = ' ' ∨ char = '>')
    (name : String) :
    step (.name name.toList) char = step (.gap ⟨name, []⟩) char := by
  rcases ends with rfl | rfl <;> simp [step]

theorem readFrom_tag
    {tag : Tag}
    (sound : (Piece.tag tag).Sound)
    (rest : List Char) :
    readFrom .text (tag.print ++ rest) = (readFrom .text rest).map (.tag tag :: ·) := by
  rcases tag with ⟨name, attributes⟩
  rcases sound with ⟨word, sound⟩
  have opening : step .text '<' = some (.name [], none) := rfl
  have text : (Tag.mk name attributes).print ++ rest =
      '<' :: (name.toList ++ (attributes.flatMap printAttribute ++ '>' :: rest)) := by
    simp [Tag.print]
  -- A name ends where an attribute ends: at a blank or at the closing bracket.
  have afterName :
      readFrom (.name name.toList) (attributes.flatMap printAttribute ++ '>' :: rest) =
        readFrom (.gap ⟨name, []⟩) (attributes.flatMap printAttribute ++ '>' :: rest) := by
    cases attributes with
    | nil => exact readFrom_congr (step_name_eq_gap (.inr rfl) name)
    | cons given attributes => exact readFrom_congr (step_name_eq_gap (.inl rfl) name)
  rw [text, readFrom_cons_silent opening, readFrom_append word.step_name, List.nil_append,
    afterName, readFrom_attributes sound, List.nil_append]

/-- What is printed of sound pieces is read back. -/
theorem readFrom_print
    {pieces : List Piece}
    (sound : ∀ piece ∈ pieces, piece.Sound) :
    readFrom .text (print pieces) = some pieces := by
  induction pieces with
  | nil => rfl
  | cons piece pieces induction =>
      rcases List.forall_mem_cons.mp sound with ⟨first, others⟩
      rw [print_cons]
      cases piece with
      | char char =>
          have notOpening : char ≠ '<' := by
            rintro rfl
            cases first
          have free : isReserved char = false := first
          have stepped : step .text char = some (.text, some (.char char)) := by
            rw [step, if_neg notOpening, if_neg (by simp [free])]
          change readFrom .text (char :: print pieces) = _
          rw [readFrom_cons stepped, induction others]
          rfl
      | tag tag =>
          change readFrom .text (tag.print ++ print pieces) = _
          rw [readFrom_tag first, induction others]
          rfl

example : read? "<a href=\"x\">b</a>" =
    some [.tag ⟨"a", [("href", "x")]⟩, .char 'b', .tag ⟨"/a", []⟩] := by
  decide

example : read? "a < b" = none := by
  decide

end Concordance.Markup
