import Concordance.Yaml.Text

/-!
# YAML tokens

A YAML text is cut into tokens from left to right.  Indentation becomes
tokens too: a block collection begins where a line is indented deeper than
the collection around it, and ends where a line is indented less.

That a scalar is a key shows only at the colon behind it.  Every place where
a key may begin is therefore remembered, one for each level of nesting; at
the colon the tokens of the key, and of the mapping that it may open, are put
in at that place.  A key has to lie on one line and in 1024 characters.
-/

namespace Concordance.Yaml

/-- The tokens of YAML. -/
inductive Token where
  | version (major minor : Nat)
  | tagDirective (handle expansion : String)
  | documentStart
  | documentEnd
  | blockSequenceStart
  | blockMappingStart
  | blockEnd
  | flowSequenceStart
  | flowSequenceEnd
  | flowMappingStart
  | flowMappingEnd
  | blockEntry
  | flowEntry
  | key
  | value
  | alias (name : String)
  | anchor (name : String)
  | tag (handle suffix : String)
  | scalar (text : String) (plain : Bool)
  deriving DecidableEq, Repr

/-- A place where a key may begin. -/
structure KeyPlace where
  /-- Whether what begins there must be a key. -/
  required : Bool
  /-- How many tokens stand before it. -/
  tokenCount : Nat
  index : Nat
  line : Nat
  column : Nat
  deriving Repr

/-- The state between two tokens. -/
structure Scanner where
  cursor : Cursor
  /-- The tokens so far, the latest first. -/
  tokens : List Token := []
  tokenCount : Nat := 0
  /-- How many flow collections are open. -/
  flowDepth : Nat := 0
  /-- The column of the innermost block collection, or minus one. -/
  indent : Int := -1
  /-- The columns of the block collections around it. -/
  outerIndents : List Int := []
  /-- Whether a key may begin here. -/
  keyAllowed : Bool := true
  /-- The remembered place of each level of nesting, the innermost first. -/
  keyPlaces : List (Option KeyPlace) := [none]
  deriving Repr

namespace Scanner

/-- Whether a flow collection is open. -/
def inFlow (scanner : Scanner) : Bool :=
  scanner.flowDepth != 0

/-- Add a token. -/
def emit (scanner : Scanner) (token : Token) : Scanner :=
  { scanner with
    tokens := token :: scanner.tokens
    tokenCount := scanner.tokenCount + 1 }

/-- Put a token in behind the first `count` tokens. -/
def insertAt (scanner : Scanner) (count : Nat) (token : Token) : Scanner :=
  let later := scanner.tokenCount - count
  { scanner with
    tokens :=
      scanner.tokens.take later ++ token :: scanner.tokens.drop later
    tokenCount := scanner.tokenCount + 1 }

/-- Go on by a number of characters. -/
def skip (scanner : Scanner) (count : Nat) : Scanner :=
  { scanner with cursor := scanner.cursor.skip count }

/-- Say whether a key may begin at the next token. -/
def allowKey (scanner : Scanner) (allowed : Bool) : Scanner :=
  { scanner with keyAllowed := allowed }

/-! ### Between tokens -/

/-- Go on over blanks, comments and line breaks. -/
def skipGap : (fuel : Nat) → Scanner → Scanner
  | 0, scanner => scanner
  | fuel + 1, scanner =>
      let cursor := scanner.cursor
      let cursor :=
        if cursor.column == 0 && cursor.isAt byteOrderMark then cursor.skip 1
        else cursor
      let tabs := scanner.inFlow || !scanner.keyAllowed
      let cursor :=
        cursor.skipWhile fun char => char == ' ' || (tabs && char == '\t')
      let cursor := if cursor.isAt '#' then cursor.skipToLineEnd else cursor
      if cursor.peek?.any isBreak then
        skipGap fuel
          { scanner with
            cursor := cursor.skipBreak
            keyAllowed := scanner.keyAllowed || !scanner.inFlow }
      else { scanner with cursor := cursor }

/-- Whether a remembered place is too far behind to be that of a key. -/
def isStale (cursor : Cursor) (place : KeyPlace) : Bool :=
  place.line < cursor.line || place.index + 1024 < cursor.index

/-- Forget the places that are too far behind; it is an error if one of them must be a key. -/
def dropStale (scanner : Scanner) : Option Scanner := do
  let places ← scanner.keyPlaces.mapM fun place =>
    match place with
    | none => some none
    | some place =>
        if isStale scanner.cursor place then
          (if place.required then none else some none)
        else some (some place)
  pure { scanner with keyPlaces := places }

/-- Forget the place of the innermost level; it is an error if it must be a key. -/
def dropPlace (scanner : Scanner) : Option Scanner :=
  match scanner.keyPlaces with
  | some place :: outer =>
      if place.required then none
      else some { scanner with keyPlaces := none :: outer }
  | _ => some scanner

/-- Remember the place as one where a key may begin. -/
def savePlace (scanner : Scanner) : Option Scanner :=
  if scanner.keyAllowed then do
    let scanner ← scanner.dropPlace
    let cursor := scanner.cursor
    let place : KeyPlace :=
      { required := !scanner.inFlow && scanner.indent == (cursor.column : Int)
        tokenCount := scanner.tokenCount
        index := cursor.index
        line := cursor.line
        column := cursor.column }
    pure { scanner with
      keyPlaces := some place :: scanner.keyPlaces.drop 1 }
  else some scanner

/-! ### Indentation -/

/-- Open a block collection if a column lies deeper than the one that is open. -/
def openBlock
    (scanner : Scanner)
    (column : Nat)
    (position : Nat)
    (token : Token) : Scanner :=
  if scanner.inFlow || (column : Int) ≤ scanner.indent then scanner
  else
    { scanner.insertAt position token with
      outerIndents := scanner.indent :: scanner.outerIndents
      indent := column }

/-- The indentations that remain when those deeper than a column are left, and how many are left. -/
def leave (column : Int) : Int → List Int → Int × List Int × Nat
  | indent, [] => (indent, [], 0)
  | indent, outer :: rest =>
      if column < indent then
        let (indent, rest, count) := leave column outer rest
        (indent, rest, count + 1)
      else (indent, outer :: rest, 0)

/-- Close the block collections that lie deeper than a column. -/
def closeBlocks (scanner : Scanner) (column : Int) : Scanner :=
  if scanner.inFlow then scanner
  else
    let (indent, outer, count) :=
      leave column scanner.indent scanner.outerIndents
    { scanner with
      indent := indent
      outerIndents := outer
      tokens := List.replicate count .blockEnd ++ scanner.tokens
      tokenCount := scanner.tokenCount + count }

/-! ### Directives -/

/-- Read the word that names a directive. -/
def readWord (cursor : Cursor) : String × Cursor :=
  let word := cursor.rest.takeWhile isWordChar
  (String.ofList word, cursor.skip word.length)

/-- Read a number of at most nine digits. -/
def readVersionNumber (cursor : Cursor) : Option (Nat × Cursor) :=
  let digits := cursor.rest.takeWhile Char.isDigit
  if digits.isEmpty || 9 < digits.length then none
  else some (Json.digitsValue digits, cursor.skip digits.length)

/-- Read the handle of a tag; in a directive it must be complete. -/
def readHandle (directive : Bool) (cursor : Cursor) : Option (String × Cursor) :=
  match cursor.rest with
  | '!' :: rest =>
      let word := rest.takeWhile isWordChar
      let cursor := cursor.skip (word.length + 1)
      if cursor.isAt '!' then
        some (String.ofList ('!' :: word ++ ['!']), cursor.skip 1)
      else if directive && !word.isEmpty then none
      else some (String.ofList ('!' :: word), cursor)
  | _ => none

/-- A character that may stand in the name of a tag. -/
def isTagChar (verbatim : Bool) (char : Char) : Bool :=
  isWordChar char || ";/?:@&=+$.%!~*'()".toList.contains char
    || (verbatim && (char == ',' || char == '[' || char == ']'))

/-- The bytes that a sequence of percent signs with two digits writes, and the rest. -/
def takeEscapes : List Char → List UInt8 × List Char
  | '%' :: high :: low :: rest =>
      match hexNumber? [high, low] with
      | some byte =>
          let (bytes, rest) := takeEscapes rest
          (UInt8.ofNat byte :: bytes, rest)
      | none => ([], '%' :: high :: low :: rest)
  | rest => ([], rest)

/-- Read the escapes in the name of a tag. -/
def unescapeTag : (fuel : Nat) → List Char → Option (List Char)
  | 0, _ => none
  | _, [] => some []
  | fuel + 1, '%' :: rest => do
      let (bytes, rest) := takeEscapes ('%' :: rest)
      if bytes.isEmpty then none
      else
        let text ← String.fromUTF8? (ByteArray.mk bytes.toArray)
        let rest ← unescapeTag fuel rest
        pure (text.toList ++ rest)
  | fuel + 1, char :: rest => do
      let rest ← unescapeTag fuel rest
      pure (char :: rest)

/-- Read the name of a tag behind a head of which the first character is left out. -/
def readTagName (verbatim : Bool) (head : List Char) (cursor : Cursor) :
    Option (String × Cursor) := do
  let written := cursor.rest.takeWhile (isTagChar verbatim)
  let name ← unescapeTag (written.length + 1) written
  if head.isEmpty && written.isEmpty then none
  else
    pure (String.ofList (head.drop 1 ++ name), cursor.skip written.length)

/-- Read the version behind the name of its directive. -/
def readVersion (cursor : Cursor) : Option (Token × Cursor) := do
  let (major, cursor) ← readVersionNumber cursor.skipBlanks
  if !cursor.isAt '.' then none
  else
    let (minor, cursor) ← readVersionNumber (cursor.skip 1)
    pure (.version major minor, cursor)

/-- Read a handle and its meaning behind the name of their directive. -/
def readTagDirective (cursor : Cursor) : Option (Token × Cursor) := do
  let (handle, cursor) ← readHandle true cursor.skipBlanks
  if !cursor.peek?.any isBlank then none
  else
    let (expansion, cursor) ← readTagName true [] cursor.skipBlanks
    if atGap cursor.rest then pure (.tagDirective handle expansion, cursor)
    else none

/-- Read a directive behind its percent sign, to the end of its line. -/
def readDirective (cursor : Cursor) : Option (Token × Cursor) := do
  let (name, cursor) := readWord cursor
  if name.isEmpty || !atGap cursor.rest then none
  else
    let (token, cursor) ←
      match name with
      | "YAML" => readVersion cursor
      | "TAG" => readTagDirective cursor
      | _ => none
    let cursor := cursor.skipBlanks
    let cursor := if cursor.isAt '#' then cursor.skipToLineEnd else cursor
    if atLineEnd cursor.rest then pure (token, cursor.skipBreak) else none

/-! ### Properties of nodes -/

/-- Read the name of an anchor or an alias behind its sign. -/
def readAnchorName (cursor : Cursor) : Option (String × Cursor) :=
  let (name, cursor) := readWord cursor
  let ends := atGap cursor.rest
    || cursor.peek?.any fun char => "?:,]\x7d%@\x60".toList.contains char
  if name.isEmpty || !ends then none else some (name, cursor)

/-- Read a tag written out in full, behind its opening. -/
def readVerbatimTag (cursor : Cursor) : Option (Token × Cursor) := do
  let (name, cursor) ← readTagName true [] cursor
  if cursor.isAt '>' then pure (.tag "" name, cursor.skip 1) else none

/-- Read a tag with a handle, or with the handle of one exclamation mark. -/
def readShortTag (cursor : Cursor) : Option (Token × Cursor) := do
  let (handle, cursor) ← readHandle false cursor
  if 1 < handle.length && handle.back == '!' then
    let (name, cursor) ← readTagName false [] cursor
    pure (.tag handle name, cursor)
  else
    let (name, cursor) ← readTagName false handle.toList cursor
    if name.isEmpty then pure (.tag "" "!", cursor)
    else pure (.tag "!" name, cursor)

/-- Read a tag. -/
def readTag (inFlow : Bool) (cursor : Cursor) : Option (Token × Cursor) := do
  let (token, cursor) ←
    match cursor.rest with
    | '!' :: '<' :: _ => readVerbatimTag (cursor.skip 2)
    | _ => readShortTag cursor
  if atGap cursor.rest || (inFlow && cursor.isAt ',') then pure (token, cursor)
  else none

/-! ### Tokens -/

/-- Add a token that has been read. -/
def emitRead (scanner : Scanner) (read : Token × Cursor) : Scanner :=
  { scanner with cursor := read.2 }.emit read.1

/-- Scan a directive, or the start or the end of a document. -/
def scanMarker (scanner : Scanner) (read : Option (Token × Cursor)) :
    Option Scanner := do
  let scanner ← (scanner.closeBlocks (-1)).dropPlace
  let read ← read
  pure ((scanner.allowKey false).emitRead read)

/-- Scan the start of a flow collection. -/
def scanFlowStart (scanner : Scanner) (token : Token) : Option Scanner := do
  let scanner ← scanner.savePlace
  let scanner :=
    { scanner with
      keyPlaces := none :: scanner.keyPlaces
      flowDepth := scanner.flowDepth + 1
      keyAllowed := true }
  pure ((scanner.skip 1).emit token)

/-- Scan the end of a flow collection. -/
def scanFlowEnd (scanner : Scanner) (token : Token) : Option Scanner := do
  let scanner ← scanner.dropPlace
  let scanner :=
    if scanner.inFlow then
      { scanner with
        flowDepth := scanner.flowDepth - 1
        keyPlaces := scanner.keyPlaces.drop 1 }
    else scanner
  pure (((scanner.allowKey false).skip 1).emit token)

/-- Scan the comma between the items of a flow collection. -/
def scanFlowEntry (scanner : Scanner) : Option Scanner := do
  let scanner ← scanner.dropPlace
  pure (((scanner.allowKey true).skip 1).emit .flowEntry)

/-- Open a block collection at the cursor, where a key must be allowed. -/
def openBlockHere (scanner : Scanner) (token : Token) : Option Scanner :=
  if scanner.inFlow then some scanner
  else if scanner.keyAllowed then
    some (scanner.openBlock scanner.cursor.column scanner.tokenCount token)
  else none

/-- Scan the hyphen in front of an item. -/
def scanBlockEntry (scanner : Scanner) : Option Scanner := do
  let scanner ← scanner.openBlockHere .blockSequenceStart
  let scanner ← scanner.dropPlace
  pure (((scanner.allowKey true).skip 1).emit .blockEntry)

/-- Scan the question mark in front of a key. -/
def scanKey (scanner : Scanner) : Option Scanner := do
  let scanner ← scanner.openBlockHere .blockMappingStart
  let scanner ← scanner.dropPlace
  pure (((scanner.allowKey (!scanner.inFlow)).skip 1).emit .key)

/-- Scan the colon in front of a value. -/
def scanValue (scanner : Scanner) : Option Scanner := do
  match scanner.keyPlaces with
  | some place :: outer =>
      let scanner := scanner.insertAt place.tokenCount .key
      let scanner :=
        scanner.openBlock place.column place.tokenCount .blockMappingStart
      let scanner := { scanner with keyPlaces := none :: outer }
      pure (((scanner.allowKey false).skip 1).emit .value)
  | _ =>
      let scanner ← scanner.openBlockHere .blockMappingStart
      pure (((scanner.allowKey (!scanner.inFlow)).skip 1).emit .value)

/-- Scan something that may be a key or belong to one. -/
def scanContent (scanner : Scanner) (read : Option (Token × Cursor)) :
    Option Scanner := do
  let scanner ← scanner.savePlace
  let read ← read
  pure ((scanner.allowKey false).emitRead read)

/-- Scan an anchor or an alias. -/
def scanName (scanner : Scanner) (token : String → Token) : Option Scanner :=
  scanner.scanContent do
    let (name, cursor) ← readAnchorName (scanner.cursor.skip 1)
    pure (token name, cursor)

/-- Scan a block scalar. -/
def scanBlockScalar (scanner : Scanner) (literal : Bool) : Option Scanner := do
  let scanner ← scanner.dropPlace
  let (text, cursor) ←
    readBlock literal scanner.indent (scanner.cursor.skip 1)
  pure ((scanner.allowKey true).emitRead (.scalar text false, cursor))

/-- Scan a scalar between quotes. -/
def scanQuoted (scanner : Scanner) (single : Bool) : Option Scanner :=
  scanner.scanContent do
    let cursor := scanner.cursor.skip 1
    let (folding, cursor) ←
      readQuoted single (cursor.rest.length + 1) .start {} cursor
    pure (.scalar folding.result false, cursor)

/-- Scan a plain scalar. -/
def scanPlain (scanner : Scanner) : Option Scanner := do
  let scanner ← scanner.savePlace
  let cursor := scanner.cursor
  let (folding, cursor) ←
    readPlain scanner.inFlow (scanner.indent + 1) (cursor.rest.length + 1)
      .start {} cursor
  pure ((scanner.allowKey folding.broken).emitRead
    (.scalar folding.result true, cursor))

/-- A character that means something at the beginning of a token. -/
def isIndicator (char : Char) : Bool :=
  "-?:,[]\x7b\x7d#&*!|>'\"%@`".toList.contains char

/-- Whether a plain scalar may begin here. -/
def startsPlain (inFlow : Bool) : List Char → Bool
  | [] => false
  | char :: rest =>
      !(isBlank char || isBreak char || isIndicator char)
        || (char == '-' && !rest.head?.any isBlank)
        || (!inFlow && (char == '?' || char == ':') && !atGap rest)

/-- Scan the next token, which begins at the cursor. -/
def scanToken (scanner : Scanner) : Option Scanner :=
  let cursor := scanner.cursor
  let rest := cursor.rest
  let gap := atGap cursor.behind
  let loose := scanner.inFlow || gap
  if cursor.column == 0 && cursor.isAt '%' then
    scanner.scanMarker (readDirective (cursor.skip 1))
  else if cursor.column == 0 && atDocumentMarker rest then
    scanner.scanMarker <| some
      (if cursor.isAt '-' then .documentStart else .documentEnd, cursor.skip 3)
  else if cursor.isAt '[' then scanner.scanFlowStart .flowSequenceStart
  else if cursor.isAt '\x7b' then scanner.scanFlowStart .flowMappingStart
  else if cursor.isAt ']' then scanner.scanFlowEnd .flowSequenceEnd
  else if cursor.isAt '\x7d' then scanner.scanFlowEnd .flowMappingEnd
  else if cursor.isAt ',' then scanner.scanFlowEntry
  else if cursor.isAt '-' && gap then scanner.scanBlockEntry
  else if cursor.isAt '?' && loose then scanner.scanKey
  else if cursor.isAt ':' && loose then scanner.scanValue
  else if cursor.isAt '*' then scanner.scanName .alias
  else if cursor.isAt '&' then scanner.scanName .anchor
  else if cursor.isAt '!' then
    scanner.scanContent (readTag scanner.inFlow cursor)
  else if cursor.isAt '|' && !scanner.inFlow then scanner.scanBlockScalar true
  else if cursor.isAt '>' && !scanner.inFlow then scanner.scanBlockScalar false
  else if cursor.isAt '\'' then scanner.scanQuoted true
  else if cursor.isAt '"' then scanner.scanQuoted false
  else if startsPlain scanner.inFlow rest then scanner.scanPlain
  else none

/-- Scan to the end of the text. -/
def scanAll : (fuel : Nat) → Scanner → Option (List Token)
  | 0, _ => none
  | fuel + 1, scanner => do
      let scanner := skipGap (scanner.cursor.rest.length + 1) scanner
      let scanner ← scanner.dropStale
      let scanner := scanner.closeBlocks scanner.cursor.column
      if scanner.cursor.rest.isEmpty then
        let scanner ← (scanner.closeBlocks (-1)).dropPlace
        pure scanner.tokens.reverse
      else
        let scanner ← scanner.scanToken
        scanAll fuel scanner

end Scanner

/-- The tokens of a text, or nothing if it cannot be cut into tokens. -/
def tokens? (text : String) : Option (List Token) :=
  let chars := text.toList
  if chars.all isAllowed then
    Scanner.scanAll (chars.length + 1) { cursor := { rest := chars } }
  else none

end Concordance.Yaml
