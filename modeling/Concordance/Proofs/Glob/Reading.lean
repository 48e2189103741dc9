import Concordance.Glob.Expansion
import Concordance.Proofs.Failure
import Concordance.Proofs.Path.Extension

/-!
# Reading patterns behind a path

A character that is no wildcard stands for itself, so a path in which there are
none can be put in front of a pattern: the same pattern is read behind it, or the
same fault is found at a later place (`Route.ofText_joinText`).
-/

namespace Concordance.Glob

/-! ### Characters that stand for themselves -/

/-- Whether a character stands for itself in a pattern. -/
def IsPlain (char : Char) : Prop :=
  char ≠ '?' ∧ char ≠ '*' ∧ char ≠ '['

instance (char : Char) : Decidable (IsPlain char) :=
  inferInstanceAs (Decidable (_ ∧ _ ∧ _))

theorem readTokens_plain
    {char : Char}
    (plain : IsPlain char)
    (position : Nat)
    (fresh : Bool)
    (rest : List Char) :
    readTokens position fresh (char :: rest) =
      (.one (.exactly char) :: ·) <$> readTokens (position + 1) (char == '/') rest := by
  rcases plain with ⟨noMark, noStar, noBracket⟩
  rw [readTokens]
  · rfl
  · exact noMark
  · exact fun _ isStar _ => noStar isStar
  · exact fun _ isStar _ => noStar isStar
  · exact noStar
  · exact noBracket

theorem readTokens_shared
    {rest : List Char}
    (noStar : ∀ tail, rest = '*' :: tail → False)
    (position : Nat) :
    readTokens position false ('*' :: '*' :: rest) =
      .error ⟨position - 1, .sharedComponent⟩ := by
  rw [readTokens.eq_def]
  split <;> rename_i isText <;> cases isText
  · exact (noStar _ rfl).elim
  · exact if_pos rfl
  · rename_i single
    exact (single rest rfl).elim
  · rename_i single
    exact (single rest rfl rfl).elim

theorem readTokens_bracket
    {rest after : List Char}
    {set : CharSet}
    (isBracket : bracket? rest = some (set, after))
    (position : Nat)
    (fresh : Bool) :
    readTokens position fresh ('[' :: rest) =
      (.one set :: ·) <$>
        readTokens (position + (1 + rest.length - after.length)) false after := by
  rw [readTokens]
  split
  · rename_i isOther
    cases isBracket.symm.trans isOther
    rfl
  · rename_i noBracket
    cases isBracket.symm.trans noBracket

theorem readTokens_of_not_closed
    {rest : List Char}
    (noBracket : bracket? rest = none)
    (position : Nat)
    (fresh : Bool) :
    readTokens position fresh ('[' :: rest) = .error ⟨position, .invalidRange⟩ := by
  rw [readTokens]
  split
  · rename_i isBracket
    cases noBracket.symm.trans isBracket
  · rfl

/-- What is read does not depend on how much stands in front, except for the place of a fault. -/
theorem readTokens_reason (position other : Nat) (fresh : Bool) (text : List Char) :
    (readTokens position fresh text).mapError Fault.reason =
      (readTokens other fresh text).mapError Fault.reason := by
  induction position, fresh, text using readTokens.induct generalizing other with
  | case1 => rw [readTokens, readTokens]
  | case2 position fresh rest induction =>
      rw [readTokens, readTokens, mapError_bind_pure, mapError_bind_pure, induction (other + 1)]
  | case3 position fresh rest =>
      rw [readTokens, readTokens]
      rfl
  | case4 position fresh rest noStar shared =>
      cases fresh with
      | true => cases shared
      | false =>
          rw [readTokens_shared noStar, readTokens_shared noStar]
          rfl
  | case5 position fresh alone =>
      rw [readTokens, readTokens, if_neg alone, if_neg alone]
  | case6 position fresh alone rest noStar induction =>
      rw [readTokens, readTokens, if_neg alone, if_neg alone, mapError_bind_pure,
        mapError_bind_pure, induction (other + 3)]
  | case7 position fresh rest noStar alone notEnd noSlash =>
      rw [readTokens, readTokens, if_neg alone, if_neg alone]
      · rfl
      all_goals assumption
  | case8 position fresh rest noStars noStar induction =>
      rw [readTokens, readTokens, mapError_bind_pure, mapError_bind_pure, induction (other + 1)]
      all_goals assumption
  | case9 position fresh rest set after isBracket induction =>
      rw [readTokens_bracket isBracket, readTokens_bracket isBracket, mapError_map, mapError_map,
        induction (other + (1 + rest.length - after.length))]
  | case10 position fresh rest noBracket =>
      rw [readTokens_of_not_closed noBracket, readTokens_of_not_closed noBracket]
      rfl
  | case11 position fresh char rest noMark noStars noTwo noStar noBracket induction =>
      rw [readTokens, readTokens, mapError_bind_pure, mapError_bind_pure, induction (other + 1)]
      all_goals assumption

/-! ### Patterns without wildcards -/

theorem bracket?_ne_exactly
    {text after : List Char}
    {set : CharSet}
    (isBracket : bracket? text = some (set, after))
    (char : Char) :
    set ≠ .exactly char := by
  rw [bracket?.eq_def] at isBracket
  split at isBracket <;>
  · rcases Option.map_eq_some_iff.mp isBracket with ⟨-, -, ⟨⟩⟩
    exact nofun

namespace Pattern

theorem literalChars?_cons_eq_some_iff
    {token : Token}
    {tokens : List Token}
    {chars : List Char} :
    literalChars? (token :: tokens) = some chars ↔
      ∃ char rest, token = .one (.exactly char) ∧ literalChars? tokens = some rest ∧
        chars = char :: rest := by
  constructor
  · intro literal
    rcases token with (char | _ | _ | _) | _ | _
    case one.exactly =>
      rcases Option.map_eq_some_iff.mp literal with ⟨rest, isRest, rfl⟩
      exact ⟨char, rest, rfl, isRest, rfl⟩
    all_goals cases literal
  · rintro ⟨char, rest, rfl, isRest, rfl⟩
    rw [literalChars?, isRest]
    rfl

/-- A pattern that stands for one text only is read from that text. -/
theorem eq_of_literalChars?
    {position : Nat}
    {fresh : Bool}
    {text chars : List Char}
    {tokens : List Token}
    (read : readTokens position fresh text = .ok tokens)
    (literal : literalChars? tokens = some chars) :
    chars = text := by
  induction position, fresh, text using readTokens.induct generalizing tokens chars with
  | case1 =>
      rw [readTokens] at read
      cases read
      exact (Option.some.inj literal).symm
  | case2 position fresh rest =>
      rw [readTokens, bind_eq_ok_iff] at read
      rcases read with ⟨_, -, ⟨⟩⟩
      cases literal
  | case3 => cases (readTokens.eq_3 _ _ _).symm.trans read
  | case4 position fresh rest noStar shared =>
      cases fresh with
      | true => cases shared
      | false => cases (readTokens_shared noStar _).symm.trans read
  | case5 position fresh alone =>
      rw [readTokens, if_neg alone] at read
      cases read
      cases literal
  | case6 position fresh alone rest =>
      rw [readTokens, if_neg alone, bind_eq_ok_iff] at read
      rcases read with ⟨_, -, ⟨⟩⟩
      cases literal
  | case7 position fresh rest noStar alone notEnd noSlash =>
      rw [readTokens.eq_6 _ _ _ noStar notEnd noSlash, if_neg alone] at read
      cases read
  | case8 position fresh rest noStars noStar =>
      rw [readTokens.eq_7 _ _ _ noStars noStar, bind_eq_ok_iff] at read
      rcases read with ⟨_, -, ⟨⟩⟩
      cases literal
  | case9 position fresh rest set after isBracket =>
      rw [readTokens_bracket isBracket, map_eq_ok_iff] at read
      rcases read with ⟨_, -, rfl⟩
      rcases literalChars?_cons_eq_some_iff.mp literal with ⟨char, _, isExactly, -⟩
      exact (bracket?_ne_exactly isBracket char (Token.one.inj isExactly)).elim
  | case10 position fresh rest noBracket =>
      cases (readTokens_of_not_closed noBracket _ _).symm.trans read
  | case11 position fresh char rest noMark noStars noTwo noStar noBracket induction =>
      rw [readTokens_plain ⟨noMark, noStar, noBracket⟩, map_eq_ok_iff] at read
      rcases read with ⟨rest, readRest, rfl⟩
      rcases literalChars?_cons_eq_some_iff.mp literal with ⟨_, _, ⟨⟩, literalRest, rfl⟩
      rw [induction readRest literalRest]

theorem eq_of_literal?
    {text name : String}
    {pattern : Pattern}
    (read : ofText text = .ok pattern)
    (literal : pattern.literal? = some name) :
    name = text := by
  rcases map_eq_ok_iff.mp read with ⟨tokens, isRead, rfl⟩
  rcases Option.map_eq_some_iff.mp literal with ⟨chars, isLiteral, rfl⟩
  rw [eq_of_literalChars? isRead isLiteral, String.ofList_toList]

/-- The pattern that stands for one text only. -/
def plain (text : String) : Pattern :=
  ⟨text.toList.map fun char => .one (.exactly char)⟩

/-- A pattern without wildcards stands for one text only. -/
theorem eq_plain_of_literal?
    {pattern : Pattern}
    {name : String}
    (literal : pattern.literal? = some name) :
    pattern = plain name := by
  have isPlain (tokens : List Token) (chars : List Char)
      (literal : literalChars? tokens = some chars) :
      tokens = chars.map fun char => .one (.exactly char) := by
    induction tokens generalizing chars with
    | nil =>
        cases literal
        rfl
    | cons token tokens induction =>
        rcases literalChars?_cons_eq_some_iff.mp literal with ⟨char, rest, rfl, isRest, rfl⟩
        rw [List.map_cons, ← induction rest isRest]
  rcases Option.map_eq_some_iff.mp literal with ⟨chars, isLiteral, rfl⟩
  rcases pattern with ⟨tokens⟩
  rw [plain, String.toList_ofList, ← isPlain tokens chars isLiteral]

@[simp]
theorem literal?_plain (text : String) : (plain text).literal? = some text := by
  have literal (chars : List Char) :
      literalChars? (chars.map fun char => .one (.exactly char)) = some chars := by
    induction chars with
    | nil => rfl
    | cons char chars induction =>
        exact literalChars?_cons_eq_some_iff.mpr ⟨char, chars, rfl, induction, rfl⟩
  rw [literal?, plain, literal, Option.map_some, String.ofList_toList]

@[simp]
theorem isRecursive_plain (text : String) : (plain text).isRecursive = false := by
  simp [isRecursive, plain]

theorem literal?_of_isRecursive {pattern : Pattern} (recursive : pattern.isRecursive = true) :
    pattern.literal? = none := by
  rw [Option.eq_none_iff_forall_ne_some]
  intro name literal
  rw [eq_plain_of_literal? literal, isRecursive_plain] at recursive
  cases recursive

theorem ofText_plain
    {text : String}
    (isPlain : ∀ char ∈ text.toList, IsPlain char) :
    ofText text = .ok (plain text) := by
  have read (chars : List Char) (each : ∀ char ∈ chars, IsPlain char)
      (position : Nat) (fresh : Bool) :
      readTokens position fresh chars = .ok (chars.map fun char => .one (.exactly char)) := by
    induction chars generalizing position fresh with
    | nil => rw [readTokens, List.map_nil]
    | cons char chars induction =>
        rcases List.forall_mem_cons.mp each with ⟨first, others⟩
        rw [readTokens_plain first, induction others]
        rfl
  rw [ofText, read _ isPlain]
  rfl

end Pattern

/-! ### Plain text in front -/

/-- What is read from a text, whatever the place of a fault is. -/
def tokensOf (fresh : Bool) (text : List Char) : Except FaultReason (List Token) :=
  (readTokens 0 fresh text).mapError Fault.reason

theorem tokensOf_plain
    {char : Char}
    (isPlain : IsPlain char)
    (fresh : Bool)
    (rest : List Char) :
    tokensOf fresh (char :: rest) =
      (.one (.exactly char) :: ·) <$> tokensOf (char == '/') rest := by
  rw [tokensOf, readTokens_plain isPlain, mapError_map, readTokens_reason _ 0]
  rfl

/-- Plain text and a slash are read on their own, and what follows begins a component. -/
theorem exists_tokensOf_append
    {front : List Char}
    (isPlain : ∀ char ∈ front, IsPlain char)
    (fresh : Bool)
    (rest : List Char) :
    ∃ tokens, tokensOf fresh (front ++ '/' :: rest) = (tokens ++ ·) <$> tokensOf true rest := by
  induction front generalizing fresh with
  | nil => exact ⟨[_], tokensOf_plain (by decide) fresh rest⟩
  | cons char front induction =>
      rcases List.forall_mem_cons.mp isPlain with ⟨first, others⟩
      rcases induction others (char == '/') with ⟨tokens, read⟩
      refine ⟨.one (.exactly char) :: tokens, ?_⟩
      rw [List.cons_append, tokensOf_plain first, read, Functor.map_map]
      rfl

theorem exists_tokensOf_joinChars
    {front pieces : List (List Char)}
    (isPlain : ∀ piece ∈ front, ∀ char ∈ piece, IsPlain char)
    (something : pieces ≠ []) :
    ∃ tokens, tokensOf true (Text.joinChars '/' (front ++ pieces)) =
      (tokens ++ ·) <$> tokensOf true (Text.joinChars '/' pieces) := by
  induction front with
  | nil => exact ⟨[], (id_map _).symm⟩
  | cons piece front induction =>
      rcases List.forall_mem_cons.mp isPlain with ⟨first, others⟩
      rcases induction others with ⟨tokens, read⟩
      rcases List.exists_cons_of_ne_nil (List.append_ne_nil_of_right_ne_nil front something) with
        ⟨second, rest, isRest⟩
      rcases exists_tokensOf_append first true (Text.joinChars '/' (front ++ pieces)) with
        ⟨pieceTokens, readPiece⟩
      refine ⟨pieceTokens ++ tokens, ?_⟩
      rw [List.cons_append, isRest, Text.joinChars, ← isRest, readPiece, read, Functor.map_map]
      simp only [List.append_assoc]

/-! ### Routes -/

theorem collapse_append
    {front : List Pattern}
    (notRecursive : ∀ pattern ∈ front, pattern.isRecursive = false)
    (patterns : List Pattern) :
    collapse (front ++ patterns) = front ++ collapse patterns := by
  induction front with
  | nil => rfl
  | cons first front induction =>
      rcases List.forall_mem_cons.mp notRecursive with ⟨notFirst, others⟩
      rw [List.cons_append, List.cons_append, ← induction others]
      cases front ++ patterns with
      | nil => rfl
      | cons second rest => rw [collapse, notFirst, Bool.false_and, if_neg Bool.false_ne_true]

theorem collapse_sublist (patterns : List Pattern) : (collapse patterns).Sublist patterns := by
  induction patterns using collapse.induct with
  | case1 first second rest both induction =>
      rw [collapse, if_pos both]
      exact induction.cons _
  | case2 first second rest notBoth induction =>
      rw [collapse, if_neg notBoth]
      exact induction.cons_cons _
  | case3 patterns short =>
      rw [collapse]
      exact short

/-- The first pattern is kept, unless it is a double star with another one behind it. -/
theorem head?_collapse_cases
    {patterns : List Pattern}
    {first : Pattern}
    (isFirst : (collapse patterns).head? = some first) :
    patterns.head? = some first ∨ first.isRecursive = true := by
  induction patterns using collapse.induct with
  | case1 head second rest both induction =>
      rw [collapse, if_pos both] at isFirst
      rw [Bool.and_eq_true] at both
      rcases induction isFirst with isSecond | recursive
      · exact .inr (Option.some.inj isSecond ▸ both.2)
      · exact .inr recursive
  | case2 head second rest notBoth =>
      rw [collapse, if_neg notBoth] at isFirst
      exact .inl isFirst
  | case3 patterns short =>
      have kept : collapse patterns = patterns := by
        rw [collapse]
        exact short
      exact .inl (kept ▸ isFirst)

/-- The route that a path writes goes through its pieces. -/
theorem Route.ofText_text
    {path : Path}
    (legible : path.Legible)
    (something : path.pieces ≠ []) :
    Route.ofText path.text = (do
      let _ ← Pattern.ofText path.text
      let patterns ← (Path.openPieces path.pieces).mapM Pattern.ofText
      pure ⟨path.rooted, collapse patterns, path.text.toList.getLast? == some '/'⟩) := by
  have isText := Path.toList_text path
  rcases List.exists_cons_of_ne_nil something with ⟨piece, rest, isPieces⟩
  have notNil : Text.joinChars '/' (path.pieces.map String.toList) ≠ [] := by
    intro isNil
    rw [isPieces] at isNil
    rcases Path.joinChars_eq_nil isNil with ⟨isEmpty, single⟩
    rw [String.toList_eq_nil_iff.mp isEmpty, List.map_eq_nil_iff.mp single] at isPieces
    cases isRooted : path.rooted with
    | true => exact legible.rooted isRooted isPieces
    | false => exact legible.relative isRooted (by rw [isPieces]; rfl)
  have isRooted : (path.text.toList.head? == some '/') = path.rooted := by
    rw [isText]
    cases isRooted : path.rooted with
    | true => rfl
    | false =>
        have isHead : path.pieces.head? = some piece := by rw [isPieces]; rfl
        cases isPiece : piece.toList with
        | nil =>
            rw [String.toList_eq_nil_iff.mp isPiece] at isHead
            exact (legible.relative isRooted isHead).elim
        | cons first others =>
            have slashFree := legible.slashFree piece (List.mem_of_head? isHead)
            rcases Path.exists_joinChars_eq_cons first others (rest.map String.toList) with
              ⟨behind, joined⟩
            rw [isPieces, List.map_cons, isPiece, joined]
            rw [isPiece] at slashFree
            simpa using Ne.symm (not_or.mp (mt List.mem_cons.mpr slashFree)).1
  have isBody :
      (if path.rooted then String.ofList (path.text.toList.drop 1) else path.text) =
        String.ofList (Text.joinChars '/' (path.pieces.map String.toList)) := by
    rw [← String.ofList_toList (s := path.text), isText]
    cases path.rooted <;> simp
  have isSplit :
      Text.split '/' (String.ofList (Text.joinChars '/' (path.pieces.map String.toList))) =
        path.pieces := by
    have slashFree := legible.slashFree
    rw [isPieces] at slashFree ⊢
    rw [Text.split, String.toList_ofList, Path.map_ofList_splitChars_joinChars slashFree]
  rw [Route.ofText]
  dsimp only
  rw [isRooted, isBody, if_neg (by simpa using notNil), pieces, isSplit]
  rfl

theorem Route.exists_patterns
    {text : String}
    (notEmpty : text ≠ "")
    (relative : (Path.ofText text).rooted = false)
    {route : Route}
    (read : Route.ofText text = .ok route) :
    ∃ patterns,
      List.Forall₂ (fun piece pattern => Pattern.ofText piece = .ok pattern)
        (Path.openPieces (Path.ofText text).pieces) patterns ∧
      route.patterns = collapse patterns := by
  have own := Route.ofText_text (Path.legible_ofText text)
    (Path.pieces_ne_nil_of_relative notEmpty relative)
  rw [Path.text_ofText] at own
  rcases bind_eq_ok_iff.mp (own.symm.trans read) with ⟨_, -, pieceRun⟩
  rcases bind_eq_ok_iff.mp pieceRun with ⟨patterns, readPieces, ⟨⟩⟩
  exact ⟨patterns, mapM_eq_ok_iff.mp readPieces, rfl⟩

/-- The patterns of a route are read from its pieces. -/
theorem Route.exists_piece
    {text : String}
    (notEmpty : text ≠ "")
    (relative : (Path.ofText text).rooted = false)
    {route : Route}
    (read : Route.ofText text = .ok route)
    {pattern : Pattern}
    (inRoute : pattern ∈ route.patterns) :
    ∃ piece ∈ (Path.ofText text).pieces, Pattern.ofText piece = .ok pattern := by
  rcases Route.exists_patterns notEmpty relative read with ⟨patterns, readPieces, isRoute⟩
  rw [isRoute] at inRoute
  rcases exists_mem_of_forall₂ readPieces.flip pattern ((collapse_sublist patterns).mem inRoute)
    with ⟨piece, inPieces, readPiece⟩
  exact ⟨piece, Path.mem_of_mem_openPieces inPieces, readPiece⟩

/-- A relative route does not begin with nothing. -/
theorem Route.literal?_head_ne_empty
    {text : String}
    (notEmpty : text ≠ "")
    (relative : (Path.ofText text).rooted = false)
    {route : Route}
    (read : Route.ofText text = .ok route)
    {first : Pattern}
    (isFirst : route.patterns.head? = some first) :
    first.literal? ≠ some "" := by
  rcases Route.exists_patterns notEmpty relative read with ⟨patterns, readPieces, isRoute⟩
  rw [isRoute] at isFirst
  rcases head?_collapse_cases isFirst with isHead | recursive
  · rcases List.exists_cons_of_ne_nil (Path.pieces_ne_nil_of_relative notEmpty relative) with
      ⟨piece, rest, isPieces⟩
    have pieceNotEmpty : piece ≠ "" := by
      rintro rfl
      exact (Path.legible_ofText text).relative relative (by rw [isPieces]; rfl)
    rcases Path.exists_openPieces_eq_cons pieceNotEmpty rest with ⟨others, isOpen⟩
    rw [isPieces, isOpen, List.forall₂_cons_left_iff] at readPieces
    rcases readPieces with ⟨_, _, readPiece, -, rfl⟩
    intro isEmpty
    cases isHead
    exact pieceNotEmpty (Pattern.eq_of_literal? readPiece isEmpty).symm
  · rw [Pattern.literal?_of_isRecursive recursive]
    exact nofun

/-- Whether a path can stand in front of a pattern without taking part in it. -/
structure PlainRoot (root : Path) : Prop where
  written : root.Written
  anchored : root.Anchored
  plain : ∀ piece ∈ root.pieces, ∀ char ∈ piece.toList, IsPlain char

-- Only the characters of the path are looked at, not all characters that there are.
instance (root : Path) : Decidable (PlainRoot root) :=
  decidable_of_iff
    (root.Written ∧ root.Anchored ∧
      (root.pieces.all fun piece => piece.toList.all fun char => decide (IsPlain char)) = true)
    (by
      simp only [List.all_eq_true, decide_eq_true_eq]
      exact ⟨fun ⟨written, anchored, plain⟩ => ⟨written, anchored, plain⟩,
        fun plainRoot => ⟨plainRoot.written, plainRoot.anchored, plainRoot.plain⟩⟩)

/-- A route behind a path. -/
def Route.behind (root : Path) (route : Route) : Route :=
  ⟨root.rooted, (Path.openPieces root.pieces).map Pattern.plain ++ route.patterns,
    route.directoriesOnly⟩

variable {root : Path} {text : String}

theorem PlainRoot.mapM_ofText (plainRoot : PlainRoot root) (pieces : List String) :
    (Path.openPieces root.pieces ++ pieces).mapM Pattern.ofText =
      ((Path.openPieces root.pieces).map Pattern.plain ++ ·) <$> pieces.mapM Pattern.ofText := by
  have front : (Path.openPieces root.pieces).mapM Pattern.ofText =
      .ok ((Path.openPieces root.pieces).map Pattern.plain) :=
    mapM_eq_ok_map fun piece inRoot =>
      Pattern.ofText_plain (plainRoot.plain piece (Path.mem_of_mem_openPieces inRoot))
  rw [List.mapM_append, front]
  rfl

theorem reason_ofText (text : String) :
    (Pattern.ofText text).mapError Fault.reason = Pattern.mk <$> tokensOf true text.toList :=
  mapError_map

/-- Behind a plain path the whole of a pattern is as valid as it is alone. -/
theorem PlainRoot.exists_reason
    (plainRoot : PlainRoot root)
    (notEmpty : text ≠ "")
    (relative : (Path.ofText text).rooted = false) :
    ∃ change : Pattern → Pattern,
      (Pattern.ofText (root.extend (Path.ofText text).pieces).text).mapError Fault.reason =
        change <$> (Pattern.ofText text).mapError Fault.reason := by
  have something := Path.pieces_ne_nil_of_relative notEmpty relative
  have isPlain : ∀ piece ∈ (Path.openPieces root.pieces).map String.toList,
      ∀ char ∈ piece, IsPlain char := by
    rw [List.forall_mem_map]
    exact fun piece inRoot => plainRoot.plain piece (Path.mem_of_mem_openPieces inRoot)
  rcases exists_tokensOf_joinChars isPlain (List.map_eq_nil_iff.not.mpr something) with
    ⟨front, read⟩
  have readAll : ∃ front,
      tokensOf true (root.extend (Path.ofText text).pieces).text.toList =
        (front ++ ·) <$> tokensOf true text.toList := by
    rw [Path.toList_text, Path.extend_of_ne_nil something, List.map_append]
    rw [Path.toList_of_relative relative] at read
    cases root.rooted with
    | false => exact ⟨front, read⟩
    | true =>
        refine ⟨.one (.exactly '/') :: front, ?_⟩
        rw [if_pos rfl, List.singleton_append, tokensOf_plain (by decide), beq_self_eq_true, read,
          Functor.map_map]
        rfl
  rcases readAll with ⟨front, read⟩
  refine ⟨fun pattern => ⟨front ++ pattern.tokens⟩, ?_⟩
  rw [reason_ofText, reason_ofText, read, Functor.map_map, Functor.map_map]

/-- Behind a plain path a relative pattern is read as it is read alone. -/
theorem PlainRoot.ofText_joinText
    (plainRoot : PlainRoot root)
    (notEmpty : text ≠ "")
    (relative : (Path.ofText text).rooted = false) :
    (Route.ofText (root.joinText text).text).mapError Fault.reason =
      Route.behind root <$> (Route.ofText text).mapError Fault.reason := by
  have something := Path.pieces_ne_nil_of_relative notEmpty relative
  have legible := Path.legible_ofText text
  have legibleBehind := (Path.written_iff_legible.mp plainRoot.written).extend plainRoot.anchored
    legible relative
  have own := Route.ofText_text legible something
  have joined := Route.ofText_text legibleBehind (by
    rw [Path.extend_of_ne_nil something]
    exact List.append_ne_nil_of_right_ne_nil _ something)
  rw [Path.text_ofText] at own
  have isPieces : Path.openPieces (root.extend (Path.ofText text).pieces).pieces =
      Path.openPieces root.pieces ++ Path.openPieces (Path.ofText text).pieces := by
    rw [Path.extend_of_ne_nil something, Path.openPieces_append something]
  have sameEnd : (root.extend (Path.ofText text).pieces).text.toList.getLast? =
      text.toList.getLast? := by
    rcases Path.exists_toList_text_extend something relative root with ⟨before, isText⟩
    rw [isText, List.getLast?_append_of_ne_nil _ (mt String.toList_eq_nil_iff.mp notEmpty)]
  rcases plainRoot.exists_reason notEmpty relative with ⟨change, check⟩
  rw [Path.joinText_eq_extend something relative, own, joined, isPieces, plainRoot.mapM_ofText,
    Path.rooted_extend, sameEnd]
  cases whole : Pattern.ofText text with
  | error fault =>
      rw [whole] at check
      rcases mapError_eq_error_iff.mp check with ⟨other, isOther, sameReason⟩
      rw [isOther]
      exact congrArg Except.error sameReason
  | ok pattern =>
      rw [whole] at check
      rw [mapError_eq_ok_iff.mp check]
      cases (Path.openPieces (Path.ofText text).pieces).mapM Pattern.ofText with
      | error fault => rfl
      | ok patterns =>
          refine congrArg Except.ok ?_
          rw [Route.behind, ← collapse_append]
          exact List.forall_mem_map.mpr fun piece _ => Pattern.isRecursive_plain piece

/-- A text without wildcards is a route; with a slash at its end it is one to directories. -/
theorem Route.exists_ofText_plain (isPlain : ∀ char ∈ text.toList, IsPlain char) :
    ∃ route, Route.ofText text = .ok route ∧
      route.directoriesOnly = (text.toList.getLast? == some '/') := by
  have plainPieces {written : String} (within : ∀ char ∈ written.toList, char ∈ text.toList) :
      ∀ piece ∈ (if written = "" then [""] else pieces written),
        ∃ pattern, Pattern.ofText piece = .ok pattern := by
    intro piece inPieces
    refine ⟨_, Pattern.ofText_plain fun char inPiece => ?_⟩
    split at inPieces
    · rw [List.mem_singleton.mp inPieces] at inPiece
      exact (List.not_mem_nil inPiece).elim
    · rcases List.mem_map.mp (Path.mem_of_mem_openPieces inPieces) with ⟨chars, inSplit, rfl⟩
      rw [String.toList_ofList] at inPiece
      exact isPlain char (within char (Text.mem_of_mem_splitChars inSplit inPiece))
  have isBody : ∀ char ∈
      (if text.toList.head? == some '/' then String.ofList (text.toList.drop 1) else text).toList,
      char ∈ text.toList := by
    intro char inBody
    split at inBody
    · rw [String.toList_ofList] at inBody
      exact List.mem_of_mem_drop inBody
    · exact inBody
  rcases exists_mapM_eq_ok_iff.mpr (plainPieces isBody) with ⟨patterns, read⟩
  refine ⟨⟨text.toList.head? == some '/', collapse patterns, _⟩, ?_, rfl⟩
  rw [Route.ofText, Pattern.ofText_plain isPlain]
  dsimp only
  rw [read]
  rfl

/-- A plain path followed by nothing leads to directories only. -/
theorem PlainRoot.exists_ofText_joinText_empty (plainRoot : PlainRoot root) :
    ∃ route, Route.ofText (root.joinText "").text = .ok route ∧ route.directoriesOnly = true := by
  have isSlashed : ∃ front, (root.joinText "").text.toList = front ++ ['/'] ∧
      ∀ char ∈ front, IsPlain char := by
    by_cases isNil : root.pieces = []
    · rcases plainRoot.anchored with rooted | ⟨first, rest, isPieces, -⟩
      · refine ⟨[], ?_, nofun⟩
        rw [Path.joinText, Path.join, if_neg (by decide), isNil, rooted]
        rfl
      · cases isNil.symm.trans isPieces
    · have notEmpty : root.pieces ≠ [""] := by
        intro isEmpty
        rcases plainRoot.anchored with rooted | ⟨first, rest, isPieces, moving⟩
        · exact (Path.written_iff_legible.mp plainRoot.written).rooted rooted isEmpty
        · cases isEmpty.symm.trans isPieces
          cases moving
      refine ⟨(if root.rooted then ['/'] else []) ++
        Text.joinChars '/' ((Path.openPieces root.pieces).map String.toList), ?_, ?_⟩
      · rw [Path.joinText_piece (by decide) (.inr isNil), Path.toList_text, List.map_append,
          List.append_assoc, ← Text.joinChars_concat_nil]
        · rfl
        · exact List.map_eq_nil_iff.not.mpr (Path.openPieces_ne_nil isNil notEmpty)
      · intro char inFront
        rcases List.mem_append.mp inFront with inPrefix | inPieces
        · split at inPrefix
          · rw [List.mem_singleton.mp inPrefix]
            decide
          · exact (List.not_mem_nil inPrefix).elim
        · rcases Text.mem_joinChars inPieces with rfl | ⟨_, isPiece, inPiece⟩
          · decide
          · rcases List.mem_map.mp isPiece with ⟨piece, inRoot, rfl⟩
            exact plainRoot.plain piece (Path.mem_of_mem_openPieces inRoot) char inPiece
  rcases isSlashed with ⟨front, isText, isPlain⟩
  rcases Route.exists_ofText_plain (by
    rw [isText]
    exact List.forall_mem_append.mpr ⟨isPlain, List.forall_mem_singleton.mpr (by decide)⟩)
    with ⟨route, read, only⟩
  refine ⟨route, read, ?_⟩
  rw [only, isText, List.getLast?_concat, beq_self_eq_true]

end Concordance.Glob
