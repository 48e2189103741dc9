import Concordance.Proofs.FileSystem.Resolving

/-!
# What writing leaves as it was

Making directories and writing a file put something only where there was
nothing, or a file.  Every directory stays (`Keeps`), so a path to a file leads
where it led before, and the file is the same one unless it has just been
written (`Keeps.readText`).  Files with different names in one directory
therefore do not disturb each other (`readText_of_writeText`,
`keeps_of_writeText`).
-/

namespace Concordance.FileSystem

variable {files before between after : FileSystem} {current : Location}

/-! ### Putting an entry -/

theorem lookup_filter
    (keep : Location → Bool)
    (other : Location)
    (entries : List (Location × Entry)) :
    (entries.filter fun old => keep old.1).lookup other =
      if keep other then entries.lookup other else none := by
  induction entries with
  | nil => split <;> rfl
  | cons head entries induction =>
      rcases head with ⟨place, entry⟩
      rw [List.filter_cons, List.lookup_cons]
      by_cases same : other = place
      · subst same
        rw [beq_self_eq_true]
        cases kept : keep other with
        | true => rw [if_pos rfl, if_pos rfl, List.lookup_cons, beq_self_eq_true]
        | false =>
            rw [kept] at induction
            rw [if_neg Bool.false_ne_true, induction]
            rfl
      · rw [beq_eq_false_iff_ne.mpr same, ← induction]
        split
        · rw [List.lookup_cons, beq_eq_false_iff_ne.mpr same]
        · rfl

theorem lookup_put {location other : Location} {entry : Entry} (below : location ≠ []) :
    entry? (files.put location entry) other =
      if other = location then some entry else files.entry? other := by
  unfold entry? put
  split
  · rename_i isRoot
    rw [if_neg (isRoot ▸ below.symm)]
  · rw [List.lookup_cons]
    by_cases same : other = location
    · rw [if_pos same, same, beq_self_eq_true]
    · rw [if_neg same, beq_eq_false_iff_ne.mpr same]
      exact (lookup_filter (· != location) other files.entries).trans
        (if_pos (bne_iff_ne.mpr same))

/-! ### What is kept -/

/-- Whether directories stay directories, and what lies at a spared location stays there. -/
def Keeps (spared : Location → Prop) (before after : FileSystem) : Prop :=
  ∀ location entry, before.entry? location = some entry →
    entry = .directory ∨ spared location → after.entry? location = some entry

variable {spared : Location → Prop}

theorem Keeps.refl : Keeps spared files files :=
  fun _ _ there _ => there

theorem Keeps.trans
    (first : Keeps spared before between)
    (second : Keeps spared between after) :
    Keeps spared before after :=
  fun location entry there isSpared =>
    second location entry (first location entry there isSpared) isSpared

theorem Keeps.enter?
    (keeps : Keeps spared before after)
    {location next : Location}
    {move : Path.Component}
    (entered : before.enter? location move = some next) :
    after.enter? location move = some next := by
  cases move with
  | name name =>
      rw [FileSystem.enter?] at entered ⊢
      split at entered
      · rename_i possible
        rw [if_pos ⟨possible.1, keeps _ _ possible.2 (.inl rfl)⟩]
        exact entered
      · cases entered
  | root | current | parent => exact entered

theorem Keeps.foldlM_enter?
    (keeps : Keeps spared before after)
    {start location : Location}
    {path : List Path.Component}
    (entered : path.foldlM before.enter? start = some location) :
    path.foldlM after.enter? start = some location := by
  induction path generalizing start with
  | nil => exact entered
  | cons move path induction =>
      rw [List.foldlM_cons] at entered ⊢
      rcases Option.bind_eq_some_iff.mp entered with ⟨next, here, entered⟩
      exact Option.bind_eq_some_iff.mpr ⟨next, keeps.enter? here, induction entered⟩

theorem Keeps.enters
    (keeps : Keeps spared before after)
    {base : Path}
    {directory : Location}
    (enters : before.Enters current base directory) :
    after.Enters current base directory :=
  ⟨enters.zeroFree, keeps _ _ enters.isStart (.inl rfl), keeps.foldlM_enter? enters.entered⟩

/-- Putting an entry keeps the others, if it replaces no directory and nothing spared. -/
theorem keeps_put
    {location : Location}
    {entry : Entry}
    (below : location ≠ [])
    (free : ∀ old, files.entry? location = some old → old ≠ .directory ∧ ¬ spared location) :
    Keeps spared files (files.put location entry) := by
  intro other old there isSpared
  rw [lookup_put below, if_neg]
  · exact there
  · rintro rfl
    rcases free old there with ⟨notDirectory, notSpared⟩
    exact isSpared.elim notDirectory notSpared

/-! ### Reading a file by its name -/

theorem readText_eq_ok_iff {path : Path} {text : String} :
    files.readText current path = .ok text ↔
      ∃ location executable,
        files.resolve current path = .ok (.existing location (.file (.text text) executable)) := by
  have read_iff (content : Content) :
      files.read current path = .ok content ↔
        ∃ location executable,
          files.resolve current path = .ok (.existing location (.file content executable)) := by
    rw [read, bind_eq_ok_iff]
    constructor
    · rintro ⟨place, resolved, isContent⟩
      split at isContent <;> cases isContent
      exact ⟨_, _, resolved⟩
    · rintro ⟨location, executable, resolved⟩
      exact ⟨_, resolved, rfl⟩
  rw [readText, bind_eq_ok_iff]
  constructor
  · rintro ⟨content, isRead, isText⟩
    split at isText <;> cases isText
    exact (read_iff _).mp isRead
  · rintro found
    exact ⟨_, (read_iff _).mpr found, rfl⟩

theorem placeIn_eq_existing_iff
    {directory location : Location}
    {name : String}
    {entry : Entry} :
    files.placeIn directory name = .existing location entry ↔
      location = directory ++ [name] ∧ files.entry? (directory ++ [name]) = some entry := by
  rw [placeIn]
  cases files.entry? (directory ++ [name]) <;> simp [eq_comm]

theorem readText_joinText_iff
    {base : Path}
    {name text : String}
    (isName : FileName name) :
    files.readText current (base.joinText name) = .ok text ↔
      ∃ directory executable, files.Enters current base directory ∧
        files.entry? (directory ++ [name]) = some (.file (.text text) executable) := by
  rw [readText_eq_ok_iff]
  constructor
  · rintro ⟨location, executable, resolved⟩
    rcases (resolve_joinText_iff isName).mp resolved with ⟨directory, enters, isPlace⟩
    exact ⟨directory, executable, enters, (placeIn_eq_existing_iff.mp isPlace.symm).2⟩
  · rintro ⟨directory, executable, enters, isFile⟩
    refine ⟨directory ++ [name], executable, (resolve_joinText_iff isName).mpr ?_⟩
    exact ⟨directory, enters, (placeIn_eq_existing_iff.mpr ⟨rfl, isFile⟩).symm⟩

/-- A spared file has the text that it had. -/
theorem Keeps.readText
    (keeps : Keeps spared before after)
    {base : Path}
    {name text : String}
    (isName : FileName name)
    (isSpared : ∀ directory, spared (directory ++ [name]))
    (there : before.readText current (base.joinText name) = .ok text) :
    after.readText current (base.joinText name) = .ok text := by
  rcases (readText_joinText_iff isName).mp there with ⟨directory, executable, enters, isFile⟩
  exact (readText_joinText_iff isName).mpr
    ⟨directory, executable, keeps.enters enters,
      keeps _ _ isFile (.inr (isSpared directory))⟩

/-! ### Writing a file -/

/-- The location of a place, whether or not something lies there. -/
def Place.location : Place → Location
  | .existing location _ => location
  | .absent directory name => directory ++ [name]

theorem location_placeIn (directory : Location) (name : String) :
    (files.placeIn directory name).location = directory ++ [name] := by
  rw [placeIn]
  split <;> rfl

theorem entry?_of_placeIn
    {directory : Location}
    {name : String}
    (noDirectory : ∀ location, files.placeIn directory name ≠ .existing location .directory) :
    files.entry? (directory ++ [name]) ≠ some .directory := by
  intro there
  refine noDirectory (directory ++ [name]) ?_
  rw [placeIn, there]

theorem withoutEndSlash_eq_self
    {path : Path}
    (noSlash : path.endsWithSlash = false) :
    path.withoutEndSlash = path := by
  rcases path with ⟨rooted, pieces⟩
  rcases List.eq_nil_or_concat pieces with rfl | ⟨front, last, rfl⟩
  · rfl
  · rw [List.concat_eq_append] at noSlash ⊢
    rw [Path.endsWithSlash, List.getLast?_concat] at noSlash
    rw [Path.withoutEndSlash, List.reverse_concat, List.dropWhile_cons_of_neg (by simp [noSlash]),
      ← List.reverse_concat, List.reverse_reverse]

theorem writable_eq_ok
    {path : Path}
    {location : Location}
    {executable : Bool}
    (found : files.writable current path = .ok (location, executable)) :
    path.endsWithSlash = false ∧
      ∃ place, files.resolve current path = .ok place ∧ place.location = location ∧
        ∀ directory, place ≠ .existing directory .directory := by
  rw [writable, bind_eq_ok_iff] at found
  rcases found with ⟨place, resolved, found⟩
  cases ends : path.endsWithSlash with
  | true =>
      rw [ends] at found
      cases found
  | false =>
      rw [ends] at found
      rw [withoutEndSlash_eq_self ends] at resolved
      refine ⟨rfl, place, resolved, ?_⟩
      cases place with
      | absent directory name =>
          cases found
          exact ⟨rfl, nofun⟩
      | existing there entry =>
          cases entry with
          | directory => cases found
          | file content wasExecutable =>
              cases found
              exact ⟨rfl, nofun⟩

/-- A text is written under a name that is free or that a file has. -/
theorem writeText_joinText
    {base : Path}
    {name text : String}
    (isName : FileName name)
    (wrote : files.writeText current (base.joinText name) text = .ok after) :
    ∃ directory executable,
      files.Enters current base directory ∧
        files.entry? (directory ++ [name]) ≠ some .directory ∧
        after = files.put (directory ++ [name]) (.file (.text text) executable) := by
  rw [writeText, write, bind_eq_ok_iff] at wrote
  rcases wrote with ⟨⟨location, executable⟩, found, ⟨⟩⟩
  rcases writable_eq_ok found with ⟨-, place, resolved, rfl, noDirectory⟩
  rcases (resolve_joinText_iff isName).mp resolved with ⟨directory, enters, rfl⟩
  refine ⟨directory, executable, enters, entry?_of_placeIn noDirectory, ?_⟩
  rw [location_placeIn]

theorem keeps_writeText
    {base : Path}
    {name text : String}
    (isName : FileName name)
    (wrote : files.writeText current (base.joinText name) text = .ok after) :
    Keeps (fun location => location.getLast? ≠ some name) files after := by
  rcases writeText_joinText isName wrote with ⟨directory, executable, -, notDirectory, rfl⟩
  refine keeps_put (by simp) fun old there => ⟨?_, ?_⟩
  · rintro rfl
    exact notDirectory there
  · rw [List.getLast?_concat]
    exact fun other => other rfl

/-- What has been written is what is read. -/
theorem readText_of_writeText
    {base : Path}
    {name text : String}
    (isName : FileName name)
    (wrote : files.writeText current (base.joinText name) text = .ok after) :
    after.readText current (base.joinText name) = .ok text := by
  have keeps := keeps_writeText isName wrote
  rcases writeText_joinText isName wrote with ⟨directory, executable, enters, -, rfl⟩
  refine (readText_joinText_iff isName).mpr ⟨directory, executable, keeps.enters enters, ?_⟩
  rw [lookup_put (by simp), if_pos rfl]

/-! ### Making directories -/

theorem follow_eq_absent
    {place : Place}
    {piece : String}
    {directory : Location}
    {name : String}
    (followed : files.follow place piece = .ok (.absent directory name)) :
    place = .absent directory name ∨ files.entry? (directory ++ [name]) = none := by
  cases place with
  | absent other otherName =>
      rw [follow] at followed
      split at followed <;> cases followed
      exact .inl rfl
  | existing location entry =>
      cases entry with
      | file => cases followed
      | directory =>
          rw [follow] at followed
          split at followed
          · cases followed
          split at followed
          · cases followed
          split at followed
          · cases followed
          cases isThere : files.entry? (location ++ [piece]) with
          | none =>
              rw [isThere] at followed
              cases followed
              exact .inr isThere
          | some entry =>
              rw [isThere] at followed
              cases followed

/-- A path leads to an absent name only if nothing has that name. -/
theorem lookup_of_resolve_eq_absent
    {path : Path}
    {directory : Location}
    {name : String}
    (resolved : files.resolve current path = .ok (.absent directory name)) :
    files.entry? (directory ++ [name]) = none := by
  have walk (pieces : List String) (place : Place)
      (walked : pieces.foldlM files.follow place = .ok (.absent directory name)) :
      place = .absent directory name ∨ files.entry? (directory ++ [name]) = none := by
    induction pieces generalizing place with
    | nil => exact .inl (Except.ok.inj walked)
    | cons piece pieces induction =>
        rw [List.foldlM_cons, bind_eq_ok_iff] at walked
        rcases walked with ⟨next, here, walked⟩
        rcases induction next walked with rfl | isNone
        · exact follow_eq_absent here
        · exact .inr isNone
  rw [resolve] at resolved
  split at resolved
  · cases resolved
  split at resolved
  · cases resolved
  dsimp only at resolved
  cases isStart : files.entry? (if path.rooted then [] else current) with
  | none =>
      rw [isStart] at resolved
      cases resolved
  | some entry =>
      rw [isStart] at resolved
      rcases walk _ _ resolved with ⟨⟨⟩⟩ | isNone
      exact isNone

theorem keeps_makeDirectory
    {path : Path}
    (made : files.makeDirectory current path = .ok after) :
    Keeps spared files after := by
  rw [makeDirectory, bind_eq_ok_iff] at made
  rcases made with ⟨place, resolved, isMade⟩
  cases place with
  | existing => cases isMade
  | absent directory name =>
      cases isMade
      refine keeps_put (by simp) fun old there => ?_
      rw [lookup_of_resolve_eq_absent resolved] at there
      cases there

/-- Looking whether a directory is there changes nothing. -/
theorem eq_of_outcome_isDirectory
    {path : Path}
    {error : OsError}
    {result : Except OsError Unit}
    (looked : outcome
      (do if (← get).isDirectory current path then pure () else throw error : Step OsError Unit)
      files = (result, after)) :
    after = files := by
  rw [outcome_get_bind] at looked
  split at looked <;> cases looked <;> rfl

/-- Making directories keeps everything, also if it fails on the way. -/
theorem keeps_makeChain
    (paths : List Path)
    {result : Except OsError Unit}
    (made : outcome (makeChain current paths) files = (result, after)) :
    Keeps spared files after := by
  induction paths generalizing files after result with
  | nil =>
      cases made
      exact Keeps.refl
  | cons path parents induction =>
      rw [makeChain] at made
      split at made
      · cases made
        exact Keeps.refl
      rw [outcome_get_bind] at made
      split at made
      · rename_i isMade
        cases made
        exact keeps_makeDirectory isMade
      · rcases outcome_bind_cases made with ⟨error, failed, -⟩ | ⟨_, between, above, made⟩
        · exact induction failed
        · rw [outcome_get_bind] at made
          split at made
          · rename_i isMade
            cases made
            exact (induction above).trans (keeps_makeDirectory isMade)
          · rw [eq_of_outcome_isDirectory made]
            exact induction above
      · rw [eq_of_outcome_isDirectory made]
        exact Keeps.refl

theorem keeps_makeDirectories
    {path : Path}
    {result : Except OsError Unit}
    (made : outcome (makeDirectories current path) files = (result, after)) :
    Keeps spared files after :=
  keeps_makeChain path.ancestors made

/-! ### Steps -/

theorem outcome_look {Error Result : Type} (view : FileSystem → Except Error Result) :
    outcome (Step.look view) files = (view files, files) :=
  rfl

theorem outcome_change_eq_ok_iff
    {Error : Type}
    {change : FileSystem → Except Error FileSystem} :
    outcome (Step.change change) files = (.ok (), after) ↔ change files = .ok after := by
  rw [Step.change, outcome_get_bind]
  cases change files with
  | ok changed =>
      change (Except.ok (), changed) = (Except.ok (), after) ↔ _
      simp
  | error error =>
      change (Except.error error, files) = (Except.ok (), after) ↔ _
      simp

theorem outcome_change_eq_error_iff
    {Error : Type}
    {error : Error}
    {change : FileSystem → Except Error FileSystem} :
    outcome (Step.change change) files = (.error error, after) ↔
      change files = .error error ∧ files = after := by
  rw [Step.change, outcome_get_bind]
  cases change files with
  | ok changed =>
      change (Except.ok (), changed) = (Except.error error, after) ↔ _
      simp
  | error other =>
      change (Except.error other, files) = (Except.error error, after) ↔ _
      simp

theorem outcome_explain
    {Error Explained Result : Type}
    (explain : Error → Explained)
    (step : Step Error Result)
    (files : FileSystem) :
    outcome (Step.explain explain step) files =
      ((outcome step files).1.mapError explain, (outcome step files).2) :=
  rfl

theorem outcome_explain_eq_ok_iff
    {Error Explained Result : Type}
    {explain : Error → Explained}
    {step : Step Error Result}
    {result : Result} :
    outcome (Step.explain explain step) files = (.ok result, after) ↔
      outcome step files = (.ok result, after) := by
  rw [outcome_explain]
  rcases outcome step files with ⟨_ | _, _⟩ <;> simp [Except.mapError]

end Concordance.FileSystem
