import Concordance.FileSystem.Difference
import Concordance.Proofs.FileSystem.Agreement

/-!
# What changes leave alone

A program changes a file system step by step: it removes, makes directories
and writes files.  Whatever it does, it does by such changes (`Leads`).  What
none of them writes is as it was in the end, or it is gone
(`Leads.entry?_of_unwritten`).  So whatever a path leads to in the end has been
written on the way, or it lay there before (`Leads.exists?_iff`).
-/

namespace Concordance.FileSystem

variable {files before after : FileSystem} {current location : Location}

/-! ### Making changes -/

/-- The files after a change. -/
def Change.apply (files : FileSystem) : Change → FileSystem
  | remove location => files.prune location
  | makeDirectory location => files.put location .directory
  | writeFile location content executable => files.put location (.file content executable)

/-- Whether a change writes a location, be it new or in place of what lies there. -/
def Change.Writes (location : Location) : Change → Prop
  | remove _ => False
  | makeDirectory place => place = location
  | writeFile place _ _ => place = location

/-- Whether changes, made one after the other, lead from one file system to another. -/
def Leads (changes : List Change) (before after : FileSystem) : Prop :=
  ∀ location, after.entry? location = entry? (changes.foldl Change.apply before) location

/-- Whether one of several changes writes a location. -/
def Written (changes : List Change) (location : Location) : Prop :=
  ∃ change ∈ changes, change.Writes location

/-! ### What they leave alone -/

theorem entry?_put_of_ne
    {place : Location}
    (different : place ≠ location)
    (entry : Entry) :
    entry? (files.put place entry) location = files.entry? location := by
  unfold entry? put
  split
  · rfl
  · rw [List.lookup_cons, beq_eq_false_iff_ne.mpr different.symm]
    exact (lookup_filter (· != place) location files.entries).trans
      (if_pos (bne_iff_ne.mpr different.symm))

theorem entry?_prune_cases (place : Location) :
    entry? (files.prune place) location = files.entry? location ∨
      entry? (files.prune place) location = none := by
  unfold entry? prune
  split
  · exact .inl rfl
  · rw [lookup_filter (!place.isPrefixOf ·)]
    split
    · exact .inl rfl
    · exact .inr rfl

theorem Change.entry?_apply
    {change : Change}
    (notWritten : ¬ change.Writes location) :
    entry? (change.apply files) location = files.entry? location ∨
      entry? (change.apply files) location = none := by
  cases change with
  | remove place => exact entry?_prune_cases place
  | makeDirectory place => exact .inl (entry?_put_of_ne notWritten _)
  | writeFile place content executable => exact .inl (entry?_put_of_ne notWritten _)

theorem entry?_foldl_apply
    {changes : List Change}
    (unwritten : ¬ Written changes location) :
    entry? (changes.foldl Change.apply files) location = files.entry? location ∨
      entry? (changes.foldl Change.apply files) location = none := by
  induction changes generalizing files with
  | nil => exact .inl rfl
  | cons change changes induction =>
      have notFirst : ¬ change.Writes location :=
        fun writes => unwritten ⟨change, List.mem_cons_self, writes⟩
      have notLater : ¬ Written changes location :=
        fun ⟨later, inChanges, writes⟩ =>
          unwritten ⟨later, List.mem_cons_of_mem _ inChanges, writes⟩
      rw [List.foldl_cons]
      rcases induction notLater with same | gone
      · rw [same]
        exact Change.entry?_apply notFirst
      · exact .inr gone

/-- What no change has written lay there before. -/
theorem Leads.entry?_of_unwritten
    {changes : List Change}
    (leads : Leads changes before after)
    (unwritten : ¬ Written changes location)
    {entry : Entry}
    (there : after.entry? location = some entry) :
    before.entry? location = some entry := by
  rw [leads location] at there
  rcases entry?_foldl_apply unwritten with same | gone
  · rw [← same, there]
  · rw [there] at gone
    cases gone

/-! ### What a path leads to -/

/-- A path with a slash at its end leads to no file. -/
theorem endsWithSlash_of_find?_file
    {path : Path}
    {content : Content}
    {executable : Bool}
    (found : files.find? current path = some (location, .file content executable)) :
    path.endsWithSlash = false := by
  have resolved := resolve_of_find? found
  rcases path with ⟨rooted, pieces⟩
  rcases List.eq_nil_or_concat pieces with rfl | ⟨front, last, rfl⟩
  · cases rooted <;> cases resolved
  · rw [List.concat_eq_append] at resolved ⊢
    rw [Path.endsWithSlash, List.getLast?_concat, beq_eq_false_iff_ne]
    rintro rfl
    -- Nothing but a directory can be followed by the empty piece.
    rcases exists_follow_of_resolve resolved with ⟨_ | _, followed⟩
    · rename_i entry
      cases entry <;> cases followed
    · cases followed

/-- A path leads where it points, if it leads to something. -/
theorem eq_target_of_find?
    {path : Path}
    {entry : Entry}
    (found : files.find? current path = some (location, entry)) :
    location = path.target current := by
  cases entry with
  | directory => exact eq_foldl_of_foldlM_enter? (find?_eq_directory_iff.mp found).2.2.2
  | file content executable =>
      rcases exists_name_of_resolve (endsWithSlash_of_find?_file found) (resolve_of_find? found)
        nofun with ⟨pieces, name, isPath, plain⟩
      rw [isPath] at found ⊢
      exact ((find?_append_name_iff plain).mp found).2.2.1

theorem exists?_iff {path : Path} :
    files.exists? current path = true ↔
      ∃ entry, files.find? current path = some (path.target current, entry) := by
  rw [exists?, Option.isSome_iff_exists]
  constructor
  · rintro ⟨⟨location, entry⟩, found⟩
    exact ⟨entry, eq_target_of_find? found ▸ found⟩
  · rintro ⟨entry, found⟩
    exact ⟨_, found⟩

/-- Whether what a path leads to in the end has been written on the way. -/
structure Produced
    (changes : List Change)
    (current : Location)
    (path : Path)
    (after : FileSystem) : Prop where
  written : Written changes (path.target current)
  isThere : ∃ entry, after.find? current path = some (path.target current, entry)

/-- Whether what a path leads to in the end lay there before, and nothing was written there. -/
structure LeftOver
    (changes : List Change)
    (current : Location)
    (path : Path)
    (before after : FileSystem) : Prop where
  unwritten : ¬ Written changes (path.target current)
  isThere : ∃ entry, after.find? current path = some (path.target current, entry)
  asBefore : ∀ entry, after.entry? (path.target current) = some entry →
    before.entry? (path.target current) = some entry

/-- What is there in the end has been written on the way, or it is left over. -/
theorem Leads.exists?_iff
    {changes : List Change}
    (leads : Leads changes before after)
    {path : Path} :
    after.exists? current path = true ↔
      Produced changes current path after ∨ LeftOver changes current path before after := by
  rw [FileSystem.exists?_iff]
  constructor
  · intro isThere
    by_cases written : Written changes (path.target current)
    · exact .inl ⟨written, isThere⟩
    · exact .inr ⟨written, isThere, fun _ there => leads.entry?_of_unwritten written there⟩
  · rintro (produced | leftOver)
    · exact produced.isThere
    · exact leftOver.isThere

/-- The text of a file that is left over was there before, if the way to the file was. -/
theorem LeftOver.readText
    {changes : List Change}
    {base : Path}
    {name text : String}
    (isName : FileName name)
    (leftOver : LeftOver changes current (base.joinText name) before after)
    {directory : Location}
    (enters : before.Enters current base directory)
    (isText : after.readText current (base.joinText name) = .ok text) :
    before.readText current (base.joinText name) = .ok text := by
  rcases (readText_joinText_iff isName).mp isText with ⟨other, executable, entersAfter, isFile⟩
  have isTarget : (base.joinText name).target current = base.target current ++ [name] := by
    rw [joinText_name base isName, Path.target_append_name isName.plain, Path.target_openPieces]
  cases enters.eq_target
  cases entersAfter.eq_target
  refine (readText_joinText_iff isName).mpr ⟨_, executable, enters, ?_⟩
  rw [← isTarget] at isFile ⊢
  exact leftOver.asBefore _ isFile

end Concordance.FileSystem
