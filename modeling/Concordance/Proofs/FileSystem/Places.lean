import Concordance.Proofs.FileSystem.Writing

/-!
# Where writing puts things

A path that leads to no directory ends in a name, whatever its other pieces
say: that name in the directory that they enter is where it leads
(`exists_name_of_resolve`).  Something put there is found under the same path,
since the directories on the way are still there (`Keeps.resolve_put`).  So a
file that is written lies where its path led before, and nowhere else does
anything change (`writeText_eq_ok`).
-/

namespace Concordance.FileSystem

open Concordance.Path (component?)

variable {files after : FileSystem} {current : Location}

theorem find?_of_resolve
    {path : Path}
    {location : Location}
    {entry : Entry}
    (resolved : files.resolve current path = .ok (.existing location entry)) :
    files.find? current path = some (location, entry) := by
  rw [find?, resolved]

theorem resolve_of_find?
    {path : Path}
    {location : Location}
    {entry : Entry}
    (found : files.find? current path = some (location, entry)) :
    files.resolve current path = .ok (.existing location entry) := by
  rw [find?] at found
  split at found
  · rename_i resolved
    cases found
    exact resolved
  · cases found

/-- The last piece of a path is followed from where the others lead. -/
theorem exists_follow_of_resolve
    {rooted : Bool}
    {pieces : List String}
    {last : String}
    {place : Place}
    (resolved : files.resolve current ⟨rooted, pieces ++ [last]⟩ = .ok place) :
    ∃ above, files.follow above last = .ok place := by
  rw [resolve] at resolved
  split at resolved
  · cases resolved
  split at resolved
  · cases resolved
  dsimp only at resolved
  split at resolved
  · rw [List.foldlM_append, bind_eq_ok_iff] at resolved
    rcases resolved with ⟨above, -, walked⟩
    rw [List.foldlM_cons, bind_eq_ok_iff] at walked
    rcases walked with ⟨_, followed, ⟨⟩⟩
    exact ⟨above, followed⟩
  · cases resolved

/-- A piece that leads to no directory is a name. -/
theorem plain_of_follow
    {above place : Place}
    {last : String}
    (notEmpty : last ≠ "")
    (followed : files.follow above last = .ok place)
    (noDirectory : ∀ location, place ≠ .existing location .directory) :
    component? false last = some (.name last) := by
  cases above with
  | absent directory name =>
      rw [follow, if_neg notEmpty] at followed
      cases followed
  | existing location entry =>
      cases entry with
      | file => cases followed
      | directory =>
          rw [follow] at followed
          split at followed
          · exact (noDirectory _ (Except.ok.inj followed).symm).elim
          split at followed
          · exact (noDirectory _ (Except.ok.inj followed).symm).elim
          · rename_i notIdle notUp
            rcases Path.component?_cases last with
              ⟨idle, -⟩ | ⟨up, -⟩ | ⟨-, -, -, down⟩
            · exact (notIdle idle).elim
            · exact (notUp up).elim
            · exact down

/-- A path without a slash at its end that leads to no directory ends in a name. -/
theorem exists_name_of_resolve
    {path : Path}
    (noSlash : path.endsWithSlash = false)
    {place : Place}
    (resolved : files.resolve current path = .ok place)
    (noDirectory : ∀ location, place ≠ .existing location .directory) :
    ∃ pieces name, path = ⟨path.rooted, pieces ++ [name]⟩ ∧
      component? false name = some (.name name) := by
  rcases path with ⟨rooted, pieces⟩
  rcases List.eq_nil_or_concat pieces with rfl | ⟨front, last, rfl⟩
  · -- Without pieces the path is the root, which has a slash, or it is empty.
    cases rooted
    · cases resolved
    · cases noSlash
  · rw [List.concat_eq_append] at resolved noSlash ⊢
    rw [Path.endsWithSlash, List.getLast?_concat] at noSlash
    rcases exists_follow_of_resolve resolved with ⟨above, followed⟩
    exact ⟨front, last, rfl,
      plain_of_follow (by simpa using noSlash) followed noDirectory⟩

/-- What is put where a path leads is found there, if no directory makes way for it. -/
theorem resolve_put
    {path : Path}
    (noSlash : path.endsWithSlash = false)
    {place : Place}
    (resolved : files.resolve current path = .ok place)
    (noDirectory : ∀ location, place ≠ .existing location .directory)
    (entry : Entry) :
    place.location ≠ [] ∧ files.entry? place.location ≠ some .directory ∧
      (files.put place.location entry).resolve current path =
        .ok (.existing place.location entry) := by
  rcases exists_name_of_resolve noSlash resolved noDirectory with ⟨pieces, name, isPath, plain⟩
  rw [isPath] at resolved ⊢
  rcases (resolve_append_name_iff plain).mp resolved with ⟨isName, directory, enters, rfl⟩
  have free := entry?_of_placeIn noDirectory
  have keeps : Keeps (fun _ => False) files (files.put (directory ++ [name]) entry) :=
    keeps_put (by simp) fun old there => ⟨fun isDirectory => free (isDirectory ▸ there), id⟩
  rw [location_placeIn]
  refine ⟨by simp, free, (resolve_append_name_iff plain).mpr ⟨isName, directory, ?_, ?_⟩⟩
  · exact keeps.enters enters
  · have there : entry? (files.put (directory ++ [name]) entry) (directory ++ [name]) =
        some entry := by
      rw [lookup_put (by simp), if_pos rfl]
    exact (placeIn_eq_existing_iff.mpr ⟨rfl, there⟩).symm

/-- A text is written where the path leads, and is found there under the same path. -/
theorem writeText_eq_ok
    {path : Path}
    {text : String}
    (wrote : files.writeText current path text = .ok after) :
    ∃ place executable,
      files.resolve current path = .ok place ∧
      files.entry? place.location ≠ some .directory ∧
      after.resolve current path =
        .ok (.existing place.location (.file (.text text) executable)) ∧
      ∀ other, after.entry? other =
        if other = place.location then some (.file (.text text) executable)
        else files.entry? other := by
  rw [writeText, write, bind_eq_ok_iff] at wrote
  rcases wrote with ⟨⟨location, executable⟩, found, ⟨⟩⟩
  rcases writable_eq_ok found with ⟨noSlash, place, resolved, rfl, noDirectory⟩
  rcases resolve_put noSlash resolved noDirectory (.file (.text text) executable) with
    ⟨below, free, resolvedAfter⟩
  exact ⟨place, executable, resolved, free, resolvedAfter, fun other => lookup_put below⟩

end Concordance.FileSystem
