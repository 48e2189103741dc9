import Concordance.EntryPoints
import Concordance.Proofs.Failure
import Concordance.Proofs.Path.Ordering
import Concordance.Proofs.Path.Relative

/-!
# Which files are selected

Adding paths one after the other gives an ascending list in which each of them
has a path with the same components, and nothing else
(`mem_insertPaths`, `covers_insertPaths_iff`).  So what is selected is told by
the paths that are wanted: those that an included pattern yields, that are
files, and that no excluded pattern matches (`Selection.Wants`).  Order and
repetition of patterns do not matter, and wanting more selects more.
-/

namespace Concordance

/-! ### Ascending lists -/

namespace Selection

/-- Whether paths are in ascending order, and so no two have the same components. -/
def Ascending (paths : List Path) : Prop :=
  paths.Pairwise fun first second => first.lt second = true

/-- Whether a path with the same components is among some paths. -/
def Covers (paths : List Path) (path : Path) : Prop :=
  ∃ found ∈ paths, found.same path = true

theorem not_covers_nil (path : Path) : ¬ Covers [] path := by
  rintro ⟨found, isMember, -⟩
  exact List.not_mem_nil isMember

theorem covers_cons_iff {first path : Path} {rest : List Path} :
    Covers (first :: rest) path ↔ first.same path = true ∨ Covers rest path :=
  List.exists_mem_cons_iff _ _ _

theorem covers_of_mem {paths : List Path} {path : Path} (inPaths : path ∈ paths) :
    Covers paths path :=
  ⟨path, inPaths, Path.same_iff.mpr rfl⟩

theorem mem_insertPath
    {path other : Path}
    {paths : List Path}
    (inserted : other ∈ insertPath path paths) :
    other = path ∨ other ∈ paths := by
  induction paths with
  | nil => exact .inl (List.mem_singleton.mp inserted)
  | cons first rest induction =>
      rw [insertPath] at inserted
      split at inserted
      · exact List.mem_cons.mp inserted
      split at inserted
      · exact .inr inserted
      · rcases List.mem_cons.mp inserted with rfl | below
        · exact .inr List.mem_cons_self
        · exact (induction below).imp_right (List.mem_cons_of_mem _)

theorem covers_insertPath_iff {path other : Path} {paths : List Path} :
    Covers (insertPath path paths) other ↔ path.same other = true ∨ Covers paths other := by
  induction paths with
  | nil => exact covers_cons_iff
  | cons first rest induction =>
      rw [insertPath]
      split
      · exact covers_cons_iff
      split
      · rename_i same
        rw [covers_cons_iff]
        -- The path that is there already stands for the new one.
        refine ⟨.inr, ?_⟩
        rintro (isOther | covered)
        · exact .inl (Path.same_iff.mpr
            ((Path.same_iff.mp same).symm.trans (Path.same_iff.mp isOther)))
        · exact covered
      · rw [covers_cons_iff, covers_cons_iff, induction, or_left_comm]

theorem ascending_insertPath
    {paths : List Path}
    (ascending : Ascending paths)
    (path : Path) :
    Ascending (insertPath path paths) := by
  induction paths with
  | nil => exact List.pairwise_singleton _ _
  | cons first rest induction =>
      rcases List.pairwise_cons.mp ascending with ⟨least, restAscending⟩
      rw [insertPath]
      split
      · rename_i before
        refine List.pairwise_cons.mpr ⟨List.forall_mem_cons.mpr ⟨before, ?_⟩, ascending⟩
        exact fun other inRest => Path.lt_trans before (least other inRest)
      split
      · exact ascending
      · rename_i notBefore notSame
        refine List.pairwise_cons.mpr ⟨fun other inserted => ?_, induction restAscending⟩
        rcases mem_insertPath inserted with rfl | inRest
        · by_contra notAfter
          exact notSame (Path.same_of_not_lt notBefore notAfter)
        · exact least other inRest

/-- Add paths one after the other. -/
def insertPaths (found paths : List Path) : List Path :=
  paths.foldl (fun found path => insertPath path found) found

theorem ascending_insertPaths
    {found : List Path}
    (ascending : Ascending found)
    (paths : List Path) :
    Ascending (insertPaths found paths) := by
  induction paths generalizing found with
  | nil => exact ascending
  | cons path paths induction => exact induction (ascending_insertPath ascending path)

theorem mem_insertPaths
    {found paths : List Path}
    {path : Path}
    (inserted : path ∈ insertPaths found paths) :
    path ∈ paths ∨ path ∈ found := by
  induction paths generalizing found with
  | nil => exact .inr inserted
  | cons first paths induction =>
      rcases induction inserted with inPaths | inFound
      · exact .inl (List.mem_cons_of_mem _ inPaths)
      · rcases mem_insertPath inFound with rfl | inFound
        · exact .inl List.mem_cons_self
        · exact .inr inFound

theorem covers_insertPaths_iff {found paths : List Path} {path : Path} :
    Covers (insertPaths found paths) path ↔ Covers paths path ∨ Covers found path := by
  induction paths generalizing found with
  | nil => simp [insertPaths, Covers]
  | cons first paths induction =>
      rw [covers_cons_iff, or_assoc, or_left_comm, ← covers_insertPath_iff]
      exact induction

/-- If each of two ascending lists covers the other, they begin with the same path. -/
theorem same_head_of_covers
    {first second : Path}
    {firsts seconds : List Path}
    (ascendingFirst : Ascending (first :: firsts))
    (ascendingSecond : Ascending (second :: seconds))
    (firstCovered : Covers (second :: seconds) first)
    (secondCovered : Covers (first :: firsts) second) :
    first.same second = true := by
  rcases covers_cons_iff.mp firstCovered with same | ⟨later, inSeconds, isFirst⟩
  · exact Path.same_iff.mpr (Path.same_iff.mp same).symm
  rcases covers_cons_iff.mp secondCovered with same | ⟨other, inFirsts, isSecond⟩
  · exact same
  -- Otherwise each of them would come before the other.
  have before : first.lt second = true := by
    rw [← Path.lt_congr (Path.same_iff.mpr rfl) isSecond]
    exact (List.pairwise_cons.mp ascendingFirst).1 other inFirsts
  have after : second.lt first = true := by
    rw [← Path.lt_congr (Path.same_iff.mpr rfl) isFirst]
    exact (List.pairwise_cons.mp ascendingSecond).1 later inSeconds
  have circle := Path.lt_trans before after
  rw [Path.lt_irrefl] at circle
  cases circle

/-- What is covered behind a path is covered without that path. -/
theorem covers_tail
    {first second path : Path}
    {firsts seconds : List Path}
    (ascending : Ascending (first :: firsts))
    (same : first.same second = true)
    (inFirsts : path ∈ firsts)
    (covered : Covers (second :: seconds) path) :
    Covers seconds path := by
  rcases covers_cons_iff.mp covered with isSecond | behind
  · have later := (List.pairwise_cons.mp ascending).1 path inFirsts
    rw [Path.lt_congr same (Path.same_iff.mpr rfl), Path.lt_congr isSecond (Path.same_iff.mpr rfl),
      Path.lt_irrefl] at later
    cases later
  · exact behind

/-- Ascending lists that cover each other have the same paths, up to their spelling. -/
theorem forall₂_same_of_covers
    {first second : List Path}
    (ascendingFirst : Ascending first)
    (ascendingSecond : Ascending second)
    (firstCovered : ∀ path ∈ first, Covers second path)
    (secondCovered : ∀ path ∈ second, Covers first path) :
    List.Forall₂ (fun one other => one.same other = true) first second := by
  induction first generalizing second with
  | nil =>
      cases second with
      | nil => exact .nil
      | cons other seconds =>
          exact (not_covers_nil other (secondCovered other List.mem_cons_self)).elim
  | cons one firsts induction =>
      cases second with
      | nil => exact (not_covers_nil one (firstCovered one List.mem_cons_self)).elim
      | cons other seconds =>
          have same := same_head_of_covers ascendingFirst ascendingSecond
            (firstCovered one List.mem_cons_self) (secondCovered other List.mem_cons_self)
          have symm := Path.same_iff.mpr (Path.same_iff.mp same).symm
          refine .cons same (induction (List.Pairwise.of_cons ascendingFirst)
            (List.Pairwise.of_cons ascendingSecond) ?_ ?_)
          · exact fun path inFirsts => covers_tail ascendingFirst same inFirsts
              (firstCovered path (List.mem_cons_of_mem _ inFirsts))
          · exact fun path inSeconds => covers_tail ascendingSecond symm inSeconds
              (secondCovered path (List.mem_cons_of_mem _ inSeconds))

/-! ### What is wanted -/

/-- Whether an included pattern, seen from the directory of the repository, yields a path. -/
def Yields (selection : Selection) (expand : Expansion) (path : Path) : Prop :=
  ∃ pattern ∈ selection.included, ∃ paths,
    expand (selection.root.joinText pattern).text = .ok paths ∧ .ok path ∈ paths

/-- Whether an excluded pattern matches a path as it is seen from the directory. -/
def Excludes (selection : Selection) (path : Path) : Prop :=
  ∃ seen, path.SeenFrom selection.root seen ∧
    ∃ text ∈ selection.excluded, ∃ pattern, Glob.Pattern.ofText text = .ok pattern ∧
      pattern.accepts seen.text = true

/-- Whether a path is to be selected. -/
structure Wants
    (selection : Selection)
    (isFile : Path → Bool)
    (expand : Expansion)
    (path : Path) : Prop where
  yielded : selection.Yields expand path
  isFile : isFile path = true
  kept : ¬ selection.Excludes path

/-- Whether all patterns are valid and all directories that they lead to can be read. -/
structure Sound (selection : Selection) (expand : Expansion) : Prop where
  excluded : ∀ text ∈ selection.excluded, ∃ pattern, Glob.Pattern.ofText text = .ok pattern
  included : ∀ pattern ∈ selection.included, ∃ paths : List Path,
    expand (selection.root.joinText pattern).text = .ok (paths.map .ok)

variable {selection : Selection} {isFile : Path → Bool} {expand : Expansion}

theorem excludes_iff {path : Path} :
    selection.Excludes path ↔
      ∃ text ∈ selection.excluded, ∃ pattern, Glob.Pattern.ofText text = .ok pattern ∧
        pattern.accepts (selection.relative path).text = true := by
  rw [Excludes, relative]
  simp only [Path.seenFrom_iff, exists_eq_left']

theorem exists_excludedPatterns
    (valid : ∀ text ∈ selection.excluded, ∃ pattern, Glob.Pattern.ofText text = .ok pattern) :
    ∃ patterns, selection.excludedPatterns = .ok patterns ∧
      ∀ path, selection.isExcluded patterns path = true ↔ selection.Excludes path := by
  have each : ∀ text ∈ selection.excluded, ∃ pattern,
      (Glob.Pattern.ofText text).mapError
        (EntryPointError.invalidPattern selection.repository text) = .ok pattern := by
    simpa only [mapError_eq_ok_iff] using valid
  rcases exists_mapM_eq_ok_iff.mpr each with ⟨patterns, read⟩
  refine ⟨patterns, read, fun path => ?_⟩
  have related := mapM_eq_ok_iff.mp read
  simp only [mapError_eq_ok_iff] at related
  rw [isExcluded, List.any_eq_true, excludes_iff]
  constructor
  · rintro ⟨pattern, inPatterns, accepts⟩
    rcases exists_mem_of_forall₂ related.flip pattern inPatterns with ⟨text, inTexts, isPattern⟩
    exact ⟨text, inTexts, pattern, isPattern, accepts⟩
  · rintro ⟨text, inTexts, pattern, isPattern, accepts⟩
    rcases exists_mem_of_forall₂ related text inTexts with ⟨other, inPatterns, isOther⟩
    cases isPattern.symm.trans isOther
    exact ⟨pattern, inPatterns, accepts⟩

theorem excludedPatterns_eq_error
    {before after : List String}
    {text : String}
    {fault : Glob.Fault}
    (cut : selection.excluded = before ++ text :: after)
    (valid : ∀ earlier ∈ before, ∃ pattern, Glob.Pattern.ofText earlier = .ok pattern)
    (invalid : Glob.Pattern.ofText text = .error fault) :
    selection.excludedPatterns = .error (.invalidPattern selection.repository text fault) := by
  refine mapM_eq_error_iff.mpr ⟨before, text, after, cut, ?_, ?_⟩
  · simpa only [mapError_eq_ok_iff] using valid
  · rw [invalid]
    rfl

/-! ### The loop -/

/-- The paths that are added of those that a pattern yields. -/
def kept
    (selection : Selection)
    (isFile : Path → Bool)
    (excluded : List Glob.Pattern)
    (paths : List Path) : List Path :=
  paths.filter fun path => isFile path && !selection.isExcluded excluded path

theorem foldlM_add
    (excluded : List Glob.Pattern)
    (found paths : List Path) :
    (paths.map .ok).foldlM (selection.add isFile excluded) found =
      .ok (insertPaths found (selection.kept isFile excluded paths)) := by
  induction paths generalizing found with
  | nil => rfl
  | cons path paths induction =>
      rw [List.map_cons, List.foldlM_cons, add, kept, List.filter_cons]
      split
      · exact induction (insertPath path found)
      · exact induction found

theorem exists_foldlM_addPattern
    (isFile : Path → Bool)
    (excluded : List Glob.Pattern)
    {included : List String}
    (readable : ∀ pattern ∈ included, ∃ paths : List Path,
      expand (selection.root.joinText pattern).text = .ok (paths.map .ok))
    (found : List Path) :
    ∃ added,
      included.foldlM (selection.addPattern isFile expand excluded) found =
        .ok (insertPaths found added) ∧
      ∀ path, path ∈ added ↔
        ({ selection with included := included } : Selection).Yields expand path ∧
          (isFile path && !selection.isExcluded excluded path) = true := by
  induction included generalizing found with
  | nil => exact ⟨[], rfl, by simp [Yields]⟩
  | cons pattern included induction =>
      rcases List.forall_mem_cons.mp readable with ⟨⟨paths, expanded⟩, others⟩
      rcases induction others (insertPaths found (selection.kept isFile excluded paths)) with
        ⟨added, run, wanted⟩
      refine ⟨selection.kept isFile excluded paths ++ added, ?_, fun path => ?_⟩
      · have here : selection.addPattern isFile expand excluded found pattern =
            .ok (insertPaths found (selection.kept isFile excluded paths)) := by
          rw [addPattern, expanded]
          exact foldlM_add excluded found paths
        rw [List.foldlM_cons, here]
        refine run.trans ?_
        rw [insertPaths, insertPaths, insertPaths, List.foldl_append]
      · rw [List.mem_append, wanted, kept, List.mem_filter, Yields, Yields,
          List.exists_mem_cons_iff, or_and_right]
        refine or_congr (and_congr_left fun _ => ?_) Iff.rfl
        constructor
        · exact fun inPaths => ⟨_, expanded, List.mem_map.mpr ⟨path, inPaths, rfl⟩⟩
        · rintro ⟨_, isExpanded, inPaths⟩
          cases expanded.symm.trans isExpanded
          rcases List.mem_map.mp inPaths with ⟨_, inPaths, ⟨⟩⟩
          exact inPaths

/-! ### What is selected -/

/-- Sound patterns lead to the wanted paths, which are sorted, each once, unless there are none. -/
theorem exists_wanted
    (isFile : Path → Bool)
    (sound : selection.Sound expand) :
    ∃ wanted, (∀ path, path ∈ wanted ↔ selection.Wants isFile expand path) ∧
      selection.select isFile expand =
        if (insertPaths [] wanted).isEmpty then .error (.noEntryPoints selection.repository)
        else .ok ⟨selection.repository, insertPaths [] wanted⟩ := by
  rcases exists_excludedPatterns sound.excluded with ⟨excluded, read, excludes⟩
  rcases exists_foldlM_addPattern isFile excluded sound.included [] with ⟨wanted, run, isWanted⟩
  refine ⟨wanted, fun path => ?_, ?_⟩
  · rw [isWanted, Bool.and_eq_true, Bool.not_eq_true', ← Bool.not_eq_true, excludes]
    constructor
    · rintro ⟨yielded, isFile, kept⟩
      exact ⟨yielded, isFile, kept⟩
    · rintro ⟨yielded, isFile, kept⟩
      exact ⟨yielded, isFile, kept⟩
  · have afterExcluded : selection.select isFile expand =
        (selection.included.foldlM (selection.addPattern isFile expand excluded) [] >>=
          fun files =>
            if files.isEmpty then .error (.noEntryPoints selection.repository)
            else .ok ⟨selection.repository, files⟩) := by
      rw [select, read]
      rfl
    rw [afterExcluded, run]
    rfl

/-- Whether some files are those that are wanted, in ascending order and each once. -/
structure Selects
    (selection : Selection)
    (isFile : Path → Bool)
    (expand : Expansion)
    (files : List Path) : Prop where
  ascending : Ascending files
  wanted : ∀ path ∈ files, selection.Wants isFile expand path
  complete : ∀ path, selection.Wants isFile expand path → Covers files path

/-- With sound patterns the wanted files are selected, or there are none. -/
theorem select_cases (isFile : Path → Bool) (sound : selection.Sound expand) :
    (∃ files, selection.select isFile expand = .ok ⟨selection.repository, files⟩ ∧
        selection.Selects isFile expand files ∧
        ∃ path, selection.Wants isFile expand path) ∨
      (selection.select isFile expand = .error (.noEntryPoints selection.repository) ∧
        ∀ path, ¬ selection.Wants isFile expand path) := by
  rcases exists_wanted isFile sound with ⟨wanted, isWanted, isSelected⟩
  have covers (path : Path) : Covers (insertPaths [] wanted) path ↔ Covers wanted path := by
    rw [covers_insertPaths_iff, or_iff_left (not_covers_nil path)]
  have ofInserted (path : Path) (inserted : path ∈ insertPaths [] wanted) :
      selection.Wants isFile expand path :=
    (isWanted path).mp ((mem_insertPaths inserted).resolve_right List.not_mem_nil)
  cases found : insertPaths [] wanted with
  | nil =>
      rw [found] at isSelected covers
      refine .inr ⟨isSelected, fun path wants => ?_⟩
      exact not_covers_nil path ((covers path).mpr (covers_of_mem ((isWanted path).mpr wants)))
  | cons first rest =>
      rw [found] at isSelected covers ofInserted
      refine .inl ⟨first :: rest, isSelected, ⟨?_, ofInserted, fun path wants => ?_⟩,
        first, ofInserted first List.mem_cons_self⟩
      · rw [← found]
        exact ascending_insertPaths .nil wanted
      · exact (covers path).mpr (covers_of_mem ((isWanted path).mpr wants))

/-- Whether two selections come to the same, up to the spelling of paths. -/
inductive Alike :
    Except EntryPointError EntryPoints → Except EntryPointError EntryPoints → Prop
  | selected
      (repository : String)
      {first second : List Path}
      (same : List.Forall₂ (fun one other => one.same other = true) first second) :
      Alike (.ok ⟨repository, first⟩) (.ok ⟨repository, second⟩)
  | failed (error : EntryPointError) : Alike (.error error) (.error error)

/-- The selection with other patterns. -/
def withPatterns (selection : Selection) (included excluded : List String) : Selection :=
  { selection with included, excluded }

theorem Sound.withPatterns
    (sound : selection.Sound expand)
    {included excluded : List String}
    (fewerIncluded : ∀ pattern ∈ included, pattern ∈ selection.included)
    (fewerExcluded : ∀ pattern ∈ excluded, pattern ∈ selection.excluded) :
    (selection.withPatterns included excluded).Sound expand where
  excluded text isExcluded := sound.excluded text (fewerExcluded text isExcluded)
  included pattern isIncluded := sound.included pattern (fewerIncluded pattern isIncluded)

/-- More patterns to include and fewer to exclude want more. -/
theorem Wants.mono
    {included excluded : List String}
    (more : ∀ pattern ∈ selection.included, pattern ∈ included)
    (fewer : ∀ pattern ∈ excluded, pattern ∈ selection.excluded)
    {path : Path}
    (wants : selection.Wants isFile expand path) :
    (selection.withPatterns included excluded).Wants isFile expand path where
  yielded := by
    rcases wants.yielded with ⟨pattern, isIncluded, paths, expanded, inPaths⟩
    exact ⟨pattern, more pattern isIncluded, paths, expanded, inPaths⟩
  isFile := wants.isFile
  kept := by
    rintro ⟨seen, sees, text, isExcluded, pattern, isPattern, accepts⟩
    exact wants.kept ⟨seen, sees, text, fewer text isExcluded, pattern, isPattern, accepts⟩

theorem Selects.forall₂
    {other : Selection}
    {files otherFiles : List Path}
    (selects : selection.Selects isFile expand files)
    (otherSelects : other.Selects isFile expand otherFiles)
    (same : ∀ path, selection.Wants isFile expand path ↔ other.Wants isFile expand path) :
    List.Forall₂ (fun one other => one.same other = true) files otherFiles :=
  forall₂_same_of_covers selects.ascending otherSelects.ascending
    (fun path inFiles => otherSelects.complete path ((same path).mp (selects.wanted path inFiles)))
    (fun path inFiles => selects.complete path ((same path).mpr (otherSelects.wanted path inFiles)))

/-- What is selected is told by what is wanted. -/
theorem alike_of_wants_iff
    {other : Selection}
    (sameName : selection.repository = other.repository)
    (sound : selection.Sound expand)
    (otherSound : other.Sound expand)
    (same : ∀ path, selection.Wants isFile expand path ↔ other.Wants isFile expand path) :
    Alike (selection.select isFile expand) (other.select isFile expand) := by
  rcases select_cases isFile sound with
    ⟨files, isSelected, selects, path, wants⟩ | ⟨isNone, none⟩ <;>
  rcases select_cases isFile otherSound with
    ⟨otherFiles, isOther, otherSelects, otherPath, otherWants⟩ | ⟨isOther, noOther⟩
  · rw [isSelected, isOther, sameName]
    exact .selected _ (selects.forall₂ otherSelects same)
  · exact (noOther path ((same path).mp wants)).elim
  · exact (none otherPath ((same otherPath).mpr otherWants)).elim
  · rw [isNone, isOther, sameName]
    exact .failed _

/--
An invalid excluded pattern is reported, the first one, whatever is included.
If all patterns are valid and all directories can be read, the wanted files are
selected in ascending order and each once, or it is reported that there are
none.  Then neither order nor repetition of patterns matters, up to the
spelling of paths, and with more patterns to include and fewer to exclude no
file is lost.
-/
theorem select_exactly (selection : Selection) (isFile : Path → Bool) (expand : Expansion) :
    (∀ before text after fault,
      selection.excluded = before ++ text :: after →
      (∀ earlier ∈ before, ∃ pattern, Glob.Pattern.ofText earlier = .ok pattern) →
      Glob.Pattern.ofText text = .error fault →
        selection.select isFile expand =
          .error (.invalidPattern selection.repository text fault)) ∧
    (selection.Sound expand →
      ((∃ path, selection.Wants isFile expand path) →
        ∃ files, selection.select isFile expand = .ok ⟨selection.repository, files⟩ ∧
          selection.Selects isFile expand files) ∧
      ((∀ path, ¬ selection.Wants isFile expand path) →
        selection.select isFile expand = .error (.noEntryPoints selection.repository)) ∧
      (∀ included excluded,
        (∀ pattern, pattern ∈ included ↔ pattern ∈ selection.included) →
        (∀ pattern, pattern ∈ excluded ↔ pattern ∈ selection.excluded) →
          Alike ((selection.withPatterns included excluded).select isFile expand)
            (selection.select isFile expand)) ∧
      ∀ included excluded,
        (∀ pattern ∈ selection.included, pattern ∈ included) →
        (∀ pattern ∈ excluded, pattern ∈ selection.excluded) →
        (selection.withPatterns included excluded).Sound expand →
          ∀ files, selection.select isFile expand = .ok ⟨selection.repository, files⟩ →
            ∃ more,
              (selection.withPatterns included excluded).select isFile expand =
                .ok ⟨selection.repository, more⟩ ∧
              ∀ path ∈ files, Covers more path) := by
  refine ⟨?_, fun sound => ⟨?_, ?_, ?_, ?_⟩⟩
  · intro before text after fault cut valid invalid
    rw [select, excludedPatterns_eq_error cut valid invalid]
    rfl
  · rintro ⟨path, wants⟩
    rcases select_cases isFile sound with ⟨files, isSelected, selects, -⟩ | ⟨-, none⟩
    · exact ⟨files, isSelected, selects⟩
    · exact (none path wants).elim
  · intro none
    rcases select_cases isFile sound with ⟨-, -, -, path, wants⟩ | ⟨isNone, -⟩
    · exact (none path wants).elim
    · exact isNone
  · intro included excluded sameIncluded sameExcluded
    have otherSound : (selection.withPatterns included excluded).Sound expand :=
      sound.withPatterns (fun pattern => (sameIncluded pattern).mp)
        fun pattern => (sameExcluded pattern).mp
    refine alike_of_wants_iff rfl otherSound sound fun path => ⟨?_, ?_⟩
    · exact fun wants => wants.mono (fun pattern => (sameIncluded pattern).mp)
        fun pattern => (sameExcluded pattern).mpr
    · exact fun wants => wants.mono (fun pattern => (sameIncluded pattern).mpr)
        fun pattern => (sameExcluded pattern).mp
  · intro included excluded more fewer otherSound files isSelected
    rcases select_cases isFile sound with ⟨own, isOwn, selects, path, wants⟩ | ⟨isNone, -⟩
    · cases isOwn.symm.trans isSelected
      rcases select_cases isFile otherSound with
        ⟨others, isOther, otherSelects, -⟩ | ⟨-, noOther⟩
      · exact ⟨others, isOther, fun path inFiles =>
          otherSelects.complete path ((selects.wanted path inFiles).mono more fewer)⟩
      · exact (noOther path (wants.mono more fewer)).elim
    · cases isNone.symm.trans isSelected

/-- A checkout with sources and a test. -/
def checkout : FileSystem :=
  ⟨[(["guide"], .directory), (["guide", "src"], .directory),
    (["guide", "src", "b.ts"], .file (.text "") false),
    (["guide", "src", "a.ts"], .file (.text "") false),
    (["guide", "src", "a.test.ts"], .file (.text "") false)]⟩

/-- Patterns of which two yield one file, and a test that is excluded as the directory sees it. -/
def overlapping : Selection :=
  ⟨"guide", .ofText "/guide", ["*/b.ts", "src/a.ts", "src/b.ts", "src/a.test.ts"],
    ["src/*.test.ts"]⟩

theorem sound_overlapping : overlapping.Sound (Glob.expansion checkout []) where
  excluded := by
    intro text isExcluded
    rw [List.mem_singleton.mp isExcluded]
    have valid : (Glob.Pattern.ofText "src/*.test.ts").isOk = true := by decide +kernel
    cases read : Glob.Pattern.ofText "src/*.test.ts" with
    | ok pattern => exact ⟨pattern, rfl⟩
    | error fault =>
        rw [read] at valid
        cases valid
  included := by
    refine List.forall_mem_cons.mpr ⟨⟨[.ofText "/guide/src/b.ts"], by decide +kernel⟩, ?_⟩
    refine List.forall_mem_cons.mpr ⟨⟨[.ofText "/guide/src/a.ts"], by decide +kernel⟩, ?_⟩
    refine List.forall_mem_cons.mpr ⟨⟨[.ofText "/guide/src/b.ts"], by decide +kernel⟩, ?_⟩
    refine List.forall_mem_cons.mpr ⟨⟨[.ofText "/guide/src/a.test.ts"], by decide +kernel⟩, nofun⟩

theorem wants_overlapping :
    overlapping.Wants (checkout.isFile []) (Glob.expansion checkout [])
      (.ofText "/guide/src/a.ts") where
  yielded :=
    ⟨"src/a.ts", by decide +kernel, [.ok (.ofText "/guide/src/a.ts")], by decide +kernel,
      List.mem_singleton_self _⟩
  isFile := by decide +kernel
  kept := by
    rw [excludes_iff]
    rintro ⟨text, isExcluded, pattern, isPattern, accepts⟩
    have refused : (Glob.Pattern.ofText "src/*.test.ts").map
        (·.accepts (overlapping.relative (.ofText "/guide/src/a.ts")).text) = .ok false := by
      decide +kernel
    rw [List.mem_singleton.mp isExcluded] at isPattern
    rw [isPattern] at refused
    exact absurd (accepts.symm.trans (Except.ok.inj refused)) (by decide)

/--
Sources that two patterns yield are selected once, whatever the order of the
patterns is, and a test is left out that only its place in the repository excludes.
-/
theorem select_exactly_overlapping :
    (overlapping.selectIn checkout [] =
        .ok ⟨"guide", [.ofText "/guide/src/a.ts", .ofText "/guide/src/b.ts"]⟩ ∧
      overlapping.Selects (checkout.isFile []) (Glob.expansion checkout [])
        [.ofText "/guide/src/a.ts", .ofText "/guide/src/b.ts"] ∧
      ∃ more,
        (overlapping.withPatterns overlapping.included []).selectIn checkout [] =
          .ok ⟨"guide", more⟩ ∧
        Covers more (.ofText "/guide/src/a.ts") ∧ Covers more (.ofText "/guide/src/b.ts")) ∧
      Alike
        ((overlapping.withPatterns overlapping.included.reverse
          ["src/*.test.ts", "src/*.test.ts"]).selectIn checkout [])
        (overlapping.selectIn checkout []) ∧
      (overlapping.withPatterns [] []).selectIn checkout [] = .error (.noEntryPoints "guide") ∧
      (overlapping.withPatterns ["[", "src/a.ts"] ["src/*.test.ts", "src/["]).selectIn checkout [] =
        .error (.invalidPattern "guide" "src/[" ⟨4, .invalidRange⟩) := by
  have told (selection : Selection) :=
    select_exactly selection (checkout.isFile []) (Glob.expansion checkout [])
  have sources : overlapping.selectIn checkout [] =
      .ok ⟨"guide", [.ofText "/guide/src/a.ts", .ofText "/guide/src/b.ts"]⟩ := by
    decide +kernel
  rcases (told overlapping).2 sound_overlapping with ⟨some, -, sameMembers, more⟩
  rcases some ⟨_, wants_overlapping⟩ with ⟨files, isSelected, selects⟩
  cases sources.symm.trans isSelected
  have withoutExcluded :
      (overlapping.withPatterns overlapping.included []).Sound (Glob.expansion checkout []) :=
    sound_overlapping.withPatterns (fun _ => id) nofun
  have nothing : (overlapping.withPatterns [] []).Sound (Glob.expansion checkout []) :=
    sound_overlapping.withPatterns nofun nofun
  refine ⟨⟨sources, selects, ?_⟩, ?_, ?_, ?_⟩
  · rcases more overlapping.included [] (fun _ => id) nofun withoutExcluded _ isSelected with
      ⟨others, isOther, covered⟩
    exact ⟨others, isOther, covered _ (by decide), covered _ (by decide)⟩
  · exact sameMembers _ _ (fun pattern => List.mem_reverse) (by simp [overlapping])
  · refine ((told (overlapping.withPatterns [] [])).2 nothing).2.1 ?_
    rintro path ⟨⟨pattern, isIncluded, -⟩, -, -⟩
    exact absurd isIncluded List.not_mem_nil
  · refine (told (overlapping.withPatterns ["[", "src/a.ts"] ["src/*.test.ts", "src/["])).1
      ["src/*.test.ts"] "src/[" [] _ rfl ?_ (by decide +kernel)
    exact fun text inFront => sound_overlapping.excluded text inFront

end Selection

end Concordance
