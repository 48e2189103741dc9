import Mathlib.Data.List.Forall2

/-!
# Computations that may fail

A computation in steps succeeds exactly if every step does.  These lemmas take
a run apart, a successful one or a failing one, for steps one after the other
and for one step at each element of a list.  A step may also change a state,
whether it succeeds or not; then the next one begins with the state it left.
-/

namespace Concordance

variable {Error First Second : Type}

/-- Two steps succeed if the first one does and the second one does after it. -/
theorem bind_eq_ok_iff
    {first : Except Error First}
    {next : First → Except Error Second}
    {result : Second} :
    (first >>= next) = .ok result ↔
      ∃ value, first = .ok value ∧ next value = .ok result := by
  cases first with
  | error error => exact ⟨nofun, nofun⟩
  | ok value =>
      constructor
      · intro continued
        exact ⟨value, rfl, continued⟩
      · rintro ⟨_, ⟨⟩, continued⟩
        exact continued

/-- Two steps fail if the first one does, or the second one after it. -/
theorem bind_eq_error_iff
    {first : Except Error First}
    {next : First → Except Error Second}
    {error : Error} :
    (first >>= next) = .error error ↔
      first = .error error ∨ ∃ value, first = .ok value ∧ next value = .error error := by
  cases first with
  | error other =>
      constructor
      · rintro ⟨⟩
        exact .inl rfl
      · rintro (⟨⟨⟩⟩ | ⟨_, ⟨⟩, _⟩)
        rfl
  | ok value =>
      constructor
      · intro continued
        exact .inr ⟨value, rfl, continued⟩
      · rintro (⟨⟨⟩⟩ | ⟨_, ⟨⟩, continued⟩)
        exact continued

theorem map_eq_ok_iff
    {change : First → Second}
    {step : Except Error First}
    {result : Second} :
    change <$> step = .ok result ↔ ∃ value, step = .ok value ∧ change value = result := by
  cases step with
  | error error => exact ⟨nofun, nofun⟩
  | ok value => simp [Functor.map, Except.map]

/-- Explaining the errors of a computation changes nothing if it succeeds. -/
theorem mapError_eq_ok_iff
    {Explained : Type}
    {explain : Error → Explained}
    {step : Except Error First}
    {result : First} :
    step.mapError explain = .ok result ↔ step = .ok result := by
  cases step <;> simp [Except.mapError]

theorem mapError_eq_error_iff
    {Explained : Type}
    {explain : Error → Explained}
    {step : Except Error First}
    {explained : Explained} :
    step.mapError explain = .error explained ↔
      ∃ error, step = .error error ∧ explain error = explained := by
  cases step <;> simp [Except.mapError]

theorem mapError_map
    {Explained : Type}
    {explain : Error → Explained}
    {change : First → Second}
    {step : Except Error First} :
    (change <$> step).mapError explain = change <$> step.mapError explain := by
  cases step <;> rfl

theorem mapError_bind_pure
    {Explained : Type}
    {explain : Error → Explained}
    {change : First → Second}
    {step : Except Error First} :
    (step >>= fun value => pure (change value)).mapError explain =
      change <$> step.mapError explain :=
  mapError_map

theorem mapM_cons_eq_ok_iff
    {step : First → Except Error Second}
    {element : First}
    {elements : List First}
    {results : List Second} :
    (element :: elements).mapM step = .ok results ↔
      ∃ first rest, step element = .ok first ∧ elements.mapM step = .ok rest ∧
        results = first :: rest := by
  simp only [List.mapM_cons, bind_eq_ok_iff]
  constructor
  · rintro ⟨first, here, rest, others, ⟨⟩⟩
    exact ⟨first, rest, here, others, rfl⟩
  · rintro ⟨first, rest, here, others, rfl⟩
    exact ⟨first, here, rest, others, rfl⟩

/-- The results of a successful run are those of its elements, in the same order. -/
theorem mapM_eq_ok_iff
    {step : First → Except Error Second}
    {elements : List First}
    {results : List Second} :
    elements.mapM step = .ok results ↔
      List.Forall₂ (fun element result => step element = .ok result) elements results := by
  induction elements generalizing results with
  | nil =>
      rw [List.forall₂_nil_left_iff]
      exact ⟨fun done => (Except.ok.inj done).symm, fun isEmpty => congrArg Except.ok isEmpty.symm⟩
  | cons element elements induction =>
      rw [mapM_cons_eq_ok_iff, List.forall₂_cons_left_iff]
      simp only [induction, exists_and_left]

/-- A run succeeds exactly if the step succeeds at every element. -/
theorem exists_mapM_eq_ok_iff
    {step : First → Except Error Second}
    {elements : List First} :
    (∃ results, elements.mapM step = .ok results) ↔
      ∀ element ∈ elements, ∃ result, step element = .ok result := by
  induction elements with
  | nil => exact ⟨fun _ => nofun, fun _ => ⟨[], rfl⟩⟩
  | cons element elements induction =>
      rw [List.forall_mem_cons, ← induction]
      constructor
      · rintro ⟨results, done⟩
        rcases mapM_cons_eq_ok_iff.mp done with ⟨first, rest, here, others, -⟩
        exact ⟨⟨first, here⟩, rest, others⟩
      · rintro ⟨⟨first, here⟩, rest, others⟩
        exact ⟨first :: rest, mapM_cons_eq_ok_iff.mpr ⟨first, rest, here, others, rfl⟩⟩

/-- Where two lists are related, each element is related to one of the other list. -/
theorem exists_mem_of_forall₂
    {Related : First → Second → Prop}
    {firsts : List First}
    {seconds : List Second}
    (related : List.Forall₂ Related firsts seconds) :
    ∀ first ∈ firsts, ∃ second ∈ seconds, Related first second := by
  induction related with
  | nil => exact nofun
  | cons head _ induction =>
      refine List.forall_mem_cons.mpr ⟨⟨_, List.mem_cons_self, head⟩, ?_⟩
      intro first inFirsts
      rcases induction first inFirsts with ⟨second, inSeconds, here⟩
      exact ⟨second, List.mem_cons_of_mem _ inSeconds, here⟩

/-- Two lists are related if they have the same length and are related at every index. -/
theorem forall₂_iff_getElem?
    {Related : First → Second → Prop}
    {firsts : List First}
    {seconds : List Second} :
    List.Forall₂ Related firsts seconds ↔
      firsts.length = seconds.length ∧
        ∀ (index : Nat) (first : First) (second : Second),
          firsts[index]? = some first → seconds[index]? = some second → Related first second := by
  rw [List.forall₂_iff_get]
  refine and_congr_right fun _ => ⟨?_, ?_⟩
  · intro each index first second isFirst isSecond
    rcases List.getElem?_eq_some_iff.mp isFirst with ⟨inFirsts, rfl⟩
    rcases List.getElem?_eq_some_iff.mp isSecond with ⟨inSeconds, rfl⟩
    exact each index inFirsts inSeconds
  · intro each index inFirsts inSeconds
    exact each index _ _ (List.getElem?_eq_getElem inFirsts) (List.getElem?_eq_getElem inSeconds)

/-- If the step succeeds at every element, each element has its result among the results. -/
theorem exists_mem_of_mapM
    {step : First → Except Error Second}
    {elements : List First}
    {results : List Second}
    (done : elements.mapM step = .ok results) :
    ∀ element ∈ elements, ∃ result ∈ results, step element = .ok result :=
  exists_mem_of_forall₂ (mapM_eq_ok_iff.mp done)

theorem mapM_eq_ok_map
    {step : First → Except Error Second}
    {result : First → Second}
    {elements : List First}
    (each : ∀ element ∈ elements, step element = .ok (result element)) :
    elements.mapM step = .ok (elements.map result) := by
  rw [mapM_eq_ok_iff, List.forall₂_map_right_iff, List.forall₂_same]
  exact each

theorem mapM_cons_eq_error_iff
    {step : First → Except Error Second}
    {element : First}
    {elements : List First}
    {error : Error} :
    (element :: elements).mapM step = .error error ↔
      step element = .error error ∨
        ∃ first, step element = .ok first ∧ elements.mapM step = .error error := by
  simp only [List.mapM_cons, bind_eq_error_iff]
  constructor
  · rintro (failed | ⟨first, here, failed | ⟨_, _, ⟨⟩⟩⟩)
    · exact .inl failed
    · exact .inr ⟨first, here, failed⟩
  · rintro (failed | ⟨first, here, failed⟩)
    · exact .inl failed
    · exact .inr ⟨first, here, .inl failed⟩

/-- A failing run stops at the first element at which the step fails. -/
theorem mapM_eq_error_iff
    {step : First → Except Error Second}
    {elements : List First}
    {error : Error} :
    elements.mapM step = .error error ↔
      ∃ before element after,
        elements = before ++ element :: after ∧
        (∀ earlier ∈ before, ∃ result, step earlier = .ok result) ∧
        step element = .error error := by
  induction elements with
  | nil =>
      constructor
      · exact nofun
      · rintro ⟨before, element, after, cut, -⟩
        cases before <;> cases cut
  | cons head tail induction =>
      rw [mapM_cons_eq_error_iff, induction]
      constructor
      · rintro (failed | ⟨first, here, before, element, after, rfl, passed, failed⟩)
        · exact ⟨[], head, tail, rfl, nofun, failed⟩
        · exact ⟨head :: before, element, after, rfl,
            List.forall_mem_cons.mpr ⟨⟨first, here⟩, passed⟩, failed⟩
      · rintro ⟨before, element, after, cut, passed, failed⟩
        cases before with
        | nil =>
            cases cut
            exact .inl failed
        | cons first before =>
            cases cut
            rcases List.forall_mem_cons.mp passed with ⟨⟨result, here⟩, passed⟩
            exact .inr ⟨result, here, before, element, after, rfl, passed, failed⟩

/-! ### Two computations side by side -/

/-- Whether two computations both succeed, or both fail, with what is related. -/
inductive Corresponds
    {Other : Type}
    (SameError : Error → Other → Prop)
    (Related : First → Second → Prop) :
    Except Error First → Except Other Second → Prop
  | ok {value : First} {other : Second} (related : Related value other) :
      Corresponds SameError Related (.ok value) (.ok other)
  | error {error : Error} {other : Other} (same : SameError error other) :
      Corresponds SameError Related (.error error) (.error other)

section SideBySide

variable {Other Third Fourth : Type}
variable {SameError : Error → Other → Prop} {Related : First → Second → Prop}

theorem Corresponds.refl
    {Same : Error → Error → Prop}
    (same : ∀ error, Same error error)
    (step : Except Error First) :
    Corresponds Same Eq step step := by
  cases step with
  | ok value => exact .ok rfl
  | error error => exact .error (same error)

/-- Steps one after the other end alike if both do. -/
theorem Corresponds.bind
    {RelatedNext : Third → Fourth → Prop}
    {step : Except Error First}
    {otherStep : Except Other Second}
    {next : First → Except Error Third}
    {otherNext : Second → Except Other Fourth}
    (done : Corresponds SameError Related step otherStep)
    (goesOn : ∀ value other, Related value other →
      Corresponds SameError RelatedNext (next value) (otherNext other)) :
    Corresponds SameError RelatedNext (step >>= next) (otherStep >>= otherNext) := by
  cases done with
  | ok related => exact goesOn _ _ related
  | error same => exact .error same

/-- Steps over the same elements end alike if each step does. -/
theorem corresponds_foldlM
    {Element : Type}
    {step : First → Element → Except Error First}
    {otherStep : Second → Element → Except Other Second}
    {elements : List Element}
    (each : ∀ element ∈ elements, ∀ state other, Related state other →
      Corresponds SameError Related (step state element) (otherStep other element))
    {state : First}
    {other : Second}
    (related : Related state other) :
    Corresponds SameError Related (elements.foldlM step state)
      (elements.foldlM otherStep other) := by
  induction elements generalizing state other with
  | nil => exact .ok related
  | cons element elements induction =>
      rcases List.forall_mem_cons.mp each with ⟨head, tail⟩
      rw [List.foldlM_cons, List.foldlM_cons]
      exact (head state other related).bind fun next otherNext => induction tail

end SideBySide

/-! ### Steps on a state -/

variable {State : Type}

/-- What a step on a state gives, and the state that it leaves. -/
def outcome (step : ExceptT Error (StateM State) First) (state : State) :
    Except Error First × State :=
  Id.run (step.run.run state)

theorem outcome_bind
    (first : ExceptT Error (StateM State) First)
    (next : First → ExceptT Error (StateM State) Second)
    (state : State) :
    outcome (first >>= next) state =
      match outcome first state with
      | (.ok value, between) => outcome (next value) between
      | (.error error, after) => (.error error, after) := by
  unfold outcome
  rw [ExceptT.run_bind, StateT.run_bind, Id.run_bind]
  rcases Id.run (first.run.run state) with ⟨_ | _, _⟩ <;> rfl

theorem outcome_bind_of_ok
    {first : ExceptT Error (StateM State) First}
    {state between : State}
    {value : First}
    (isFirst : outcome first state = (.ok value, between))
    (next : First → ExceptT Error (StateM State) Second) :
    outcome (first >>= next) state = outcome (next value) between := by
  rw [outcome_bind, isFirst]

theorem outcome_bind_of_error
    {first : ExceptT Error (StateM State) First}
    {state after : State}
    {error : Error}
    (isFirst : outcome first state = (.error error, after))
    (next : First → ExceptT Error (StateM State) Second) :
    outcome (first >>= next) state = (.error error, after) := by
  rw [outcome_bind, isFirst]

theorem outcome_get_bind
    (next : State → ExceptT Error (StateM State) Second)
    (state : State) :
    outcome (get >>= next) state = outcome (next state) state :=
  rfl

/-- Of two steps on a state the first one fails, or the second one begins where it ended. -/
theorem outcome_bind_cases
    {first : ExceptT Error (StateM State) First}
    {next : First → ExceptT Error (StateM State) Second}
    {state after : State}
    {result : Except Error Second}
    (ran : outcome (first >>= next) state = (result, after)) :
    (∃ error, outcome first state = (.error error, after) ∧ result = .error error) ∨
      ∃ value between, outcome first state = (.ok value, between) ∧
        outcome (next value) between = (result, after) := by
  rw [outcome_bind] at ran
  split at ran
  · rename_i value between isFirst
    exact .inr ⟨value, between, isFirst, ran⟩
  · rename_i error _ isFirst
    cases ran
    exact .inl ⟨error, isFirst, rfl⟩

end Concordance
