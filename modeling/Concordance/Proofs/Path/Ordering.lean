import Concordance.Path
import Mathlib.Data.List.Lex

/-!
# The order of paths

Components are ordered strictly and totally, and so are lists of them, first
difference first.  Paths are compared by their components: of any two, one
comes before the other or they have the same components (`same_of_not_lt`).
-/

namespace Concordance.Path

/-! ### Components -/

namespace Component

theorem lt_irrefl (component : Component) : component.lt component = false := by
  cases component with
  | name text => exact decide_eq_false (String.lt_irrefl text)
  | root | current | parent => rfl

theorem lt_trans
    {first second third : Component}
    (before : first.lt second = true)
    (after : second.lt third = true) :
    first.lt third = true := by
  cases first <;> cases second <;> cases third <;>
    simp only [Component.lt, decide_eq_true_eq, Bool.false_eq_true] at before after ⊢
  case name.name.name => exact String.lt_trans before after

/-- Of two different components one comes before the other. -/
theorem eq_of_not_lt
    {first second : Component}
    (notBefore : ¬ first.lt second = true)
    (notAfter : ¬ second.lt first = true) :
    first = second := by
  cases first <;> cases second <;>
    simp only [Component.lt, decide_eq_true_eq, not_true, not_false_eq_true, Bool.false_eq_true]
      at notBefore notAfter ⊢
  case name.name =>
    exact congrArg name
      (String.le_antisymm (String.not_lt.mp notAfter) (String.not_lt.mp notBefore))

instance : Std.Trichotomous fun first second : Component => first.lt second = true where
  trichotomous _ _ := eq_of_not_lt

end Component

/-! ### Lists of components -/

theorem componentsLt_iff {first second : List Component} :
    componentsLt first second = true ↔
      List.Lex (fun first second => first.lt second = true) first second := by
  induction first generalizing second with
  | nil =>
      cases second with
      | nil => exact ⟨nofun, nofun⟩
      | cons component second => exact ⟨fun _ => .nil, fun _ => rfl⟩
  | cons component first induction =>
      cases second with
      | nil => exact ⟨nofun, nofun⟩
      | cons other second =>
          rw [componentsLt, Bool.or_eq_true, Bool.and_eq_true, beq_iff_eq, induction]
          constructor
          · rintro (before | ⟨rfl, rest⟩)
            · exact .rel before
            · exact .cons rest
          · rintro (_ | before | rest)
            · exact .inl before
            · exact .inr ⟨rfl, rest⟩

theorem componentsLt_irrefl (components : List Component) :
    componentsLt components components = false := by
  induction components with
  | nil => rfl
  | cons component components induction =>
      rw [componentsLt, component.lt_irrefl, induction]
      simp

theorem componentsLt_trans
    {first second third : List Component}
    (before : componentsLt first second = true)
    (after : componentsLt second third = true) :
    componentsLt first third = true := by
  rw [componentsLt_iff] at before after ⊢
  exact List.lex_trans Component.lt_trans before after

/-- A common beginning does not matter for the order. -/
theorem componentsLt_append_left (front first second : List Component) :
    componentsLt (front ++ first) (front ++ second) = componentsLt first second := by
  induction front with
  | nil => rfl
  | cons component front induction =>
      rw [List.cons_append, List.cons_append, componentsLt, component.lt_irrefl, induction]
      simp

/-! ### Paths -/

theorem same_iff {first second : Path} :
    first.same second = true ↔ first.components = second.components :=
  beq_iff_eq

theorem lt_irrefl (path : Path) : path.lt path = false :=
  componentsLt_irrefl path.components

theorem lt_trans
    {first second third : Path}
    (before : first.lt second = true)
    (after : second.lt third = true) :
    first.lt third = true :=
  componentsLt_trans before after

theorem same_of_not_lt
    {first second : Path}
    (notBefore : ¬ first.lt second = true)
    (notAfter : ¬ second.lt first = true) :
    first.same second = true := by
  rw [lt, componentsLt_iff] at notBefore notAfter
  exact same_iff.mpr (Std.Trichotomous.trichotomous _ _ notBefore notAfter)

/-- Paths with the same components come before and after the same ones. -/
theorem lt_congr
    {first second first' second' : Path}
    (sameFirst : first.same first' = true)
    (sameSecond : second.same second' = true) :
    first.lt second = first'.lt second' := by
  rw [lt, lt, same_iff.mp sameFirst, same_iff.mp sameSecond]

end Concordance.Path
