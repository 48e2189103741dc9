import Concordance.Json.Value

/-!
# Merging values

Two objects are merged key by key, two arrays are put one behind the other,
and in every other case the overlay replaces the base.  Merging the layers of
a configuration from the outermost to the innermost gives the inner layers
the last word on single values and lets them add to lists.
-/

namespace Concordance.Json

mutual

/-- The base with the overlay on top of it. -/
def deepMerge : Value → Value → Value
  | .object base, .object overlay => .object (mergeMembers base overlay)
  | .array base, .array overlay => .array (base ++ overlay)
  | _, overlay => overlay

/-- The members of the base with those of the overlay on top of them. -/
def mergeMembers (base : Members) : List (String × Value) → Members
  | [] => base
  | (key, value) :: overlay =>
      let merged := match base.find? key with
        | some existing => deepMerge existing value
        | none => value
      mergeMembers (base.insert key merged) overlay

end

/-- The layers merged one after the other, from an empty object on. -/
def mergeLayers (layers : List Value) : Value :=
  layers.foldl deepMerge (.object [])

end Concordance.Json
