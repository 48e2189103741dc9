import Concordance.Json.Value

/-!
# Members in the order of their keys

Looking a key up is the only way in which the rest of the library reads an
object, so every operation on members is described by what `find?` answers
afterwards.  Members in ascending order of their keys are determined by these
answers: `eq_of_find?_eq` turns equations between lookups into an equation
between objects.
-/

namespace Concordance.Json.Members

/-! ### Looking up -/

@[simp]
theorem find?_nil (key : String) : find? [] key = none := rfl

theorem find?_cons
    (head : String)
    (value : Value)
    (rest : Members)
    (key : String) :
    find? ((head, value) :: rest) key =
      if key = head then some value else find? rest key := by
  unfold find?
  rw [List.lookup_cons]
  by_cases same : key = head
  · simp [same]
  · rw [beq_eq_false_iff_ne.mpr same, if_neg same]

theorem find?_append (first second : Members) (key : String) :
    find? (first ++ second) key = (find? first key).or (find? second key) := by
  induction first with
  | nil => simp
  | cons member rest induction =>
      rcases member with ⟨head, value⟩
      rw [List.cons_append, find?_cons, find?_cons]
      split
      · rfl
      · exact induction

theorem mem_of_find?_eq_some
    {members : Members}
    {key : String}
    {value : Value}
    (found : find? members key = some value) :
    (key, value) ∈ members := by
  induction members with
  | nil => simp at found
  | cons member rest induction =>
      rcases member with ⟨head, first⟩
      rw [find?_cons] at found
      split at found
      · rename_i same
        cases found
        rw [same]
        exact List.mem_cons_self
      · exact List.mem_cons_of_mem _ (induction found)

theorem find?_eq_none_of_forall
    {members : Members}
    {key : String}
    (absent : ∀ member ∈ members, member.1 ≠ key) :
    find? members key = none := by
  cases found : find? members key with
  | none => rfl
  | some value => exact (absent _ (mem_of_find?_eq_some found) rfl).elim

/-- What holds of every member, and of a default, holds of what is found. -/
theorem getD_find?_of_forall
    {Property : Value → Prop}
    {members : Members}
    (each : ∀ member ∈ members, Property member.2)
    {default : Value}
    (otherwise : Property default)
    (key : String) :
    Property ((find? members key).getD default) := by
  cases found : find? members key with
  | none => exact otherwise
  | some value => exact each _ (mem_of_find?_eq_some found)

/-! ### Keys that stand once -/

/-- Whether every key stands once. -/
def Distinct (members : Members) : Prop :=
  (members.map Prod.fst).Nodup

theorem distinct_cons
    {head : String}
    {value : Value}
    {rest : Members} :
    Distinct ((head, value) :: rest) ↔
      (∀ member ∈ rest, member.1 ≠ head) ∧ Distinct rest := by
  rw [Distinct, List.map_cons, List.nodup_cons]
  constructor
  · rintro ⟨absent, restDistinct⟩
    refine ⟨?_, restDistinct⟩
    intro member inRest same
    exact absent (List.mem_map.mpr ⟨member, inRest, same⟩)
  · rintro ⟨absent, restDistinct⟩
    refine ⟨?_, restDistinct⟩
    intro inKeys
    rcases List.mem_map.mp inKeys with ⟨member, inRest, same⟩
    exact absent member inRest same

theorem Distinct.find?_eq_some
    {members : Members}
    {key : String}
    {value : Value}
    (distinct : Distinct members)
    (member : (key, value) ∈ members) :
    find? members key = some value := by
  induction members with
  | nil => simp at member
  | cons first rest induction =>
      rcases first with ⟨head, headValue⟩
      rcases distinct_cons.mp distinct with ⟨absent, restDistinct⟩
      rw [find?_cons]
      rcases List.mem_cons.mp member with same | inRest
      · cases same
        simp
      · rw [if_neg (absent _ inRest)]
        exact induction restDistinct inRest

/-! ### Order -/

theorem sorted_cons
    {head : String}
    {value : Value}
    {rest : Members} :
    Sorted ((head, value) :: rest) ↔
      (∀ member ∈ rest, head < member.1) ∧ Sorted rest :=
  List.pairwise_cons

theorem Sorted.distinct {members : Members} (sorted : Sorted members) :
    Distinct members := by
  apply List.pairwise_map.mpr
  apply sorted.imp
  intro first second before same
  rw [same] at before
  exact String.lt_irrefl _ before

theorem Sorted.find?_eq_some
    {members : Members}
    {key : String}
    {value : Value}
    (sorted : Sorted members)
    (member : (key, value) ∈ members) :
    find? members key = some value :=
  sorted.distinct.find?_eq_some member

/-- Members in order are determined by what looking up answers. -/
theorem eq_of_find?_eq
    {left right : Members}
    (leftSorted : Sorted left)
    (rightSorted : Sorted right)
    (agree : ∀ key, find? left key = find? right key) :
    left = right := by
  have mem_iff (member : String × Value) : member ∈ left ↔ member ∈ right := by
    rcases member with ⟨key, value⟩
    constructor
    · intro inLeft
      apply mem_of_find?_eq_some
      rw [← agree]
      exact leftSorted.find?_eq_some inLeft
    · intro inRight
      apply mem_of_find?_eq_some
      rw [agree]
      exact rightSorted.find?_eq_some inRight
  have distinct {members : Members} (sorted : Sorted members) : members.Nodup :=
    sorted.imp fun {first second} before same => by
      rw [same] at before
      exact String.lt_irrefl _ before
  have permuted : left.Perm right :=
    (List.perm_ext_iff_of_nodup (distinct leftSorted) (distinct rightSorted)).mpr
      mem_iff
  refine permuted.eq_of_pairwise ?_ leftSorted rightSorted
  intro first second _ _ before behind
  exact (String.lt_asymm before behind).elim

/-! ### Inserting -/

theorem find?_insert
    (members : Members)
    (inserted key : String)
    (value : Value) :
    find? (insert members inserted value) key =
      if key = inserted then some value else find? members key := by
  induction members with
  | nil => exact find?_cons inserted value [] key
  | cons member rest induction =>
      rcases member with ⟨head, old⟩
      rw [insert]
      split
      · exact find?_cons inserted value _ key
      · split
        · rename_i same
          rw [find?_cons, find?_cons, ← same]
          split <;> simp_all
        · rename_i other
          rw [find?_cons, find?_cons, induction]
          split <;> simp_all
          intro same
          exact (other same.symm).elim

@[simp]
theorem find?_insert_self (members : Members) (key : String) (value : Value) :
    find? (insert members key value) key = some value := by
  rw [find?_insert, if_pos rfl]

theorem find?_insert_of_ne
    {inserted key : String}
    (other : key ≠ inserted)
    (members : Members)
    (value : Value) :
    find? (insert members inserted value) key = find? members key := by
  rw [find?_insert, if_neg other]

theorem mem_insert
    {members : Members}
    {inserted : String}
    {value : Value}
    {member : String × Value}
    (found : member ∈ insert members inserted value) :
    member = (inserted, value) ∨ member ∈ members := by
  induction members with
  | nil => exact Or.inl (List.mem_singleton.mp found)
  | cons first rest induction =>
      rcases first with ⟨head, old⟩
      rw [insert] at found
      split at found
      · exact List.mem_cons.mp found
      · split at found
        · rcases List.mem_cons.mp found with same | inRest
          · exact Or.inl same
          · exact Or.inr (List.mem_cons_of_mem _ inRest)
        · rcases List.mem_cons.mp found with same | inRest
          · exact Or.inr (same ▸ List.mem_cons_self)
          · rcases induction inRest with same | old
            · exact Or.inl same
            · exact Or.inr (List.mem_cons_of_mem _ old)

theorem Sorted.insert
    {members : Members}
    (sorted : Sorted members)
    (inserted : String)
    (value : Value) :
    Sorted (insert members inserted value) := by
  induction members with
  | nil => exact List.pairwise_singleton _ _
  | cons first rest induction =>
      rcases first with ⟨head, old⟩
      rcases sorted_cons.mp sorted with ⟨behindHead, restSorted⟩
      rw [Members.insert]
      split
      · rename_i before
        refine sorted_cons.mpr ⟨?_, sorted⟩
        intro member found
        rcases List.mem_cons.mp found with same | inRest
        · rw [same]
          exact before
        · exact String.lt_trans before (behindHead member inRest)
      · rename_i notBefore
        split
        · rename_i same
          refine sorted_cons.mpr ⟨?_, restSorted⟩
          rw [same]
          exact behindHead
        · rename_i other
          have behind : head < inserted :=
            Std.lt_of_le_of_ne (String.not_lt.mp notBefore) (Ne.symm other)
          refine sorted_cons.mpr ⟨?_, induction restSorted⟩
          intro member found
          rcases mem_insert found with same | inRest
          · rw [same]
            exact behind
          · exact behindHead member inRest

/-! ### Setting keys aside -/

/-- The members whose keys are not among the given ones. -/
def without (members : Members) (taken : List String) : Members :=
  members.filter fun member => decide (member.1 ∉ taken)

theorem find?_without (members : Members) (taken : List String) (key : String) :
    find? (members.without taken) key =
      if key ∈ taken then none else find? members key := by
  induction members with
  | nil => simp [without]
  | cons member rest induction =>
      rcases member with ⟨head, value⟩
      rw [without] at induction ⊢
      by_cases aside : head ∈ taken
      · rw [List.filter_cons_of_neg (by simp [aside]), induction, find?_cons]
        split
        · rfl
        · rename_i kept
          rw [if_neg]
          intro same
          rw [same] at kept
          exact kept aside
      · rw [List.filter_cons_of_pos (by simp [aside]), find?_cons, find?_cons,
          induction]
        split
        · rename_i same
          rw [same, if_neg aside]
        · rfl

theorem mem_of_mem_without
    {members : Members}
    {taken : List String}
    {member : String × Value}
    (kept : member ∈ members.without taken) :
    member ∈ members :=
  (List.mem_filter.mp kept).1

theorem Sorted.without
    {members : Members}
    (sorted : Sorted members)
    (taken : List String) :
    Sorted (members.without taken) :=
  List.Pairwise.filter _ sorted

theorem without_insert_of_mem
    {members : Members}
    (sorted : Sorted members)
    {taken : List String}
    {key : String}
    (aside : key ∈ taken)
    (value : Value) :
    (members.insert key value).without taken = members.without taken := by
  apply eq_of_find?_eq ((sorted.insert key value).without taken)
    (sorted.without taken)
  intro other
  rw [find?_without, find?_without, find?_insert]
  split
  · rfl
  · rename_i kept
    rw [if_neg]
    intro same
    rw [same] at kept
    exact kept aside

theorem without_insert_of_not_mem
    {members : Members}
    (sorted : Sorted members)
    {taken : List String}
    {key : String}
    (kept : key ∉ taken)
    (value : Value) :
    (members.insert key value).without taken =
      (members.without taken).insert key value := by
  apply eq_of_find?_eq ((sorted.insert key value).without taken)
    ((sorted.without taken).insert key value)
  intro other
  rw [find?_without, find?_insert, find?_insert, find?_without]
  by_cases same : other = key
  · rw [same, if_neg kept, if_pos rfl, if_pos rfl]
  · rw [if_neg same, if_neg same]

theorem key_not_mem_of_mem_without
    {members : Members}
    {taken : List String}
    {member : String × Value}
    (kept : member ∈ members.without taken) :
    member.1 ∉ taken :=
  of_decide_eq_true (List.mem_filter.mp kept).2

theorem distinct_append
    {taken : List String}
    {leading extra : Members}
    (leadingDistinct : Distinct leading)
    (extraDistinct : Distinct extra)
    (inTaken : ∀ member ∈ leading, member.1 ∈ taken)
    (kept : ∀ member ∈ extra, member.1 ∉ taken) :
    Distinct (leading ++ extra) := by
  rw [Distinct, List.map_append, List.nodup_append]
  refine ⟨leadingDistinct, extraDistinct, ?_⟩
  intro leadingKey inLeading extraKey inExtra same
  rcases List.mem_map.mp inLeading with ⟨first, inFirst, rfl⟩
  rcases List.mem_map.mp inExtra with ⟨second, inSecond, rfl⟩
  apply kept second inSecond
  rw [← same]
  exact inTaken first inFirst

/-! ### Erasing -/

theorem erase_eq_without (members : Members) (erased : String) :
    erase members erased = members.without [erased] := by
  rw [erase, without]
  apply List.filter_congr
  intro member _
  rw [Bool.eq_iff_iff]
  simp

theorem find?_erase (members : Members) (erased key : String) :
    find? (erase members erased) key =
      if key = erased then none else find? members key := by
  rw [erase_eq_without, find?_without]
  simp only [List.mem_singleton]

theorem Sorted.erase
    {members : Members}
    (sorted : Sorted members)
    (erased : String) :
    Sorted (erase members erased) :=
  List.Pairwise.filter _ sorted

theorem insert_erase
    {members : Members}
    (sorted : Sorted members)
    {key : String}
    {value : Value}
    (found : find? members key = some value) :
    insert (erase members key) key value = members := by
  apply eq_of_find?_eq ((sorted.erase key).insert key value) sorted
  intro other
  rw [find?_insert, find?_erase]
  split
  · rename_i same
    rw [same, found]
  · rfl

theorem erase_insert
    {members : Members}
    (sorted : Sorted members)
    {key : String}
    (absent : find? members key = none)
    (value : Value) :
    erase (insert members key value) key = members := by
  apply eq_of_find?_eq ((sorted.insert key value).erase key) sorted
  intro other
  rw [find?_erase, find?_insert]
  split
  · rename_i same
    rw [same, absent]
  · rfl

/-! ### Changing members by their keys -/

/-- Change the value of every member, or drop the member. -/
def adjust (change : String → Value → Option Value) (members : Members) : Members :=
  members.filterMap fun member =>
    (change member.1 member.2).map fun value => (member.1, value)

theorem mem_adjust
    {change : String → Value → Option Value}
    {members : Members}
    {member : String × Value} :
    member ∈ members.adjust change ↔
      ∃ value, (member.1, value) ∈ members ∧
        change member.1 value = some member.2 := by
  rcases member with ⟨key, changed⟩
  rw [adjust, List.mem_filterMap]
  constructor
  · rintro ⟨⟨_, value⟩, inMembers, kept⟩
    rcases Option.map_eq_some_iff.mp kept with ⟨_, found, ⟨⟩⟩
    exact ⟨value, inMembers, found⟩
  · rintro ⟨value, inMembers, found⟩
    exact ⟨(key, value), inMembers, Option.map_eq_some_iff.mpr ⟨_, found, rfl⟩⟩

theorem Sorted.adjust
    {members : Members}
    (sorted : Sorted members)
    (change : String → Value → Option Value) :
    Sorted (members.adjust change) := by
  refine List.Pairwise.filterMap _ ?_ sorted
  intro first second before changedFirst keptFirst changedSecond keptSecond
  rcases Option.map_eq_some_iff.mp keptFirst with ⟨_, -, rfl⟩
  rcases Option.map_eq_some_iff.mp keptSecond with ⟨_, -, rfl⟩
  exact before

theorem Distinct.find?_adjust
    {members : Members}
    (distinct : Distinct members)
    (change : String → Value → Option Value)
    (key : String) :
    find? (members.adjust change) key = (find? members key).bind (change key) := by
  induction members with
  | nil => rfl
  | cons member rest induction =>
      rcases member with ⟨head, value⟩
      rcases distinct_cons.mp distinct with ⟨absent, restDistinct⟩
      have below := induction restDistinct
      rw [adjust] at below ⊢
      rw [List.filterMap_cons, find?_cons]
      cases changed : change head value with
      | none =>
          change find? (List.filterMap _ rest) key = _
          rw [below]
          split
          · rename_i same
            rw [same, find?_eq_none_of_forall absent, Option.bind_some, changed]
            rfl
          · rfl
      | some kept =>
          change find? ((head, kept) :: List.filterMap _ rest) key = _
          rw [find?_cons, below]
          split
          · rename_i same
            rw [same, Option.bind_some, changed]
          · rfl

/-! ### Collecting members into an object -/

/-- Give several keys their values, one after the other. -/
def insertAll (members added : Members) : Members :=
  added.foldl (fun sorted member => insert sorted member.1 member.2) members

@[simp]
theorem insertAll_nil (members : Members) : insertAll members [] = members := rfl

@[simp]
theorem insertAll_cons
    (members : Members)
    (key : String)
    (value : Value)
    (added : Members) :
    insertAll members ((key, value) :: added) =
      insertAll (insert members key value) added := rfl

theorem ofList_eq_insertAll (members : Members) :
    ofList members = insertAll [] members := rfl

theorem Sorted.insertAll
    {members : Members}
    (sorted : Sorted members)
    (added : Members) :
    Sorted (insertAll members added) := by
  induction added generalizing members with
  | nil => exact sorted
  | cons member rest induction => exact induction (sorted.insert _ _)

theorem sorted_nil : Sorted [] := List.Pairwise.nil

theorem sorted_ofList (members : Members) : Sorted (ofList members) :=
  sorted_nil.insertAll members

theorem mem_insertAll
    {members added : Members}
    {member : String × Value}
    (found : member ∈ insertAll members added) :
    member ∈ added ∨ member ∈ members := by
  induction added generalizing members with
  | nil => exact Or.inr found
  | cons first rest induction =>
      rcases induction found with inRest | before
      · exact Or.inl (List.mem_cons_of_mem _ inRest)
      · rcases mem_insert before with same | old
        · exact Or.inl (same ▸ List.mem_cons_self)
        · exact Or.inr old

theorem mem_of_mem_ofList
    {members : Members}
    {member : String × Value}
    (found : member ∈ ofList members) :
    member ∈ members := by
  rcases mem_insertAll found with inMembers | inNil
  · exact inMembers
  · simp at inNil

/-- Of several members with one key the last one is found. -/
theorem find?_insertAll (members added : Members) (key : String) :
    find? (insertAll members added) key =
      (find? added.reverse key).or (find? members key) := by
  induction added generalizing members with
  | nil => rfl
  | cons member rest induction =>
      rcases member with ⟨head, value⟩
      rw [insertAll_cons, induction, find?_insert, List.reverse_cons,
        find?_append, Option.or_assoc, find?_cons]
      split <;> rfl

theorem Distinct.find?_reverse
    {members : Members}
    (distinct : Distinct members)
    (key : String) :
    find? members.reverse key = find? members key := by
  induction members with
  | nil => rfl
  | cons member rest induction =>
      rcases member with ⟨head, value⟩
      rcases distinct_cons.mp distinct with ⟨absent, restDistinct⟩
      rw [List.reverse_cons, find?_append, induction restDistinct, find?_cons,
        find?_cons, find?_nil]
      split
      · rename_i same
        rw [same, find?_eq_none_of_forall absent]
        rfl
      · exact Option.or_none

/-- Sorting members with distinct keys changes no lookup. -/
theorem Distinct.find?_ofList
    {members : Members}
    (distinct : Distinct members)
    (key : String) :
    find? (ofList members) key = find? members key := by
  rw [ofList_eq_insertAll, find?_insertAll, distinct.find?_reverse, find?_nil,
    Option.or_none]

theorem Sorted.ofList_eq {members : Members} (sorted : Sorted members) :
    ofList members = members :=
  eq_of_find?_eq (sorted_ofList members) sorted sorted.distinct.find?_ofList

end Concordance.Json.Members
