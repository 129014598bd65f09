import Mathlib

/-! Grouping a stream by a key into an association list with one entry for each key. -/

namespace WotCrawler.Sequence

variable {κ ν : Type*} [DecidableEq κ]

/-- Append a value to the group of its key, opening the group when the key is new. -/
def pushGroup (key : κ) (value : ν) : List (κ × List ν) → List (κ × List ν)
  | [] => [(key, [value])]
  | (owner, group) :: rest =>
    if owner = key then (owner, group ++ [value]) :: rest
    else (owner, group) :: pushGroup key value rest

/-- The group of a key, empty when the key has none. -/
def groupOf (key : κ) : List (κ × List ν) → List ν
  | [] => []
  | (owner, group) :: rest => if owner = key then group else groupOf key rest

/-- Push every value of a stream under the key it carries. -/
def groupBy (key : ν → κ) (values : List ν) : List (κ × List ν) :=
  values.foldl (fun groups value => pushGroup (key value) value groups) []

/-- Keys name at most one group, and no group is empty. -/
structure Grouped (groups : List (κ × List ν)) : Prop where
  keys : (groups.map Prod.fst).Nodup
  inhabited : ∀ entry ∈ groups, entry.2 ≠ []

theorem groupOf_pushGroup (key other : κ) (value : ν) (groups : List (κ × List ν)) :
    groupOf other (pushGroup key value groups) =
      groupOf other groups ++ if key = other then [value] else [] := by
  induction groups with
  | nil => simp [pushGroup, groupOf]
  | cons head rest ih =>
    obtain ⟨owner, group⟩ := head
    by_cases owned : owner = key
    · by_cases wanted : owner = other
      · simp [pushGroup, groupOf, owned, ← wanted]
      · have apart : key ≠ other := owned ▸ wanted
        simp [pushGroup, groupOf, owned, apart]
    · by_cases wanted : owner = other
      · subst wanted
        have apart : key ≠ owner := fun same => owned same.symm
        simp [pushGroup, groupOf, owned, apart]
      · simp [pushGroup, groupOf, owned, wanted, ih]

private theorem keys_pushGroup (key : κ) (value : ν) (groups : List (κ × List ν)) :
    (pushGroup key value groups).map Prod.fst =
      if key ∈ groups.map Prod.fst then groups.map Prod.fst else groups.map Prod.fst ++ [key] := by
  induction groups with
  | nil => simp [pushGroup]
  | cons head rest ih =>
    obtain ⟨owner, group⟩ := head
    by_cases owned : owner = key
    · simp [pushGroup, owned]
    · have apart : key ≠ owner := fun same => owned same.symm
      rw [pushGroup, if_neg owned, List.map_cons, ih]
      by_cases present : key ∈ rest.map Prod.fst
      · simp [present]
      · simp [present, apart]

private theorem mem_pushGroup {groups : List (κ × List ν)} {key : κ} {value : ν}
    (member : entry ∈ pushGroup key value groups) : entry ∈ groups ∨ entry.2 ≠ [] := by
  induction groups with
  | nil =>
    obtain rfl : entry = (key, [value]) := by simpa [pushGroup] using member
    exact Or.inr (List.cons_ne_nil _ _)
  | cons head rest ih =>
    obtain ⟨owner, group⟩ := head
    rw [pushGroup] at member
    split at member
    · rcases List.mem_cons.mp member with rfl | later
      · exact Or.inr (by simp)
      · exact Or.inl (List.mem_cons_of_mem _ later)
    · rcases List.mem_cons.mp member with rfl | later
      · exact Or.inl List.mem_cons_self
      · exact (ih later).imp_left (List.mem_cons_of_mem _)

theorem Grouped.pushGroup (valid : Grouped groups) (key : κ) (value : ν) :
    Grouped (pushGroup key value groups) where
  keys := by
    rw [keys_pushGroup]
    split
    · exact valid.keys
    · rename_i fresh
      refine List.nodup_append.mpr ⟨valid.keys, List.nodup_singleton key, ?_⟩
      intro owner present other single same
      rw [List.mem_singleton] at single
      exact fresh (single ▸ same ▸ present)
  inhabited := by
    intro entry member
    rcases mem_pushGroup member with old | inhabited
    · exact valid.inhabited entry old
    · exact inhabited

private theorem foldl_pushGroup_grouped (key : ν → κ) (values : List ν) (valid : Grouped groups) :
    Grouped (values.foldl (fun groups value => Sequence.pushGroup (key value) value groups) groups) := by
  induction values generalizing groups with
  | nil => exact valid
  | cons value rest ih => exact ih (valid.pushGroup (key value) value)

theorem groupBy_grouped (key : ν → κ) (values : List ν) : Grouped (groupBy key values) :=
  foldl_pushGroup_grouped key values ⟨List.nodup_nil, by simp⟩

private theorem groupOf_foldl (key : ν → κ) (owner : κ) (values : List ν)
    (groups : List (κ × List ν)) :
    groupOf owner (values.foldl (fun groups value => pushGroup (key value) value groups) groups) =
      groupOf owner groups ++ values.filter (fun value => key value = owner) := by
  induction values generalizing groups with
  | nil => simp
  | cons value rest ih =>
    rw [List.foldl_cons, ih, groupOf_pushGroup, List.append_assoc, List.filter_cons]
    by_cases owned : key value = owner <;> simp [owned]

/-- The group of a key is the stream filtered by that key. -/
theorem groupOf_groupBy (key : ν → κ) (owner : κ) (values : List ν) :
    groupOf owner (groupBy key values) = values.filter (fun value => key value = owner) := by
  rw [groupBy, groupOf_foldl]
  rfl

theorem groupOf_eq_of_mem (valid : (groups.map Prod.fst).Nodup)
    (member : (owner, group) ∈ groups) : groupOf (owner : κ) groups = (group : List ν) := by
  induction groups with
  | nil => simp at member
  | cons head rest ih =>
    obtain ⟨other, values⟩ := head
    obtain ⟨fresh, remaining⟩ := List.nodup_cons.mp valid
    rcases List.mem_cons.mp member with same | later
    · obtain ⟨rfl, rfl⟩ := Prod.mk.inj same
      simp [groupOf]
    · have apart : other ≠ owner := by
        rintro rfl
        exact fresh (List.mem_map.mpr ⟨_, later, rfl⟩)
      rw [groupOf, if_neg apart]
      exact ih remaining later

theorem mem_of_groupOf_ne_nil (inhabited : groupOf (owner : κ) groups ≠ ([] : List ν)) :
    (owner, groupOf owner groups) ∈ groups := by
  induction groups with
  | nil => exact absurd rfl inhabited
  | cons head rest ih =>
    obtain ⟨other, values⟩ := head
    by_cases owned : other = owner
    · simp [groupOf, owned]
    · rw [groupOf, if_neg owned] at inhabited ⊢
      exact List.mem_cons_of_mem _ (ih inhabited)

/-- An entry of the grouping is a key that occurs, with the values of the stream under it. -/
theorem mem_groupBy_iff (key : ν → κ) (values : List ν) :
    (owner, group) ∈ groupBy key values ↔
      group = values.filter (fun value => key value = owner) ∧ group ≠ [] := by
  have valid := groupBy_grouped key values
  constructor
  · intro member
    have same := groupOf_eq_of_mem valid.keys member
    rw [groupOf_groupBy] at same
    exact ⟨same.symm, valid.inhabited _ member⟩
  · rintro ⟨rfl, inhabited⟩
    rw [← groupOf_groupBy] at inhabited ⊢
    exact mem_of_groupOf_ne_nil inhabited

omit [DecidableEq κ] in
/-- Results that stay with the key of the group they came from name each key at most once. -/
theorem filterMap_keys_sublist {groups : List (κ × List ν)} {resolve : κ × List ν → Option ρ}
    {owner : ρ → κ}
    (kept : ∀ entry ∈ groups, ∀ result, resolve entry = some result → owner result = entry.1) :
    ((groups.filterMap resolve).map owner).Sublist (groups.map Prod.fst) := by
  induction groups with
  | nil => simp
  | cons entry rest ih =>
    have remaining := ih (fun later member => kept later (List.mem_cons_of_mem _ member))
    rw [List.filterMap_cons, List.map_cons]
    cases resolved : resolve entry with
    | none => exact remaining.cons _
    | some result =>
      rw [List.map_cons, kept entry List.mem_cons_self result resolved]
      exact remaining.cons_cons _

end WotCrawler.Sequence
