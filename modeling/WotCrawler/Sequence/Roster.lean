import Mathlib

/-! Counted members of a list that changes one place at a time, what they have between them, and permits
that are free or held. -/

namespace WotCrawler.Sequence

variable {α : Type} {holds : α → Bool} {items : List α} {old new : α} {index : Nat}

theorem countP_set_same (found : items[index]? = some old) (same : holds new = holds old) :
    (items.set index new).countP holds = items.countP holds := by
  obtain ⟨bound, rfl⟩ := List.getElem?_eq_some_iff.mp found
  rw [List.countP_set bound, same]
  have counted : (if holds items[index] then 1 else 0) ≤ items.countP holds := by
    split
    · rename_i held
      exact List.countP_pos_iff.mpr ⟨_, List.getElem_mem bound, held⟩
    · exact Nat.zero_le _
  omega

theorem countP_set_add (found : items[index]? = some old) (idle : holds old = false) (held : holds new = true) :
    (items.set index new).countP holds = items.countP holds + 1 := by
  obtain ⟨bound, rfl⟩ := List.getElem?_eq_some_iff.mp found
  simp [List.countP_set bound, idle, held]

theorem countP_set_sub (found : items[index]? = some old) (held : holds old = true) (idle : holds new = false) :
    (items.set index new).countP holds + 1 = items.countP holds := by
  obtain ⟨bound, rfl⟩ := List.getElem?_eq_some_iff.mp found
  have counted : 0 < items.countP holds := List.countP_pos_iff.mpr ⟨_, List.getElem_mem bound, held⟩
  simp only [List.countP_set bound, held, idle, if_true, if_neg Bool.false_ne_true]
  omega

theorem countP_set_le (found : items[index]? = some old) (held : holds old = true) :
    (items.set index new).countP holds ≤ items.countP holds := by
  cases now : holds new with
  | true => exact (countP_set_same found (now.trans held.symm)).le
  | false =>
    have fewer := countP_set_sub found held now
    omega

/-- What the held members have between them is no more than a share for each. -/
theorem encard_held_le {β : Type} (part : α → Set β) (size : ℕ)
    (small : ∀ item ∈ items, (part item).encard ≤ size) :
    {x | ∃ item ∈ items, holds item = true ∧ x ∈ part item}.encard ≤ (items.countP holds * size : ℕ) := by
  induction items with
  | nil => simp
  | cons item rest ih =>
    have others := ih fun other member => small other (List.mem_cons_of_mem _ member)
    cases held : holds item with
    | false =>
      rw [List.countP_cons_of_neg (by simp [held])]
      refine le_trans (Set.encard_le_encard ?_) others
      intro x had
      obtain ⟨owner, member, holding, mine⟩ := had
      rcases List.mem_cons.mp member with rfl | later
      · rw [held] at holding
        cases holding
      · exact ⟨owner, later, holding, mine⟩
    | true =>
      rw [List.countP_cons_of_pos held, Nat.add_mul, Nat.one_mul, Nat.cast_add, add_comm]
      refine le_trans (Set.encard_le_encard ?_)
        (le_trans (Set.encard_union_le _ _) (add_le_add (small item List.mem_cons_self) others))
      intro x had
      obtain ⟨owner, member, holding, mine⟩ := had
      rcases List.mem_cons.mp member with rfl | later
      · exact .inl mine
      · exact .inr ⟨owner, later, holding, mine⟩

/-- The free permits and the held ones make up the total. -/
def Conserved (holds : α → Bool) (items : List α) (total free : Nat) : Prop :=
  free + items.countP holds = total

namespace Conserved

variable {total free : Nat}

theorem held_le (conserved : Conserved holds items total free) : items.countP holds ≤ total := by
  unfold Conserved at conserved
  omega

private theorem countP_of_idle (idle : ∀ item ∈ items, holds item = false) : items.countP holds = 0 := by
  apply List.countP_eq_zero.mpr
  intro item member held
  rw [idle item member] at held
  cases held

theorem of_idle (total : Nat) (idle : ∀ item ∈ items, holds item = false) : Conserved holds items total total := by
  rw [Conserved, countP_of_idle idle, Nat.add_zero]

/-- Where nobody holds a permit, all are free. -/
theorem all_free (conserved : Conserved holds items total free) (idle : ∀ item ∈ items, holds item = false) :
    free = total := by
  rw [Conserved, countP_of_idle idle, Nat.add_zero] at conserved
  exact conserved

theorem keep (conserved : Conserved holds items total free) (found : items[index]? = some old)
    (same : holds new = holds old) : Conserved holds (items.set index new) total free := by
  unfold Conserved at *
  rwa [countP_set_same found same]

theorem take (conserved : Conserved holds items total free) (found : items[index]? = some old)
    (idle : holds old = false) (held : holds new = true) (some : 0 < free) :
    Conserved holds (items.set index new) total (free - 1) := by
  unfold Conserved at *
  rw [countP_set_add found idle held]
  omega

theorem give (conserved : Conserved holds items total free) (found : items[index]? = some old)
    (held : holds old = true) (idle : holds new = false) :
    Conserved holds (items.set index new) total (free + 1) := by
  have fewer := countP_set_sub found held idle
  unfold Conserved at *
  omega

end Conserved

end WotCrawler.Sequence
