import WotCrawler.Effect.Pool

/-! Runs that come to an end: what every maximal run reaches, and why the tasks of a pool can make
only so many calls. -/

namespace WotCrawler.Effect

/-- Every run that goes on for as long as it can reaches the goal, whatever its choices. -/
inductive Inevitably (step : State → State → Prop) (goal : State → Prop) : State → Prop where
  | now (reached : goal state) : Inevitably step goal state
  | later (enabled : ∃ after, step state after) (each : ∀ after, step state after → Inevitably step goal after) :
      Inevitably step goal state

/-- Where the first part does not rise, the second descends for both. -/
theorem lex_of_le {Part : Type} {below : Part → Part → Prop} {less more : Nat} {later earlier : Part} (le : less ≤ more)
    (descends : below later earlier) : Prod.Lex (· < ·) below (less, later) (more, earlier) := by
  rcases Nat.lt_or_eq_of_le le with lower | rfl
  · exact .left _ _ lower
  · exact .right _ descends

/-- What every step keeps, a run keeps. -/
theorem kept_of_run {State : Type} {step : State → State → Prop} {invariant : State → Prop}
    (kept : ∀ state after, invariant state → step state after → invariant after) {start final : State}
    (run : Relation.ReflTransGen step start final) (holds : invariant start) : invariant final := by
  induction run with
  | refl => exact holds
  | tail _ taken ih => exact kept _ _ ih taken

namespace Inevitably

variable {State : Type} {step : State → State → Prop} {goal : State → Prop}

/-- The rule of progress: short of the goal some step is possible, and every step keeps the
invariant and descends. -/
theorem of_descent {below : State → State → Prop} (wf : WellFounded below) {invariant : State → Prop}
    (progress : ∀ state, invariant state → goal state ∨ ((∃ after, step state after) ∧
      ∀ after, step state after → invariant after ∧ below after state))
    (state : State) (holds : invariant state) : Inevitably step goal state := by
  induction state using wf.induction with
  | _ state ih =>
    cases progress state holds with
    | inl reached => exact .now reached
    | inr moves =>
      refine .later moves.1 ?_
      intro after taken
      obtain ⟨kept, descends⟩ := moves.2 after taken
      exact ih after descends kept

/-- What every step keeps holds at the goal too. -/
theorem keep {invariant : State → Prop} (kept : ∀ state after, invariant state → step state after → invariant after)
    {state : State} (inevitable : Inevitably step goal state) (holds : invariant state) :
    Inevitably step (fun final => goal final ∧ invariant final) state := by
  induction inevitable with
  | now reached => exact .now ⟨reached, holds⟩
  | later enabled each ih =>
    refine .later enabled ?_
    intro after taken
    exact ih after taken (kept _ after holds taken)

theorem mono {weaker : State → Prop} (implies : ∀ state, goal state → weaker state) {state : State}
    (inevitable : Inevitably step goal state) : Inevitably step weaker state := by
  induction inevitable with
  | now reached => exact .now (implies _ reached)
  | later enabled each ih => exact .later enabled ih

/-- Short of the goal, it is still inevitable after any step. -/
theorem next {state after : State} (inevitable : Inevitably step goal state) (short : ¬ goal state)
    (taken : step state after) : Inevitably step goal after := by
  cases inevitable with
  | now reached => exact absurd reached short
  | later enabled each => exact each after taken

/-- Where no step is possible the goal is reached. -/
theorem stuck {state : State} (inevitable : Inevitably step goal state) (none : ∀ after, ¬ step state after) :
    goal state := by
  cases inevitable with
  | now reached => exact reached
  | later enabled each =>
    obtain ⟨after, taken⟩ := enabled
    exact absurd taken (none after)

/-- There is such a run. -/
theorem exists_run {state : State} (inevitable : Inevitably step goal state) :
    ∃ final, Relation.ReflTransGen step state final ∧ goal final := by
  induction inevitable with
  | now reached => exact ⟨_, .refl, reached⟩
  | later enabled each ih =>
    obtain ⟨after, taken⟩ := enabled
    obtain ⟨final, run, reached⟩ := ih after taken
    exact ⟨final, .head taken run, reached⟩

end Inevitably

variable {sig : Signature} {State Note α : Type}

/-- What a program may have become after its next call. -/
def Prog.Later (after : Prog sig α) : Prog sig α → Prop
  | .ret _ => False
  | .call _ next => ∃ reply, after = next reply

theorem Prog.later_wf : WellFounded (Prog.Later : Prog sig α → Prog sig α → Prop) := by
  constructor
  intro prog
  induction prog with
  | ret value => exact ⟨_, fun after none => none.elim⟩
  | call op next ih =>
    refine ⟨_, ?_⟩
    intro after later
    obtain ⟨reply, rfl⟩ := later
    exact ih reply

namespace Pool

/-- The programs of a pool, in any order. -/
def remaining (pool : Pool sig State Note α) : Multiset (Prog sig α) := Multiset.ofList (pool.tasks.map Task.prog)

private theorem coe_set_add {items : List β} (bound : index < items.length) (new : β) :
    (Multiset.ofList (items.set index new)) + {items[index]} = Multiset.ofList items + {new} := by
  have changed : Multiset.ofList (items.set index new) = new ::ₘ Multiset.ofList (items.eraseIdx index) :=
    Multiset.coe_eq_coe.mpr (List.set_perm_cons_eraseIdx bound new)
  have whole : Multiset.ofList items = items[index] ::ₘ Multiset.ofList (items.eraseIdx index) :=
    Multiset.coe_eq_coe.mpr (List.getElem_cons_eraseIdx_perm bound).symm
  rw [changed, Multiset.cons_add, add_comm, Multiset.singleton_add, ← whole, add_comm, Multiset.singleton_add]

/-- One program gets shorter by a call, and the others stay. -/
theorem Calls.shortens {machine : Machine sig (State × Note)} {pool after : Pool sig State Note α}
    (step : Calls machine pool index op note noted after) :
    Relation.CutExpand Prog.Later after.remaining pool.remaining := by
  cases step with
  | @call note op next reply left noted found executed =>
    obtain ⟨bound, same⟩ := List.getElem?_eq_some_iff.mp found
    refine ⟨{next reply}, .call op next, ?_, ?_⟩
    · intro prog member
      obtain rfl := Multiset.mem_singleton.mp member
      exact ⟨reply, rfl⟩
    · have bounded : index < (pool.tasks.map Task.prog).length := by simpa using bound
      have called : (pool.tasks.map Task.prog)[index] = .call op next := by simp [same]
      have changed := coe_set_add bounded (next reply)
      rw [called] at changed
      have tasks : (pool.tasks.set index ⟨noted, next reply⟩).map Task.prog =
          (pool.tasks.map Task.prog).set index (next reply) := List.map_set
      unfold remaining
      rw [tasks]
      exact changed

theorem remaining_wf :
    WellFounded (Relation.CutExpand (Prog.Later : Prog sig α → Prog sig α → Prop)) :=
  Prog.later_wf.cutExpand

end Pool

end WotCrawler.Effect
