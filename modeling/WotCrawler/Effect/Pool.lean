import WotCrawler.Effect.Noting
import WotCrawler.Effect.RelyGuarantee

/-! Pools of programs over one shared state, one call at a time, each with a note of the calls
it made; and the rule that composes their guarantees. -/

namespace WotCrawler.Effect

variable {sig : Signature} {State Note : Type}

/-- A program that runs beside others, and its note. -/
structure Task (sig : Signature) (Note α : Type) where
  note : Note
  prog : Prog sig α

/-- The programs that run, by the order in which they started, and the state they share. -/
structure Pool (sig : Signature) (State Note α : Type) where
  shared : State
  tasks : List (Task sig Note α)

namespace Pool

variable {α : Type} {machine : Machine sig (State × Note)} {pool after : Pool sig State Note α}

/-- The task at an index makes its next call, by which its note changes as given. -/
inductive Calls (machine : Machine sig (State × Note)) (pool : Pool sig State Note α) (index : Nat) :
    sig.Op → Note → Note → Pool sig State Note α → Prop where
  | call (found : pool.tasks[index]? = some ⟨note, .call op next⟩)
      (executed : machine.exec op (pool.shared, note) reply (left, noted)) :
      Calls machine pool index op note noted ⟨left, pool.tasks.set index ⟨noted, next reply⟩⟩

/-- The shared state changes under the tasks. -/
def disturb (pool : Pool sig State Note α) (left : State) : Pool sig State Note α where
  shared := left
  tasks := pool.tasks

def spawn (pool : Pool sig State Note α) (task : Task sig Note α) : Pool sig State Note α where
  shared := pool.shared
  tasks := pool.tasks ++ [task]

/-- A task ends where it stands, without its remaining calls. -/
def drop (pool : Pool sig State Note α) (index : Nat) (note : Note) (value : α) :
    Pool sig State Note α where
  shared := pool.shared
  tasks := pool.tasks.set index ⟨note, .ret value⟩

/-- A call of a machine whose callers keep notes. -/
theorem Calls.noting {machine : Machine sig State} {update : sig.Op → State → Note → Note}
    (found : pool.tasks[index]? = some ⟨note, .call op next⟩)
    (executed : machine.exec op pool.shared reply left) :
    Calls (machine.noting update) pool index op note (update op pool.shared note)
      ⟨left, pool.tasks.set index ⟨update op pool.shared note, next reply⟩⟩ :=
  .call found ⟨executed, rfl⟩

/-- The only task makes its call. -/
theorem Calls.sole {shared left : State} {note noted : Note} {next : sig.Ret op → Prog sig α}
    (executed : machine.exec op (shared, note) reply (left, noted)) :
    Calls machine ⟨shared, [⟨note, .call op next⟩]⟩ 0 op note noted ⟨left, [⟨noted, next reply⟩]⟩ := by
  let before : Pool sig State Note α := ⟨shared, [⟨note, .call op next⟩]⟩
  have found : before.tasks[0]? = some ⟨note, .call op next⟩ := rfl
  exact .call found executed

theorem Calls.found (step : Calls machine pool index op note noted after) :
    ∃ next, pool.tasks[index]? = some ⟨note, .call op next⟩ := by
  cases step with
  | call found executed => exact ⟨_, found⟩

theorem Calls.executed (step : Calls machine pool index op note noted after) :
    ∃ reply, machine.exec op (pool.shared, note) reply (after.shared, noted) := by
  cases step with
  | call found executed => exact ⟨_, executed⟩

/-- After a call the caller stands at what follows the reply, and the others where they stood. -/
theorem Calls.moved {task : Task sig Note α} (step : Calls machine pool index op note noted after)
    (present : after.tasks[other]? = some task) :
    (other = index ∧ ∃ next reply, pool.tasks[index]? = some ⟨note, .call op next⟩ ∧
      machine.exec op (pool.shared, note) reply (after.shared, noted) ∧ task = ⟨noted, next reply⟩) ∨
      (other ≠ index ∧ pool.tasks[other]? = some task) := by
  cases step with
  | call found executed =>
    by_cases same : other = index
    · subst same
      rw [List.getElem?_set_self (List.getElem?_eq_some_iff.mp found).1] at present
      exact .inl ⟨rfl, _, _, found, executed, (Option.some.inj present).symm⟩
    · rw [List.getElem?_set_ne (Ne.symm same)] at present
      exact .inr ⟨same, present⟩

/-- The same, as far as the notes go. -/
theorem Calls.tasks {task : Task sig Note α} (step : Calls machine pool index op note noted after)
    (present : after.tasks[other]? = some task) :
    (other = index ∧ task.note = noted) ∨ (other ≠ index ∧ pool.tasks[other]? = some task) := by
  refine (step.moved present).imp_left ?_
  intro called
  obtain ⟨same, next, reply, _, _, rfl⟩ := called
  exact ⟨same, rfl⟩

/-- After a call every task is still there, the caller with its changed note. -/
theorem Calls.kept {task : Task sig Note α} (step : Calls machine pool index op note noted after)
    (present : pool.tasks[other]? = some task) :
    (other = index ∧ task.note = note ∧ ∃ next, after.tasks[other]? = some ⟨noted, next⟩) ∨
      (other ≠ index ∧ after.tasks[other]? = some task) := by
  cases step with
  | call found executed =>
    by_cases same : other = index
    · subst same
      obtain rfl := Option.some.inj (found.symm.trans present)
      exact .inl ⟨rfl, rfl, _, List.getElem?_set_self (List.getElem?_eq_some_iff.mp found).1⟩
    · exact .inr ⟨same, (List.getElem?_set_ne (Ne.symm same)).trans present⟩

/-- A task can run to its end while the others stand still. -/
theorem runs_calls {prog : Prog sig α} {left : State} {noted : Note}
    (run : Runs machine prog (pool.shared, note) value (left, noted))
    (found : pool.tasks[index]? = some ⟨note, prog⟩) :
    Relation.ReflTransGen (fun before after => ∃ op old new, Calls machine before index op old new after) pool
      ⟨left, pool.tasks.set index ⟨noted, .ret value⟩⟩ := by
  generalize before : (pool.shared, note) = start at run
  generalize ended : (left, noted) = final at run
  induction run generalizing note with
  | ret =>
    obtain ⟨rfl, rfl⟩ := Prod.mk.inj (before.trans ended.symm)
    obtain ⟨bound, same⟩ := List.getElem?_eq_some_iff.mp found
    rw [← same, List.set_getElem_self bound]
  | call step rest ih =>
    rename_i op _ reply between _ next _ _
    subst before
    obtain ⟨shared, kept⟩ := between
    let reached : Pool sig State Note _ := ⟨shared, pool.tasks.set index ⟨kept, next reply⟩⟩
    have made : Calls machine pool index op note kept reached := .call found step
    have there : reached.tasks[index]? = some ⟨kept, next reply⟩ :=
      List.getElem?_set_self (List.getElem?_eq_some_iff.mp found).1
    have later := ih there rfl ended
    rw [List.set_set] at later
    exact .head ⟨op, note, kept, made⟩ later

private theorem set_same {items : List β} (found : items[index]? = some item) :
    items.set index item = items := by
  obtain ⟨bound, rfl⟩ := List.getElem?_eq_some_iff.mp found
  exact List.set_getElem_self bound

/-- The notes, in the order in which the tasks started. -/
def notes (pool : Pool sig State Note α) : List Note := pool.tasks.map Task.note

/-- A call that keeps its note keeps all notes. -/
theorem Calls.notes (step : Calls machine pool index op note note after) : after.notes = pool.notes := by
  cases step with
  | call found executed =>
    have same : (pool.tasks.map Task.note)[index]? = some note := by
      rw [List.getElem?_map, found]
      rfl
    exact List.map_set.trans (set_same same)

theorem drop_notes {task : Task sig Note α} (found : pool.tasks[index]? = some task) :
    (pool.drop index task.note value).notes = pool.notes := by
  have same : (pool.tasks.map Task.note)[index]? = some task.note := by
    rw [List.getElem?_map, found]
    rfl
  exact List.map_set.trans (set_same same)

theorem spawn_notes (pool : Pool sig State Note α) (task : Task sig Note α) :
    (pool.spawn task).notes = pool.notes ++ [task.note] := List.map_append

theorem spawn_tasks {task started : Task sig Note α}
    (present : (pool.spawn started).tasks[index]? = some task) :
    pool.tasks[index]? = some task ∨ (index = pool.tasks.length ∧ task = started) := by
  unfold spawn at present
  by_cases old : index < pool.tasks.length
  · exact .inl (by simpa [List.getElem?_append_left old] using present)
  · have bound := (List.getElem?_eq_some_iff.mp present).1
    have last : index = pool.tasks.length := by
      rw [List.length_append, List.length_singleton] at bound
      omega
    subst last
    rw [List.getElem?_concat_length] at present
    exact .inr ⟨rfl, (Option.some.inj present).symm⟩

theorem drop_tasks {task : Task sig Note α}
    (present : (pool.drop index note value).tasks[other]? = some task) :
    task = ⟨note, .ret value⟩ ∨ (other ≠ index ∧ pool.tasks[other]? = some task) := by
  unfold drop at present
  by_cases same : other = index
  · subst same
    have bound := (List.getElem?_eq_some_iff.mp present).1
    rw [List.length_set] at bound
    rw [List.getElem?_set_self bound] at present
    exact .inl (Option.some.inj present).symm
  · rw [List.getElem?_set_ne (Ne.symm same)] at present
    exact .inr ⟨same, present⟩

/-- Every task is safe where it stands. -/
def Guarded (machine : Machine sig (State × Note)) (reliance : Reliance (State × Note))
    (guarantee : sig.Op → State × Note → State × Note → Prop) (post : α → State × Note → Prop)
    (pool : Pool sig State Note α) : Prop :=
  ∀ (index : Nat) (task : Task sig Note α), pool.tasks[index]? = some task →
    Safe machine reliance guarantee post task.prog (pool.shared, task.note)

namespace Guarded

variable {reliance : Reliance (State × Note)} {guarantee : sig.Op → State × Note → State × Note → Prop}
  {post : α → State × Note → Prop}

/-- A task's next call keeps its guarantee. -/
theorem keeps (guarded : Guarded machine reliance guarantee post pool)
    (step : Calls machine pool index op note noted after) :
    guarantee op (pool.shared, note) (after.shared, noted) := by
  cases step with
  | call found executed => exact (guarded index _ found _ _ _ (reliance.refl _) executed).1

/-- The parallel rule: where the other tasks rely on no more than a call's guarantee, every
task stays safe. -/
theorem calls (guarded : Guarded machine reliance guarantee post pool)
    (step : Calls machine pool index op note noted after)
    (others : ∀ (other : Nat) (task : Task sig Note α), other ≠ index →
      pool.tasks[other]? = some task →
      reliance.rely (pool.shared, task.note) (after.shared, task.note)) :
    Guarded machine reliance guarantee post after := by
  intro other task present
  cases step.moved present with
  | inl called =>
    obtain ⟨_, next, reply, found, executed, rfl⟩ := called
    exact (guarded index _ found _ _ _ (reliance.refl _) executed).2
  | inr stood => exact (guarded other task stood.2).stable (others other task stood.1 stood.2)

theorem disturb (guarded : Guarded machine reliance guarantee post pool)
    (relied : ∀ (index : Nat) (task : Task sig Note α), pool.tasks[index]? = some task →
      reliance.rely (pool.shared, task.note) (left, task.note)) :
    Guarded machine reliance guarantee post (pool.disturb left) := by
  intro index task present
  exact (guarded index task present).stable (relied index task present)

theorem spawn (guarded : Guarded machine reliance guarantee post pool)
    (safe : Safe machine reliance guarantee post task.prog (pool.shared, task.note)) :
    Guarded machine reliance guarantee post (pool.spawn task) := by
  intro index other present
  cases spawn_tasks present with
  | inl old => exact guarded index other old
  | inr new =>
    obtain ⟨_, rfl⟩ := new
    exact safe

theorem drop (guarded : Guarded machine reliance guarantee post pool)
    (ended : ∀ later, post value later) :
    Guarded machine reliance guarantee post (pool.drop index note value) := by
  intro other task present
  cases drop_tasks present with
  | inl dropped =>
    subst dropped
    intro later _
    exact ended later
  | inr old => exact guarded other task old.2

end Guarded

/-- Every task, with its note, is as described. -/
def Each (holds : Note → Prog sig α → Prop) (pool : Pool sig State Note α) : Prop :=
  ∀ (index : Nat) (task : Task sig Note α), pool.tasks[index]? = some task → holds task.note task.prog

namespace Each

variable {holds : Note → Prog sig α → Prop}

theorem calls (each : pool.Each holds) (step : Calls machine pool index op note noted after)
    (kept : ∀ next reply, holds note (.call op next) → holds noted (next reply)) : after.Each holds := by
  intro other task present
  cases step.moved present with
  | inl called =>
    obtain ⟨_, next, reply, found, _, rfl⟩ := called
    exact kept next reply (each index _ found)
  | inr stood => exact each other task stood.2

theorem spawn (each : pool.Each holds) (started : holds task.note task.prog) :
    (pool.spawn task).Each holds := by
  intro index other present
  cases spawn_tasks present with
  | inl old => exact each index other old
  | inr new =>
    obtain ⟨_, rfl⟩ := new
    exact started

theorem drop (each : pool.Each holds) (ended : holds note (.ret value)) :
    (pool.drop index note value).Each holds := by
  intro other task present
  cases drop_tasks present with
  | inl dropped =>
    subst dropped
    exact ended
  | inr old => exact each other task old.2

end Each

/-- Every task has only calls of a kind left to make, which may depend on its note. -/
def Restricted (kind : Note → sig.Op → Prop) (pool : Pool sig State Note α) : Prop :=
  ∀ (index : Nat) (task : Task sig Note α), pool.tasks[index]? = some task →
    task.prog.Issues (kind task.note)

namespace Restricted

variable {kind : Note → sig.Op → Prop}

theorem each (restricted : pool.Restricted kind) : pool.Each (fun note prog => prog.Issues (kind note)) :=
  restricted

theorem keeps (restricted : pool.Restricted kind)
    (step : Calls machine pool index op note noted after) : kind note op := by
  obtain ⟨next, found⟩ := step.found
  exact (restricted index _ found).1

theorem calls (restricted : pool.Restricted kind)
    (step : Calls machine pool index op note noted after) (kept : ∀ op, kind note op → kind noted op) :
    after.Restricted kind :=
  restricted.each.calls step fun _ reply issues => (issues.2 reply).mono kept

theorem spawn (restricted : pool.Restricted kind) (issues : task.prog.Issues (kind task.note)) :
    (pool.spawn task).Restricted kind := restricted.each.spawn issues

theorem drop (restricted : pool.Restricted kind) : (pool.drop index note value).Restricted kind :=
  restricted.each.drop trivial

end Restricted

end Pool

end WotCrawler.Effect
