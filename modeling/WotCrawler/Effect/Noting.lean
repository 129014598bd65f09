import WotCrawler.Effect.Program

/-! Callers that keep a note of their calls, and which calls a program can make at all. -/

namespace WotCrawler.Effect

variable {sig : Signature} {State Note : Type}

/-- A machine together with a note its caller keeps. -/
def Machine.noting (machine : Machine sig State) (note : sig.Op → State → Note → Note) :
    Machine sig (State × Note) where
  exec := fun op before reply after =>
    machine.exec op before.1 reply after.1 ∧ after.2 = note op before.1 before.2

/-- Keeping a note does not change what a program does. -/
theorem Runs.noting {machine : Machine sig State} {note : sig.Op → State → Note → Note}
    (run : Runs machine prog before value after) (kept : Note) :
    ∃ final, Runs (machine.noting note) prog (before, kept) value (after, final) := by
  induction run generalizing kept with
  | ret => exact ⟨kept, .ret⟩
  | call step rest ih =>
    obtain ⟨final, run⟩ := ih (note _ _ kept)
    exact ⟨final, .call ⟨step, rfl⟩ run⟩

/-- Notes that nobody changes. -/
def Machine.silent (machine : Machine sig State) : Machine sig (State × Note) :=
  machine.noting (fun _ _ kept => kept)

theorem Runs.silent {machine : Machine sig State} (run : Runs machine prog before value after) (kept : Note) :
    Runs machine.silent prog (before, kept) value (after, kept) := by
  induction run with
  | ret => exact .ret
  | call step rest ih =>
    refine .call ?_ ih
    exact ⟨step, rfl⟩

/-- A machine together with the calls made of it, in order. -/
def Machine.recording (machine : Machine sig State) : Machine sig (State × List sig.Op) :=
  machine.noting (fun op _ calls => calls ++ [op])

/-- A machine together with the calls made of it and the replies, in order. -/
def Machine.tracing (machine : Machine sig State) :
    Machine sig (State × List ((op : sig.Op) × sig.Ret op)) where
  exec := fun op before reply after =>
    machine.exec op before.1 reply after.1 ∧ after.2 = before.2 ++ [⟨op, reply⟩]

theorem Runs.untraced {machine : Machine sig State} {prog : Prog sig α}
    {before after : State × List ((op : sig.Op) × sig.Ret op)}
    (run : Runs machine.tracing prog before value after) : Runs machine prog before.1 value after.1 := by
  induction run with
  | ret => exact .ret
  | call step rest ih => exact .call step.1 ih

/-- A trace only grows. -/
theorem Runs.trace_grows {machine : Machine sig State} {prog : Prog sig α}
    {before after : State × List ((op : sig.Op) × sig.Ret op)}
    (run : Runs machine.tracing prog before value after) : before.2 ⊆ after.2 := by
  induction run with
  | ret => exact List.Subset.refl _
  | call step rest ih =>
    intro entry member
    apply ih
    rw [step.2]
    exact List.mem_append_left _ member

/-- A trace does not keep a program from running. -/
theorem May.tracing {machine : Machine sig State}
    (total : ∀ op state, ∃ reply after, machine.exec op state reply after) (prog : Prog sig α)
    (state : State × List ((op : sig.Op) × sig.Ret op)) : May machine.tracing prog state (fun _ _ => True) := by
  apply May.of_total
  intro op before
  obtain ⟨reply, after, executed⟩ := total op before.1
  exact ⟨reply, (after, before.2 ++ [⟨op, reply⟩]), executed, rfl⟩

/-- Whatever the replies, a program makes only calls of the given kind. -/
def Prog.Issues (allowed : sig.Op → Prop) : Prog sig α → Prop
  | .ret _ => True
  | .call op next => allowed op ∧ ∀ reply, (next reply).Issues allowed

variable {allowed : sig.Op → Prop}

theorem Prog.issues_any (prog : Prog sig α) : prog.Issues (fun _ => True) := by
  induction prog with
  | ret value => trivial
  | call op next ih => exact ⟨trivial, ih⟩

theorem Prog.Issues.bind {prog : Prog sig α} {next : α → Prog sig β} (first : prog.Issues allowed)
    (rest : ∀ value, (next value).Issues allowed) : (prog >>= next).Issues allowed := by
  induction prog with
  | ret value => exact rest value
  | call op tail ih => exact ⟨first.1, fun reply => ih reply (first.2 reply)⟩

theorem Prog.Issues.except_bind {first : ExceptT ε (Prog sig) α} {next : α → ExceptT ε (Prog sig) β}
    (issues : first.run.Issues allowed) (rest : ∀ value, (next value).run.Issues allowed) :
    (first >>= next).run.Issues allowed := by
  rw [ExceptT.run_bind]
  apply issues.bind
  intro result
  cases result with
  | ok value => exact rest value
  | error error => trivial

theorem Prog.Issues.mono {wider : sig.Op → Prop} {prog : Prog sig α} (issues : prog.Issues allowed)
    (implies : ∀ op, allowed op → wider op) : prog.Issues wider := by
  induction prog with
  | ret value => trivial
  | call op next ih => exact ⟨implies op issues.1, fun reply => ih reply (issues.2 reply)⟩

/-- What every call of the given kind keeps, a run keeps. -/
theorem Prog.Issues.preserves {machine : Machine sig State} {prog : Prog sig α} {keeps : State → Prop}
    (issues : prog.Issues allowed) (run : Runs machine prog before value after)
    (step : ∀ {op before reply after}, allowed op → machine.exec op before reply after → keeps before → keeps after)
    (start : keeps before) : keeps after := by
  induction run with
  | ret => exact start
  | call executed rest ih => exact ih (issues.2 _) (step issues.1 executed start)

/-- The same, and whatever the replies its result is as described. -/
def Prog.Yields (allowed : sig.Op → Prop) (result : α → Prop) : Prog sig α → Prop
  | .ret value => result value
  | .call op next => allowed op ∧ ∀ reply, (next reply).Yields allowed result

theorem Prog.Issues.yields {prog : Prog sig α} (issues : prog.Issues allowed) :
    prog.Yields allowed (fun _ => True) := by
  induction prog with
  | ret value => trivial
  | call op next ih => exact ⟨issues.1, fun reply => ih reply (issues.2 reply)⟩

/-- A result that is an error, or a value as described. -/
def ifOk (result : α → Prop) : Except ε α → Prop
  | .ok value => result value
  | .error _ => True

namespace Prog.Yields

variable {result : α → Prop}

theorem issues {prog : Prog sig α} (yields : prog.Yields allowed result) : prog.Issues allowed := by
  induction prog with
  | ret value => trivial
  | call op next ih => exact ⟨yields.1, fun reply => ih reply (yields.2 reply)⟩

theorem of_issues {prog : Prog sig (Except ε α)} (issues : prog.Issues allowed) :
    prog.Yields allowed (ifOk fun _ => True) := by
  induction prog with
  | ret value =>
    cases value with
    | ok value => trivial
    | error error => trivial
  | call op next ih => exact ⟨issues.1, fun reply => ih reply (issues.2 reply)⟩

theorem bind {prog : Prog sig α} {next : α → Prog sig β} {final : β → Prop}
    (first : prog.Yields allowed result) (rest : ∀ value, result value → (next value).Yields allowed final) :
    (prog >>= next).Yields allowed final := by
  induction prog with
  | ret value => exact rest value first
  | call op tail ih => exact ⟨first.1, fun reply => ih reply (first.2 reply)⟩

theorem except_bind {first : ExceptT ε (Prog sig) α} {next : α → ExceptT ε (Prog sig) β} {final : β → Prop}
    (yields : first.run.Yields allowed (ifOk result))
    (rest : ∀ value, result value → (next value).run.Yields allowed (ifOk final)) :
    (first >>= next).run.Yields allowed (ifOk final) := by
  rw [ExceptT.run_bind]
  apply yields.bind
  intro outcome holds
  cases outcome with
  | ok value => exact rest value holds
  | error error => trivial

end Prog.Yields

/-- Whether a program has no call left to make. -/
def Prog.returned : Prog sig α → Bool
  | .ret _ => true
  | .call _ _ => false

/-- A run's trace holds only the calls its program makes. -/
theorem Prog.Issues.traced {machine : Machine sig State} {prog : Prog sig α}
    {before after : State × List ((op : sig.Op) × sig.Ret op)} (issues : prog.Issues allowed)
    (run : Runs machine.tracing prog before value after) :
    ∀ entry ∈ after.2, entry ∈ before.2 ∨ allowed entry.1 := by
  apply issues.preserves run
  · intro op between reply left kind executed held entry member
    rw [executed.2] at member
    cases List.mem_append.mp member with
    | inl old => exact held entry old
    | inr new => exact .inr (List.mem_singleton.mp new ▸ kind)
  · exact fun entry member => .inl member

/-- A run records only the calls its program makes. -/
theorem Prog.Issues.recorded {machine : Machine sig State} {prog : Prog sig α}
    {before after : State × List sig.Op} (issues : prog.Issues allowed)
    (run : Runs machine.recording prog before value after) :
    ∀ op ∈ after.2, op ∈ before.2 ∨ allowed op := by
  apply issues.preserves run
  · intro op between reply left kind executed held made member
    rw [executed.2] at member
    cases List.mem_append.mp member with
    | inl old => exact held made old
    | inr new => exact .inr (List.mem_singleton.mp new ▸ kind)
  · exact fun op member => .inl member

end WotCrawler.Effect
