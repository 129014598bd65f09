import Mathlib

/-! Programs as trees of calls to an interface, and what a machine that answers the calls
must or may make of them. -/

namespace WotCrawler.Effect

/-- An interface: its operations and the type each one replies with. -/
structure Signature where
  Op : Type
  Ret : Op → Type

/-- A program over an interface: it returns, or calls an operation and continues with the reply. -/
inductive Prog (sig : Signature) (α : Type) where
  | ret (value : α)
  | call (op : sig.Op) (next : sig.Ret op → Prog sig α)

namespace Prog

variable {sig : Signature}

def bind : Prog sig α → (α → Prog sig β) → Prog sig β
  | .ret value, next => next value
  | .call op rest, next => .call op (fun reply => (rest reply).bind next)

instance : Monad (Prog sig) where
  pure := .ret
  bind := bind

@[simp] theorem pure_eq (value : α) : (pure value : Prog sig α) = .ret value := rfl

@[simp] theorem ret_bind (value : α) (next : α → Prog sig β) : (ret value >>= next) = next value := rfl

@[simp] theorem call_bind (op : sig.Op) (rest : sig.Ret op → Prog sig α) (next : α → Prog sig β) :
    (call op rest >>= next) = call op (fun reply => rest reply >>= next) := rfl

theorem bind_assoc (prog : Prog sig α) (first : α → Prog sig β) (second : β → Prog sig γ) :
    prog >>= first >>= second = prog >>= fun value => first value >>= second := by
  induction prog with
  | ret value => rfl
  | call op rest ih =>
    rw [call_bind, call_bind, call_bind]
    congr 1
    funext reply
    exact ih reply

/-- The program that makes one call and returns its reply. -/
def perform (op : sig.Op) : Prog sig (sig.Ret op) := call op ret

@[simp] theorem perform_bind (op : sig.Op) (next : sig.Ret op → Prog sig α) :
    (perform op >>= next) = call op next := rfl

end Prog

/-- An environment of programs: which replies each operation may give, and the state after. -/
structure Machine (sig : Signature) (State : Type) where
  exec : (op : sig.Op) → State → sig.Ret op → State → Prop

variable {sig : Signature} {State : Type} {machine : Machine sig State}

/-- A complete run of a program from one state to another. -/
inductive Runs (machine : Machine sig State) : Prog sig α → State → α → State → Prop where
  | ret : Runs machine (.ret value) state value state
  | call (step : machine.exec op before reply between)
      (rest : Runs machine (next reply) between value after) :
      Runs machine (.call op next) before value after

theorem runs_ret_iff : Runs machine (.ret value) before result after ↔
    value = result ∧ before = after := by
  constructor
  · intro run
    cases run with
    | ret => exact ⟨rfl, rfl⟩
  · rintro ⟨rfl, rfl⟩
    exact .ret

theorem runs_call_iff : Runs machine (.call op next) before value after ↔
    ∃ reply between, machine.exec op before reply between ∧
      Runs machine (next reply) between value after := by
  constructor
  · intro run
    cases run with
    | call step rest => exact ⟨_, _, step, rest⟩
  · rintro ⟨reply, between, step, rest⟩
    exact .call step rest

theorem runs_bind_iff {prog : Prog sig α} {next : α → Prog sig β} :
    Runs machine (prog >>= next) before value after ↔
      ∃ middle between, Runs machine prog before middle between ∧
        Runs machine (next middle) between value after := by
  induction prog generalizing before with
  | ret result =>
    rw [Prog.ret_bind]
    constructor
    · exact fun run => ⟨result, before, .ret, run⟩
    · rintro ⟨middle, between, first, second⟩
      obtain ⟨rfl, rfl⟩ := runs_ret_iff.mp first
      exact second
  | call op rest ih =>
    rw [Prog.call_bind, runs_call_iff]
    constructor
    · rintro ⟨reply, between, step, run⟩
      obtain ⟨middle, state, first, second⟩ := (ih reply).mp run
      exact ⟨middle, state, .call step first, second⟩
    · rintro ⟨middle, state, first, second⟩
      obtain ⟨reply, between, step, first⟩ := runs_call_iff.mp first
      exact ⟨reply, between, step, (ih reply).mpr ⟨middle, state, first, second⟩⟩

/-- Every run of the program from the state ends as described. -/
def Must (machine : Machine sig State) (prog : Prog sig α) (before : State)
    (post : α → State → Prop) : Prop :=
  ∀ value after, Runs machine prog before value after → post value after

/-- Some run of the program from the state ends as described. -/
def May (machine : Machine sig State) (prog : Prog sig α) (before : State)
    (post : α → State → Prop) : Prop :=
  ∃ value after, Runs machine prog before value after ∧ post value after

@[simp] theorem must_ret {post : α → State → Prop} :
    Must machine (.ret value) state post ↔ post value state := by
  constructor
  · exact fun must => must value state .ret
  · intro holds result after run
    obtain ⟨rfl, rfl⟩ := runs_ret_iff.mp run
    exact holds

theorem must_call {next : sig.Ret op → Prog sig α} {post : α → State → Prop} :
    Must machine (.call op next) state post ↔
      ∀ reply between, machine.exec op state reply between → Must machine (next reply) between post := by
  constructor
  · exact fun must reply between step value after run => must value after (.call step run)
  · intro must value after run
    obtain ⟨reply, between, step, rest⟩ := runs_call_iff.mp run
    exact must reply between step value after rest

theorem must_perform {op : sig.Op} {post : sig.Ret op → State → Prop} :
    Must machine (.perform op) state post ↔
      ∀ reply after, machine.exec op state reply after → post reply after := by
  simp [Prog.perform, must_call]

theorem must_bind {prog : Prog sig α} {next : α → Prog sig β} {post : β → State → Prop} :
    Must machine (prog >>= next) state post ↔
      Must machine prog state (fun middle between => Must machine (next middle) between post) := by
  constructor
  · exact fun must middle between first value after second =>
      must value after (runs_bind_iff.mpr ⟨middle, between, first, second⟩)
  · intro must value after run
    obtain ⟨middle, between, first, second⟩ := runs_bind_iff.mp run
    exact must middle between first value after second

theorem Must.mono {post weaker : α → State → Prop} (must : Must machine prog state post)
    (implies : ∀ value after, post value after → weaker value after) :
    Must machine prog state weaker :=
  fun value after run => implies value after (must value after run)

/-- The rule of sequence for a computation that its first error stops. -/
theorem Must.except_bind {first : ExceptT ε (Prog sig) α} {next : α → ExceptT ε (Prog sig) β}
    {middle : Except ε α → State → Prop} {post : Except ε β → State → Prop}
    (must : Must machine first.run state middle)
    (values : ∀ value after, middle (.ok value) after → Must machine (next value).run after post)
    (errors : ∀ error after, middle (.error error) after → post (.error error) after) :
    Must machine (first >>= next).run state post := by
  rw [ExceptT.run_bind, must_bind]
  refine must.mono ?_
  intro result after holds
  cases result with
  | ok value => exact values value after holds
  | error error => exact must_ret.mpr (errors error after holds)

/-- Computations that their first error stops compose associatively. -/
theorem Prog.except_bind_assoc (first : ExceptT ε (Prog sig) α) (next : α → ExceptT ε (Prog sig) β)
    (last : β → ExceptT ε (Prog sig) γ) :
    first >>= next >>= last = first >>= fun value => next value >>= last := by
  apply ExceptT.ext
  rw [ExceptT.run_bind, ExceptT.run_bind, ExceptT.run_bind, Prog.bind_assoc]
  congr 1
  funext result
  cases result with
  | ok value => rfl
  | error error => rfl

@[simp] theorem may_ret {post : α → State → Prop} :
    May machine (.ret value) state post ↔ post value state := by
  constructor
  · rintro ⟨result, after, run, holds⟩
    obtain ⟨rfl, rfl⟩ := runs_ret_iff.mp run
    exact holds
  · exact fun holds => ⟨value, state, .ret, holds⟩

theorem may_call {next : sig.Ret op → Prog sig α} {post : α → State → Prop} :
    May machine (.call op next) state post ↔
      ∃ reply between, machine.exec op state reply between ∧ May machine (next reply) between post := by
  constructor
  · rintro ⟨value, after, run, holds⟩
    obtain ⟨reply, between, step, rest⟩ := runs_call_iff.mp run
    exact ⟨reply, between, step, value, after, rest, holds⟩
  · rintro ⟨reply, between, step, value, after, rest, holds⟩
    exact ⟨value, after, .call step rest, holds⟩

theorem may_perform {op : sig.Op} {post : sig.Ret op → State → Prop} :
    May machine (.perform op) state post ↔
      ∃ reply after, machine.exec op state reply after ∧ post reply after := by
  simp [Prog.perform, may_call]

theorem may_bind {prog : Prog sig α} {next : α → Prog sig β} {post : β → State → Prop} :
    May machine (prog >>= next) state post ↔
      May machine prog state (fun middle between => May machine (next middle) between post) := by
  constructor
  · rintro ⟨value, after, run, holds⟩
    obtain ⟨middle, between, first, second⟩ := runs_bind_iff.mp run
    exact ⟨middle, between, first, value, after, second, holds⟩
  · rintro ⟨middle, between, first, value, after, second, holds⟩
    exact ⟨value, after, runs_bind_iff.mpr ⟨middle, between, first, second⟩, holds⟩

theorem May.mono {post weaker : α → State → Prop} (may : May machine prog state post)
    (implies : ∀ value after, post value after → weaker value after) :
    May machine prog state weaker := by
  obtain ⟨value, after, run, holds⟩ := may
  exact ⟨value, after, run, implies value after holds⟩

/-- Where every operation has an answer, every program has a run. -/
theorem May.of_total (total : ∀ op state, ∃ reply after, machine.exec op state reply after)
    (prog : Prog sig α) (state : State) : May machine prog state (fun _ _ => True) := by
  induction prog generalizing state with
  | ret value => exact may_ret.mpr trivial
  | call op next ih =>
    obtain ⟨reply, after, executed⟩ := total op state
    exact may_call.mpr ⟨reply, after, executed, ih reply after⟩

/-- What must hold of every run holds of any run there is. -/
theorem May.and_must {post also : α → State → Prop} (may : May machine prog state post)
    (must : Must machine prog state also) :
    May machine prog state (fun value after => post value after ∧ also value after) := by
  obtain ⟨value, after, run, holds⟩ := may
  exact ⟨value, after, run, holds, must value after run⟩

end WotCrawler.Effect
