import WotCrawler.Effect.Noting

/-! Duties: calls that a program makes on every path to a value, as long as the replies are
fair; and which replies end it in an error. -/

namespace WotCrawler.Effect

variable {sig : Signature} {fair paid : (op : sig.Op) → sig.Ret op → Prop}

/-- Before it returns a value the program makes a call that pays its duty. -/
def Prog.Owes (fair paid : (op : sig.Op) → sig.Ret op → Prop) : Prog sig (Except ε α) → Prop
  | .ret result => ∃ error, result = .error error
  | .call op next => ∀ reply, fair op reply → paid op reply ∨ (next reply).Owes fair paid

namespace Prog.Owes

variable {first : ExceptT ε (Prog sig) α} {next : α → ExceptT ε (Prog sig) β}

/-- The duty is paid by the first part. -/
theorem bind (owes : first.run.Owes fair paid) : (first >>= next).run.Owes fair paid := by
  rw [ExceptT.run_bind]
  generalize first.run = prog at owes
  induction prog with
  | ret result =>
    obtain ⟨error, rfl⟩ := owes
    exact ⟨error, rfl⟩
  | call op rest ih => exact fun reply holds => (owes reply holds).imp_right (ih reply)

/-- It is paid by the second, whose argument is as described. -/
theorem after {result : α → Prop} (yields : first.run.Yields allowed (ifOk result))
    (rest : ∀ value, result value → (next value).run.Owes fair paid) :
    (first >>= next).run.Owes fair paid := by
  rw [ExceptT.run_bind]
  generalize first.run = prog at yields
  induction prog with
  | ret outcome =>
    cases outcome with
    | ok value => exact rest value yields
    | error error => exact ⟨error, rfl⟩
  | call op tail ih => exact fun reply _ => .inr (ih reply (yields.2 reply))

/-- Whatever comes first. -/
theorem later (rest : ∀ value, (next value).run.Owes fair paid) :
    (first >>= next).run.Owes fair paid :=
  after (Yields.of_issues first.run.issues_any) fun value _ => rest value

end Prog.Owes

/-- A bad reply ends the program in an error. -/
def Prog.Stops (bad : (op : sig.Op) → sig.Ret op → Prop) : Prog sig (Except ε α) → Prop
  | .ret _ => True
  | .call op next => ∀ reply, (bad op reply → ∃ error, next reply = .ret (.error error)) ∧ (next reply).Stops bad

theorem Prog.Stops.bind {bad : (op : sig.Op) → sig.Ret op → Prop} {first : ExceptT ε (Prog sig) α}
    {next : α → ExceptT ε (Prog sig) β} (stops : first.run.Stops bad) (rest : ∀ value, (next value).run.Stops bad) :
    (first >>= next).run.Stops bad := by
  rw [ExceptT.run_bind]
  generalize first.run = prog at stops
  induction prog with
  | ret outcome =>
    cases outcome with
    | ok value => exact rest value
    | error error => trivial
  | call op tail ih =>
    intro reply
    refine ⟨?_, ih reply (stops reply).2⟩
    intro failed
    obtain ⟨error, ended⟩ := (stops reply).1 failed
    refine ⟨error, ?_⟩
    beta_reduce
    rw [ended]
    rfl

/-- As long as the replies are good the program does not end in an error. -/
def Prog.Succeeds (good : (op : sig.Op) → sig.Ret op → Prop) : Prog sig (Except ε α) → Prop
  | .ret result => ∃ value, result = .ok value
  | .call op next => ∀ reply, good op reply → (next reply).Succeeds good

theorem Prog.Succeeds.bind {good : (op : sig.Op) → sig.Ret op → Prop} {first : ExceptT ε (Prog sig) α}
    {next : α → ExceptT ε (Prog sig) β} (succeeds : first.run.Succeeds good)
    (rest : ∀ value, (next value).run.Succeeds good) : (first >>= next).run.Succeeds good := by
  rw [ExceptT.run_bind]
  generalize first.run = prog at succeeds
  induction prog with
  | ret outcome =>
    obtain ⟨value, rfl⟩ := succeeds
    exact rest value
  | call op tail ih => exact fun reply holds => ih reply (succeeds reply holds)

end WotCrawler.Effect
