import WotCrawler.Effect.Pool

/-! Credit: calls that cost, calls that earn, and what programs that run together can afford. -/

namespace WotCrawler.Effect

variable {sig : Signature} {State Note : Type}

/-- What a call takes from its caller's credit, and what it adds to it. -/
structure Tariff (sig : Signature) where
  cost : sig.Op → Nat
  gain : sig.Op → Nat

/-- Whatever the replies, a program has the credit for each of its calls, and its result is as
described. -/
def Prog.Affords (tariff : Tariff sig) (result : α → Prop) : Prog sig α → Nat → Prop
  | .ret value, _ => result value
  | .call op next, credit => tariff.cost op ≤ credit ∧
      ∀ reply, (next reply).Affords tariff result (credit - tariff.cost op + tariff.gain op)

namespace Prog.Affords

variable {tariff : Tariff sig} {result : α → Prop} {credit : Nat}

theorem mono {prog : Prog sig α} {wider : α → Prop} (affords : prog.Affords tariff result credit)
    (more : credit ≤ larger) (implies : ∀ value, result value → wider value) :
    prog.Affords tariff wider larger := by
  induction prog generalizing credit larger with
  | ret value => exact implies value affords
  | call op next ih =>
    refine ⟨affords.1.trans more, ?_⟩
    intro reply
    apply ih reply (affords.2 reply)
    exact Nat.add_le_add_right (Nat.sub_le_sub_right more _) _

/-- In sequence the credits add up. -/
theorem bind {prog : Prog sig α} {follow : α → Prog sig β} {final : β → Prop}
    (first : prog.Affords tariff result credit)
    (rest : ∀ value, result value → (follow value).Affords tariff final more) :
    (prog >>= follow).Affords tariff final (credit + more) := by
  induction prog generalizing credit with
  | ret value => exact (rest value first).mono (Nat.le_add_left _ _) fun _ holds => holds
  | call op next ih =>
    obtain ⟨enough, each⟩ := first
    refine ⟨enough.trans (Nat.le_add_right _ _), ?_⟩
    intro reply
    have left : credit + more - tariff.cost op + tariff.gain op =
        credit - tariff.cost op + tariff.gain op + more := by omega
    rw [left]
    exact ih reply (each reply)

/-- After a program that pays for itself the credit is whole. -/
theorem before {prog : Prog sig α} {follow : α → Prog sig β} {final : β → Prop}
    (first : prog.Affords tariff result 0)
    (rest : ∀ value, result value → (follow value).Affords tariff final credit) :
    (prog >>= follow).Affords tariff final credit := by
  rw [← Nat.zero_add credit]
  exact first.bind rest

theorem except_bind {first : ExceptT ε (Prog sig) α} {next : α → ExceptT ε (Prog sig) β} {final : β → Prop}
    (affords : first.run.Affords tariff (ifOk result) credit)
    (rest : ∀ value, result value → (next value).run.Affords tariff (ifOk final) more) :
    (first >>= next).run.Affords tariff (ifOk final) (credit + more) := by
  rw [ExceptT.run_bind]
  apply affords.bind
  intro outcome holds
  cases outcome with
  | ok value => exact rest value holds
  | error error => trivial

end Prog.Affords

/-- Calls that are free need no credit. -/
theorem Prog.Yields.affords {tariff : Tariff sig} {result : α → Prop} {prog : Prog sig α}
    (yields : prog.Yields (fun op => tariff.cost op = 0) result) : prog.Affords tariff result 0 := by
  induction prog with
  | ret value => exact yields
  | call op next ih =>
    refine ⟨yields.1.le, ?_⟩
    intro reply
    exact (ih reply (yields.2 reply)).mono (Nat.zero_le _) fun _ holds => holds

namespace Pool

variable {α : Type} {machine : Machine sig (State × Note)} {pool after : Pool sig State Note α}

/-- The tasks together have so much credit for the calls they have left to make. -/
def Funds (tariff : Tariff sig) (total : Nat) (pool : Pool sig State Note α) : Prop :=
  ∃ credits : List Nat, List.Forall₂ (fun task credit => task.prog.Affords tariff (fun _ => True) credit)
    pool.tasks credits ∧ credits.sum ≤ total

namespace Funds

variable {tariff : Tariff sig} {total : Nat}

private theorem forall₂_set {R : β → γ → Prop} {items : List β} {images : List γ}
    (related : List.Forall₂ R items images) (found : items[index]? = some item) :
    ∃ image, images[index]? = some image ∧ R item image ∧ ∀ item image, R item image →
      List.Forall₂ R (items.set index item) (images.set index image) := by
  induction related generalizing index with
  | nil => cases found
  | cons head tail ih =>
    cases index with
    | zero =>
      obtain rfl := Option.some.inj found
      exact ⟨_, rfl, head, fun _ _ new => .cons new tail⟩
    | succ index =>
      obtain ⟨image, there, holds, replaced⟩ := ih found
      exact ⟨image, there, holds, fun _ _ new => .cons head (replaced _ _ new)⟩

private theorem sum_set {credits : List Nat} (found : credits[index]? = some old) :
    (credits.set index new).sum + old = credits.sum + new := by
  induction credits generalizing index with
  | nil => cases found
  | cons head tail ih =>
    cases index with
    | zero =>
      obtain rfl := Option.some.inj found
      simp only [List.set_cons_zero, List.sum_cons]
      omega
    | succ index =>
      have rest := ih found
      simp only [List.set_cons_succ, List.sum_cons]
      omega

/-- Each task on its own credit. -/
theorem of_each {credit : Task sig Note α → Nat}
    (each : ∀ task ∈ pool.tasks, task.prog.Affords tariff (fun _ => True) (credit task)) :
    Funds tariff (pool.tasks.map credit).sum pool :=
  ⟨pool.tasks.map credit, List.forall₂_map_right_iff.mpr (List.forall₂_same.mpr each), le_refl _⟩

/-- The total covers a call's cost, and changes by its cost and its gain. -/
theorem calls (funds : Funds tariff total pool) (step : Calls machine pool index op note noted after) :
    tariff.cost op ≤ total ∧ Funds tariff (total - tariff.cost op + tariff.gain op) after := by
  obtain ⟨credits, afford, within⟩ := funds
  cases step with
  | call found executed =>
    obtain ⟨credit, there, affords, replaced⟩ := forall₂_set afford found
    have sum : (credits.set index (credit - tariff.cost op + tariff.gain op)).sum + credit =
        credits.sum + (credit - tariff.cost op + tariff.gain op) := sum_set there
    have part : credit ≤ credits.sum := List.single_le_sum (by simp) credit (List.mem_of_getElem? there)
    have enough := affords.1
    refine ⟨enough.trans (part.trans within), _, replaced _ _ (affords.2 _), ?_⟩
    omega

theorem spawn (funds : Funds tariff total pool)
    (affords : task.prog.Affords tariff (fun _ => True) more) :
    Funds tariff (total + more) (pool.spawn task) := by
  obtain ⟨credits, each, within⟩ := funds
  refine ⟨credits ++ [more], List.rel_append each (.cons affords .nil), ?_⟩
  simp only [List.sum_append, List.sum_singleton]
  omega

theorem drop (funds : Funds tariff total pool) : Funds tariff total (pool.drop index note value) := by
  obtain ⟨credits, each, within⟩ := funds
  unfold Pool.drop
  cases found : pool.tasks[index]? with
  | none =>
    rw [List.set_eq_of_length_le (List.getElem?_eq_none_iff.mp found)]
    exact ⟨credits, each, within⟩
  | some task =>
    obtain ⟨credit, there, _, replaced⟩ := forall₂_set each found
    have sum : (credits.set index 0).sum + credit = credits.sum + 0 := sum_set there
    refine ⟨credits.set index 0, replaced _ 0 trivial, ?_⟩
    omega

end Funds

end Pool

end WotCrawler.Effect
