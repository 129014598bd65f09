import WotCrawler.Effect.Noting

/-! Programs that run while others act on the state between their calls: what a program relies
on, what it guarantees at each call, and the composition rules. -/

namespace WotCrawler.Effect

/-- What a program may assume of the others: every state it sees is related to the one it left. -/
structure Reliance (State : Type) where
  rely : State → State → Prop
  refl : ∀ state, rely state state
  trans : ∀ {first second third}, rely first second → rely second third → rely first third

/-- Nobody else acts. -/
def Reliance.solitary : Reliance State where
  rely := fun before after => after = before
  refl := fun _ => rfl
  trans := fun first second => second.trans first

variable {sig : Signature} {State : Type} {machine : Machine sig State}
  {reliance : Reliance State} {guarantee : sig.Op → State → State → Prop}

/-- At every call the program keeps its guarantee, and its result is as described at every state
the others may leave. -/
def Safe (machine : Machine sig State) (reliance : Reliance State)
    (guarantee : sig.Op → State → State → Prop) (post : α → State → Prop) :
    Prog sig α → State → Prop
  | .ret value, state => ∀ later, reliance.rely state later → post value later
  | .call op next, state => ∀ before reply after, reliance.rely state before →
      machine.exec op before reply after →
      guarantee op before after ∧ Safe machine reliance guarantee post (next reply) after

namespace Safe

variable {post : α → State → Prop} {prog : Prog sig α}

/-- Safety is kept by everything the program relies on. -/
theorem stable (safe : Safe machine reliance guarantee post prog state)
    (step : reliance.rely state later) : Safe machine reliance guarantee post prog later := by
  cases prog with
  | ret value =>
    intro final after
    exact safe final (reliance.trans step after)
  | call op next =>
    intro before reply after moved executed
    exact safe before reply after (reliance.trans step moved) executed

/-- It is enough to be safe at every state the others may leave. -/
theorem of_later (safe : ∀ later, reliance.rely state later →
    Safe machine reliance guarantee post prog later) :
    Safe machine reliance guarantee post prog state := by
  cases prog with
  | ret value =>
    intro later moved
    exact safe later moved later (reliance.refl later)
  | call op next =>
    intro before reply after moved executed
    exact safe before moved before reply after (reliance.refl before) executed

theorem ret (holds : ∀ later, reliance.rely state later → post value later) :
    Safe machine reliance guarantee post (.ret value) state := holds

/-- The rule of sequence, where the rest is told that the intermediate result stays. -/
theorem bind_settled {next : α → Prog sig β} {middle : α → State → Prop} {post : β → State → Prop}
    (first : Safe machine reliance guarantee middle prog state)
    (rest : ∀ value state, (∀ later, reliance.rely state later → middle value later) →
      Safe machine reliance guarantee post (next value) state) :
    Safe machine reliance guarantee post (prog >>= next) state := by
  induction prog generalizing state with
  | ret value => exact rest value state first
  | call op tail ih =>
    intro before reply after moved executed
    obtain ⟨guaranteed, safe⟩ := first before reply after moved executed
    exact ⟨guaranteed, ih reply safe⟩

/-- The rule of consequence, under what all states along the run keep: a program relies on more, and
guarantees and leaves less. -/
theorem consequence {narrower : Reliance State} {wider : sig.Op → State → State → Prop} {weaker : α → State → Prop}
    (safe : Safe machine reliance guarantee post prog state) (keeps : State → Prop) (start : keeps state)
    (others : ∀ {before after}, narrower.rely before after → keeps before → reliance.rely before after ∧ keeps after)
    (own : ∀ {op before after}, keeps before → guarantee op before after → wider op before after ∧ keeps after)
    (implies : ∀ {value later}, keeps later → post value later → weaker value later) :
    Safe machine narrower wider weaker prog state := by
  induction prog generalizing state with
  | ret value =>
    intro later moved
    obtain ⟨relied, kept⟩ := others moved start
    exact implies kept (safe later relied)
  | call op tail ih =>
    intro before reply after moved executed
    obtain ⟨relied, held⟩ := others moved start
    obtain ⟨guaranteed, rest⟩ := safe before reply after relied executed
    obtain ⟨widely, kept⟩ := own held guaranteed
    exact ⟨widely, ih reply rest kept⟩

theorem mono {weaker : α → State → Prop}
    (safe : Safe machine reliance guarantee post prog state)
    (implies : ∀ value later, post value later → weaker value later) :
    Safe machine reliance guarantee weaker prog state := by
  apply safe.consequence (fun _ => True) trivial
  · exact fun moved _ => ⟨moved, trivial⟩
  · exact fun _ guaranteed => ⟨guaranteed, trivial⟩
  · exact fun _ holds => implies _ _ holds

/-- Guarantees may be weakened too. -/
theorem imp {wider : sig.Op → State → State → Prop} {weaker : α → State → Prop}
    (safe : Safe machine reliance guarantee post prog state)
    (guarantees : ∀ op before after, guarantee op before after → wider op before after)
    (implies : ∀ value later, post value later → weaker value later) :
    Safe machine reliance wider weaker prog state := by
  apply safe.consequence (fun _ => True) trivial
  · exact fun moved _ => ⟨moved, trivial⟩
  · exact fun _ guaranteed => ⟨guarantees _ _ _ guaranteed, trivial⟩
  · exact fun _ holds => implies _ _ holds

/-- Two descriptions of one program. -/
theorem both {also : sig.Op → State → State → Prop} {alike : α → State → Prop}
    (first : Safe machine reliance guarantee post prog state) (second : Safe machine reliance also alike prog state) :
    Safe machine reliance (fun op before after => guarantee op before after ∧ also op before after)
      (fun value later => post value later ∧ alike value later) prog state := by
  induction prog generalizing state with
  | ret value => exact fun later moved => ⟨first later moved, second later moved⟩
  | call op tail ih =>
    intro before reply after moved executed
    obtain ⟨guaranteed, rest⟩ := first before reply after moved executed
    obtain ⟨likewise, others⟩ := second before reply after moved executed
    exact ⟨⟨guaranteed, likewise⟩, ih reply rest others⟩

/-- What a program asks for at all, it asks for here. -/
theorem of_issues {allowed : sig.Op → Prop} (issues : prog.Issues allowed) (state : State) :
    Safe machine reliance (fun op _ _ => allowed op) (fun _ _ => True) prog state := by
  induction prog generalizing state with
  | ret value => exact fun _ _ => trivial
  | call op tail ih => exact fun _ reply after _ _ => ⟨issues.1, ih reply (issues.2 reply) after⟩

/-- The same, and its result is as described wherever the others go. -/
theorem of_yields {allowed : sig.Op → Prop} {result : α → Prop} (yields : prog.Yields allowed result) (state : State) :
    Safe machine reliance (fun op _ _ => allowed op) (fun value _ => result value) prog state := by
  induction prog generalizing state with
  | ret value => exact fun _ _ => yields
  | call op tail ih => exact fun _ reply after _ _ => ⟨yields.1, ih reply (yields.2 reply) after⟩

/-- One call, when it keeps the guarantee and what it leaves is stable. -/
theorem perform {post : sig.Ret op → State → Prop}
    (step : ∀ before reply after, reliance.rely state before → machine.exec op before reply after →
      guarantee op before after ∧ ∀ later, reliance.rely after later → post reply later) :
    Safe machine reliance guarantee post (.perform op) state := step

/-- What both the others and the program's own calls keep, a whole run keeps. -/
theorem remember (safe : Safe machine reliance guarantee post prog state)
    (keeps : State → Prop) (start : keeps state)
    (others : ∀ {before after}, reliance.rely before after → keeps before → keeps after)
    (own : ∀ {op before after}, guarantee op before after → keeps before → keeps after) :
    Safe machine reliance guarantee (fun value later => keeps later ∧ post value later) prog state := by
  apply safe.consequence keeps start
  · exact fun moved kept => ⟨moved, others moved kept⟩
  · exact fun kept guaranteed => ⟨guaranteed, own guaranteed kept⟩
  · exact fun kept holds => ⟨kept, holds⟩

/-- The same, where it takes the execution of a call to see that the call keeps it. -/
theorem uphold (safe : Safe machine reliance guarantee post prog state)
    (keeps : State → Prop) (start : keeps state)
    (others : ∀ {before after}, reliance.rely before after → keeps before → keeps after)
    (own : ∀ {op before reply after}, guarantee op before after → machine.exec op before reply after →
      keeps before → keeps after) :
    Safe machine reliance guarantee (fun value later => keeps later ∧ post value later) prog state := by
  induction prog generalizing state with
  | ret value => exact fun later moved => ⟨others moved start, safe later moved⟩
  | call op tail ih =>
    intro before reply after moved executed
    obtain ⟨guaranteed, rest⟩ := safe before reply after moved executed
    exact ⟨guaranteed, ih reply rest (own guaranteed executed (others moved start))⟩

/-- A guarantee may be weakened by what all states along the run keep. -/
theorem weaken {wider : sig.Op → State → State → Prop}
    (safe : Safe machine reliance guarantee post prog state)
    (keeps : State → Prop) (start : keeps state)
    (others : ∀ {before after}, reliance.rely before after → keeps before → keeps after)
    (own : ∀ {op before after}, keeps before → guarantee op before after →
      wider op before after ∧ keeps after) :
    Safe machine reliance wider (fun value later => keeps later ∧ post value later) prog state := by
  apply safe.consequence keeps start
  · exact fun moved kept => ⟨moved, others moved kept⟩
  · exact own
  · exact fun kept holds => ⟨kept, holds⟩

/-- A program that is safe among others is safe among fewer. -/
theorem narrow {narrower : Reliance State} (safe : Safe machine reliance guarantee post prog state)
    (implies : ∀ {before after}, narrower.rely before after → reliance.rely before after) :
    Safe machine narrower guarantee post prog state := by
  apply safe.consequence (fun _ => True) trivial
  · exact fun moved _ => ⟨implies moved, trivial⟩
  · exact fun _ guaranteed => ⟨guaranteed, trivial⟩
  · exact fun _ holds => holds

/-- Alone, a safe program ends as described. -/
theorem must (safe : Safe machine reliance guarantee post prog state) :
    Must machine prog state post := by
  induction prog generalizing state with
  | ret value =>
    rw [must_ret]
    exact safe state (reliance.refl state)
  | call op tail ih =>
    rw [must_call]
    intro reply between executed
    exact ih reply (safe state reply between (reliance.refl state) executed).2

section Exceptions

variable {ε : Type} {first : ExceptT ε (Prog sig) α} {next : α → ExceptT ε (Prog sig) β}

/-- A result is a value as described, or an error that ends the caller as described. -/
def orFails (middle : α → State → Prop) (post : Except ε β → State → Prop) :
    Except ε α → State → Prop
  | .ok value, state => middle value state
  | .error error, state => post (.error error) state

/-- The rule of sequence for a computation that its first error stops. -/
theorem except_bind {middle : α → State → Prop} {post : Except ε β → State → Prop}
    (safe : Safe machine reliance guarantee (orFails middle post) first.run state)
    (rest : ∀ value later, middle value later →
      Safe machine reliance guarantee post (next value).run later) :
    Safe machine reliance guarantee post (first >>= next).run state := by
  rw [ExceptT.run_bind]
  apply safe.bind_settled
  intro result state settled
  cases result with
  | ok value =>
    apply of_later
    intro later moved
    exact rest value later (settled later moved)
  | error error => exact settled

/-- A result that is an error, or a value as described where it is returned. -/
def ifOkAt (middle : α → State → Prop) : Except ε α → State → Prop
  | .ok value, state => middle value state
  | .error _, _ => True

/-- The same rule, where an error may end the caller anywhere. -/
theorem ok_bind {middle : α → State → Prop} {final : β → State → Prop}
    (safe : Safe machine reliance guarantee (ifOkAt middle) first.run state)
    (rest : ∀ value later, middle value later →
      Safe machine reliance guarantee (ifOkAt final) (next value).run later) :
    Safe machine reliance guarantee (ifOkAt final) (first >>= next).run state := by
  have settled : Safe machine reliance guarantee (orFails middle (ifOkAt final)) first.run state := by
    apply safe.mono
    intro result later holds
    cases result with
    | ok value => exact holds
    | error error => trivial
  exact settled.except_bind rest

end Exceptions

end Safe

end WotCrawler.Effect
