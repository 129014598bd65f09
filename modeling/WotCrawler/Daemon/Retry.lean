import WotCrawler.Crawl.Batch
import WotCrawler.Crawl.Lifecycle
import WotCrawler.Crawl.Provenance
import WotCrawler.Daemon.FanOut
import WotCrawler.Effect.Credit

/-! How the daemon spends an author's retry budget: one curated relay's error requeues the whole
batch, whatever the other relays answered. -/

namespace WotCrawler.Daemon

open Effect Store Crawl Ingest Relay

/-- The configuration that decides over retries. -/
structure LoopConfig where
  relays : List String
  threshold : Rat
  maxAttempts : Int

/-- A claimed batch, what its fan-out meets, and the gate and the fallback of its worker. -/
structure Cycle where
  batch : List ClaimedAuthor
  around : Surroundings
  network : Network
  registry : RelayHealthRegistry
  gate : GateParams
  fallback : Fallback

def Cycle.fanOut (config : LoopConfig) (cycle : Cycle) : FanOut :=
  fetchUnion config.threshold cycle.around cycle.network config.relays cycle.registry cycle.batch

def Cycle.prog (config : LoopConfig) (cycle : Cycle) : Prog Sql (Except StoreError Nat) :=
  (processBatch cycle.gate config.maxAttempts cycle.fallback cycle.batch (cycle.fanOut config).outcome).run

def Query.erred (query : Query) : Bool :=
  match query.outcome with
  | .ok _ => false
  | .error _ => true

/-- A curated relay that the health gate let through erred. -/
def FanOut.erred (fanOut : FanOut) (relays : List String) : Bool :=
  fanOut.queries.any (fun query => query.relay ∈ relays && query.erred)

/-- A cycle that costs the author an attempt. -/
def Cycle.costs (config : LoopConfig) (id : Nat) (cycle : Cycle) : Bool :=
  cycle.batch.any (fun claimed => claimed.id = id) && (cycle.fanOut config).erred config.relays

def costing (config : LoopConfig) (id : Nat) (cycles : List Cycle) : Nat :=
  cycles.countP (Cycle.costs config id)

/-- The workers, each with the cycle it runs. -/
abbrev Loop := Pool Sql Database Cycle (Except StoreError Nat)

/-- What the daemon loop asks of the store itself. -/
def Upkeep : Stmt → Prop
  | .upsertPubkey _ => True
  | .reclaimInProgress => True
  | .reclaimStale _ => True
  | .reclaimExpired _ => True
  | _ => False

/-- The steps of the daemon: the seed and the sweeps, a claim that starts a worker, a worker's next
statement, and a worker's death. A crash is the death of all of them. -/
inductive LoopStep (config : LoopConfig) (loop : Loop) : Loop → Prop where
  | upkeep (upkeep : Upkeep stmt) (executed : sql.exec stmt loop.shared reply left) :
      LoopStep config loop (loop.disturb left)
  | claim (cycle : Cycle) (executed : sql.exec (.claim batchSize) loop.shared (.ok cycle.batch) left) :
      LoopStep config loop ((loop.disturb left).spawn ⟨cycle, cycle.prog config⟩)
  | work (step : loop.Calls sql.silent index stmt note noted after) : LoopStep config loop after
  | die (found : loop.tasks[index]? = some task) (error : StoreError) :
      LoopStep config loop (loop.drop index task.note (.error error))

/-- The cycles whose workers have not returned. -/
def running (loop : Loop) : List Cycle :=
  (loop.tasks.filter (fun task => !task.prog.returned)).map Task.note

variable {config : LoopConfig} {cycle : Cycle}

section Cost

private theorem map_error {outcome : Except ε α} {f : α → β} (failed : outcome.map f = .error error) :
    outcome = .error error := by
  cases outcome with
  | error other => exact congrArg Except.error (Except.error.inj failed)
  | ok value => cases failed

/-- An error of the fan-out is that of a curated relay which the gate let through. -/
theorem visitRelays_erred {threshold : Rat} {around : Surroundings} {network : Network}
    {authors : List PublicKey} {relays : List String} {registry : RelayHealthRegistry}
    (failed : (visitRelays threshold around network authors visit relays registry).outcome = .error error) :
    (visitRelays threshold around network authors visit relays registry).erred relays = true := by
  induction relays generalizing visit registry with
  | nil => cases failed
  | cons relay rest ih =>
    have widen (fanOut : FanOut) (erred : fanOut.erred rest = true) : fanOut.erred (relay :: rest) = true := by
      obtain ⟨query, queried, holds⟩ := List.any_eq_true.mp erred
      have both : query.relay ∈ rest ∧ query.erred = true := by simpa using holds
      exact List.any_eq_true.mpr ⟨query, queried, by simp [both]⟩
    cases allowed : (around.others visit registry).routeAllowed relay threshold (around.clock visit) with
    | false =>
      rw [visitRelays_skip allowed] at failed ⊢
      exact widen _ (ih failed)
    | true =>
      rw [visitRelays, RelayHealthRegistry.tryMarkAttempt_eq, allowed] at failed ⊢
      simp only [if_true] at failed ⊢
      cases fetched : network.fetchComplete visit relay authors (network.maxLimit visit relay) with
      | error error => simp [FanOut.erred, Query.erred]
      | ok events =>
        simp only [fetched] at failed ⊢
        have later := widen _ (ih (map_error failed))
        unfold FanOut.erred at later ⊢
        rw [List.any_cons, later, Bool.or_true]

theorem Cycle.erred_of_error (failed : (cycle.fanOut config).outcome = .error error) :
    (cycle.fanOut config).erred config.relays = true := by
  unfold Cycle.fanOut fetchUnion at failed ⊢
  dsimp only at failed ⊢
  split at failed
  · cases failed
  · rename_i asked
    rw [if_neg asked]
    exact visitRelays_erred failed

/-- By how much a statement bumps the attempts of a row. -/
def requeueCost (id : Nat) : Stmt → Nat
  | .requeueOrFail other _ _ => if other = id then 1 else 0
  | _ => 0

def requeueTariff (id : Nat) : Tariff Sql where
  cost := requeueCost id
  gain := fun _ => 0

theorem requeueAll_affords (maxAttempts : Int) (stamp : DateTime) (id : Nat) (batch : List ClaimedAuthor) :
    (requeueAll maxAttempts stamp batch).run.Affords (requeueTariff id) (ifOk fun _ => True)
      ((batch.map ClaimedAuthor.id).count id) := by
  induction batch with
  | nil => trivial
  | cons claimed rest ih =>
    have first : (requeueOrFail claimed.id maxAttempts stamp).run.Affords (requeueTariff id) (ifOk fun _ => True)
        (if claimed.id = id then 1 else 0) := by
      refine ⟨le_refl _, ?_⟩
      intro reply
      cases reply with
      | ok _ => trivial
      | error _ => trivial
    have total : ((claimed :: rest).map ClaimedAuthor.id).count id =
        (if claimed.id = id then 1 else 0) + (rest.map ClaimedAuthor.id).count id := by
      rw [List.map_cons, List.count_cons, Nat.add_comm]
      simp
    unfold requeueAll
    rw [total]
    exact first.except_bind fun _ _ => ih

/-- A batch costs its authors at most one attempt, and none unless a relay erred. -/
theorem Cycle.affords (cycle : Cycle) (nodup : (cycle.batch.map ClaimedAuthor.id).Nodup) (id : Nat) :
    (cycle.prog config).Affords (requeueTariff id) (fun _ => True) (costing config id [cycle]) := by
  have free (prog : Prog Sql (Except StoreError Nat)) (issues : prog.Issues fun stmt => requeueCost id stmt = 0) :
      prog.Affords (requeueTariff id) (fun _ => True) (costing config id [cycle]) :=
    issues.yields.affords.mono (Nat.zero_le _) fun _ holds => holds
  unfold Cycle.prog
  cases fetched : (cycle.fanOut config).outcome with
  | ok events =>
    apply free
    apply (processBatch_ok_issues cycle.gate config.maxAttempts cycle.fallback cycle.batch events).mono
    intro stmt resolves
    cases stmt with
    | requeueOrFail other cap ts => cases resolves
    | _ => rfl
  | error error =>
    by_cases member : id ∈ cycle.batch.map ClaimedAuthor.id
    · have costs : costing config id [cycle] = 1 := by
        have listed : cycle.batch.any (fun claimed => claimed.id = id) = true := by simpa using member
        simp [costing, Cycle.costs, listed, Cycle.erred_of_error fetched]
      have once : (cycle.batch.map ClaimedAuthor.id).count id = 1 := List.count_eq_one_of_mem nodup member
      rw [costs, ← once]
      unfold processBatch
      split
      · trivial
      · have requeued := requeueAll_affords config.maxAttempts (timestampToDatetime cycle.gate.now) id cycle.batch
        have ends (_ : Unit) (_ : True) : (pure 0 : StoreM Nat).run.Affords (requeueTariff id)
            (ifOk fun _ => True) 0 := trivial
        exact (requeued.except_bind ends).mono (le_refl _) fun _ _ => trivial
    · apply free
      apply (processBatch_error_issues cycle.gate config.maxAttempts cycle.fallback cycle.batch error).mono
      intro stmt requeues
      obtain ⟨claimed, listed, ts, rfl⟩ := requeues
      have other : claimed.id ≠ id := fun same => member (same ▸ List.mem_map_of_mem listed)
      exact if_neg other

theorem Cycle.standard (cycle : Cycle) : (cycle.prog config).Issues (StandardStmt config.maxAttempts) := by
  unfold Cycle.prog
  cases fetched : (cycle.fanOut config).outcome with
  | error error =>
    apply (processBatch_error_issues cycle.gate config.maxAttempts cycle.fallback cycle.batch error).mono
    intro stmt requeues
    obtain ⟨claimed, member, ts, rfl⟩ := requeues
    rfl
  | ok events =>
    exact (processBatch_ok_issues cycle.gate config.maxAttempts cycle.fallback cycle.batch events).mono
      fun _ resolves => resolves.standard

end Cost

section Budget

variable {loop after : Loop}

theorem costing_append (config : LoopConfig) (id : Nat) (first second : List Cycle) :
    costing config id (first ++ second) = costing config id first + costing config id second :=
  List.countP_append

theorem costing_cons (config : LoopConfig) (id : Nat) (cycle : Cycle) (rest : List Cycle) :
    costing config id (cycle :: rest) = costing config id [cycle] + costing config id rest :=
  costing_append config id [cycle] rest

/-- Each worker has no more requeues of a row left than its cycle costs it. -/
def Thrifty (config : LoopConfig) (loop : Loop) : Prop :=
  loop.Each fun cycle prog => prog.Issues (StandardStmt config.maxAttempts) ∧
    ∀ id, prog.Affords (requeueTariff id) (fun _ => True) (costing config id [cycle])

/-- A cycle's batch is claimed once. -/
theorem Thrifty.claim (thrifty : Thrifty config loop) (cycle : Cycle)
    (executed : sql.exec (.claim batchSize) loop.shared (.ok cycle.batch) left) :
    Thrifty config ((loop.disturb left).spawn ⟨cycle, cycle.prog config⟩) := by
  obtain ⟨now, locked, _, executes⟩ := executed
  have undisturbed : Thrifty config (loop.disturb left) := thrifty
  apply undisturbed.spawn
  exact ⟨cycle.standard, cycle.affords (claim_spec executes).1⟩

theorem Thrifty.step (thrifty : Thrifty config loop) (step : LoopStep config loop after) :
    Thrifty config after := by
  cases step with
  | upkeep upkeep executed => exact thrifty
  | claim cycle executed => exact thrifty.claim cycle executed
  | @work index stmt note noted _ step =>
    obtain ⟨reply, _, kept⟩ := step.executed
    have same : noted = note := kept
    subst same
    apply thrifty.calls step
    intro next reply holds
    refine ⟨holds.1.2 reply, ?_⟩
    intro id
    exact ((holds.2 id).2 reply).mono (Nat.sub_le _ _) fun _ _ => trivial
  | die found error => exact thrifty.drop ⟨trivial, fun _ => trivial⟩

/-- The workers that still run have as many requeues of a row left as their cycles cost it. -/
theorem Thrifty.funds (thrifty : Thrifty config loop) (id : Nat) :
    loop.Funds (requeueTariff id) (costing config id (running loop)) := by
  have each (task : Task Sql Cycle (Except StoreError Nat)) (member : task ∈ loop.tasks) :
      task.prog.Affords (requeueTariff id) (fun _ => True)
        (if task.prog.returned then 0 else costing config id [task.note]) := by
    obtain ⟨index, found⟩ := List.mem_iff_getElem?.mp member
    have within := (thrifty index task found).2 id
    obtain ⟨note, prog⟩ := task
    cases prog with
    | ret value => trivial
    | call stmt next => exact within
  have total : (loop.tasks.map fun task =>
      if task.prog.returned then 0 else costing config id [task.note]).sum = costing config id (running loop) := by
    unfold running
    induction loop.tasks with
    | nil => rfl
    | cons task rest ih =>
      cases ended : task.prog.returned with
      | true => simpa [ended] using ih
      | false =>
        have kept : (task :: rest).filter (fun task => !task.prog.returned) =
            task :: rest.filter (fun task => !task.prog.returned) := List.filter_cons_of_pos (by simp [ended])
        have split := costing_cons config id task.note
          ((rest.filter fun task => !task.prog.returned).map Task.note)
        rw [List.map_cons, List.sum_cons, ih, kept, List.map_cons, split]
        simp [ended]
  rw [← total]
  exact Pool.Funds.of_each each

/-- What a row has lost, and may still lose, is within a budget. -/
structure Within (maxAttempts : Int) (id : Nat) (budget left : Nat) (db : Database) : Prop where
  spare : left ≤ budget
  attempts : ∀ row, db.rows id = some row → row.columns.fetchAttempts + left ≤ budget
  failed : ∀ row, db.rows id = some row → row.columns.status = .failed → maxAttempts ≤ budget

private theorem moves_attempts {id : Nat} {columns next : Columns} (moves : Moves now stmt id columns next) :
    next.fetchAttempts ≤ columns.fetchAttempts + requeueCost id stmt := by
  cases moves with
  | reclaim selected => exact Nat.zero_le _
  | requeue few => exact Nat.add_le_add_left (if_pos rfl).ge _
  | _ => exact Nat.le_add_right _ _

private theorem moves_failed {id : Nat} {columns next : Columns} (standard : StandardStmt maxAttempts stmt)
    (moves : Moves now stmt id columns next) (failed : next.status = .failed) :
    columns.status = .failed ∨ maxAttempts ≤ columns.fetchAttempts + requeueCost id stmt := by
  cases moves with
  | stay => exact .inl failed
  | confirm => cases failed
  | apply => cases failed
  | stamp =>
    have status : _ = FetchStatus.notFound := standard
    rw [status] at failed
    cases failed
  | claim discovered => cases failed
  | reclaim selected => cases failed
  | @requeue columns cap ts few =>
    have same : cap = maxAttempts := standard
    subst same
    have one : requeueCost id (.requeueOrFail id cap ts) = 1 := if_pos rfl
    rw [one]
    by_cases spent : (columns.fetchAttempts + 1 : Int) ≥ cap
    · exact .inr spent
    · simp [Columns.requeue, spent] at failed

/-- A statement keeps the budget, and a requeue of the row takes one from what is left. -/
theorem Within.executes {id : Nat} {stmt : Stmt} {before after : Database} {locked : Finset Nat}
    {reply : Except StoreError stmt.Ret} (within : Within maxAttempts id budget left before)
    (standard : StandardStmt maxAttempts stmt) (executes : stmt.Executes now locked before reply after)
    (enough : requeueCost id stmt ≤ left) : Within maxAttempts id budget (left - requeueCost id stmt) after := by
  have bound := within.spare
  refine ⟨(Nat.sub_le _ _).trans bound, ?_, ?_⟩
  · intro kept found
    cases executes.evolves found with
    | inl fresh =>
      rw [fresh.2.2]
      exact (Nat.zero_add _).le.trans ((Nat.sub_le _ _).trans bound)
    | inr old =>
      obtain ⟨row, present, _, moves⟩ := old
      have had := within.attempts row present
      have now := moves_attempts moves
      omega
  · intro kept found failed
    cases executes.evolves found with
    | inl fresh =>
      rw [fresh.2.2] at failed
      cases failed
    | inr old =>
      obtain ⟨row, present, _, moves⟩ := old
      have had := within.attempts row present
      cases moves_failed standard moves failed with
      | inl earlier => exact within.failed row present earlier
      | inr spent => omega

theorem Within.grow {id : Nat} (within : Within maxAttempts id budget left db) (more : Nat) :
    Within maxAttempts id (budget + more) (left + more) db := by
  refine ⟨Nat.add_le_add_right within.spare more, ?_, ?_⟩
  · intro row found
    have had := within.attempts row found
    omega
  · intro row found failed
    have spent := within.failed row found failed
    omega

private theorem upkeep_standard {stmt : Stmt} (upkeep : Upkeep stmt) :
    StandardStmt maxAttempts stmt ∧ ∀ id, requeueCost id stmt = 0 := by
  cases stmt with
  | updateStatus id status ts => cases upkeep
  | requeueOrFail id cap now => cases upkeep
  | _ => exact ⟨trivial, fun _ => rfl⟩

/-- The workers' remaining requeues of a row, with the attempts it has lost, are within a budget. -/
def Accounted (config : LoopConfig) (id budget : Nat) (loop : Loop) : Prop :=
  ∃ left, loop.Funds (requeueTariff id) left ∧ Within config.maxAttempts id budget left loop.shared

/-- A step keeps the budget, and a claim adds to it what its cycle costs. -/
theorem Accounted.step {id : Nat} (accounted : Accounted config id budget loop) (thrifty : Thrifty config loop)
    (step : LoopStep config loop after) :
    ∃ started, after.notes = loop.notes ++ started ∧
      Accounted config id (budget + costing config id started) after := by
  obtain ⟨left, funds, within⟩ := accounted
  cases step with
  | upkeep upkeep executed =>
    obtain ⟨now, locked, _, executes⟩ := executed
    obtain ⟨standard, free⟩ := upkeep_standard upkeep
    have kept := within.executes standard executes ((free id).trans_le (Nat.zero_le _))
    rw [free id] at kept
    exact ⟨[], (List.append_nil _).symm, left, funds, kept⟩
  | @claim batchSize remaining cycle executed =>
    obtain ⟨now, locked, _, executes⟩ := executed
    have undisturbed : (loop.disturb remaining).Funds (requeueTariff id) left := funds
    have started : Pool.Funds (requeueTariff id) (left + costing config id [cycle])
        ((loop.disturb remaining).spawn ⟨cycle, cycle.prog config⟩) :=
      undisturbed.spawn (cycle.affords (claim_spec executes).1 id)
    have standard : StandardStmt config.maxAttempts (.claim batchSize) := trivial
    have claimed := within.executes standard executes (Nat.zero_le _)
    exact ⟨[cycle], Pool.spawn_notes _ _, _, started, claimed.grow _⟩
  | @work index stmt note noted _ step =>
    obtain ⟨reply, ⟨now, locked, _, executes⟩, kept⟩ := step.executed
    have same : noted = note := kept
    subst same
    obtain ⟨next, found⟩ := step.found
    have standard : StandardStmt config.maxAttempts stmt := (thrifty index _ found).1.1
    obtain ⟨enough, rest⟩ := funds.calls step
    exact ⟨[], step.notes.trans (List.append_nil _).symm, _, rest, within.executes standard executes enough⟩
  | die found error =>
    exact ⟨[], (Pool.drop_notes found).trans (List.append_nil _).symm, left, funds.drop, within⟩

/-- Every worker of a run from a state without workers is thrifty. -/
theorem thrifty_reached (run : Relation.ReflTransGen (LoopStep config) ⟨db, []⟩ loop) : Thrifty config loop := by
  induction run with
  | refl => exact fun _ _ none => by cases none
  | tail run step ih => exact ih.step step

/-- Along a run the budget grows by what the cycles cost that start. -/
theorem Accounted.run {id : Nat} (accounted : Accounted config id budget loop) (thrifty : Thrifty config loop)
    (run : Relation.ReflTransGen (LoopStep config) loop after) :
    Thrifty config after ∧ ∃ started, after.notes = loop.notes ++ started ∧
      Accounted config id (budget + costing config id started) after := by
  induction run with
  | refl => exact ⟨thrifty, [], (List.append_nil _).symm, accounted⟩
  | tail run step ih =>
    obtain ⟨thrifty, started, notes, accounted⟩ := ih
    obtain ⟨more, later, kept⟩ := accounted.step thrifty step
    refine ⟨thrifty.step step, started ++ more, ?_, ?_⟩
    · rw [later, notes, List.append_assoc]
    · rw [costing_append, ← Nat.add_assoc]
      exact kept

/-- However the relays behave and the workers interleave, an author that fails has lost its whole
budget to relay errors: counting from any state in which it had not failed, its attempts there and
the cycles, running there or claimed since, in which a curated relay erred, make `max_attempts`. -/
theorem failed_after_errors {id spent : Nat} {db : Database} {middle final : Loop}
    (reached : Relation.ReflTransGen (LoopStep config) ⟨db, []⟩ middle)
    (alive : ∀ row, middle.shared.rows id = some row →
      row.columns.status ≠ .failed ∧ row.columns.fetchAttempts ≤ spent)
    (later : Relation.ReflTransGen (LoopStep config) middle final)
    (found : final.shared.rows id = some row) (failed : row.columns.status = .failed) :
    config.maxAttempts ≤ spent +
      costing config id (running middle ++ final.notes.drop middle.notes.length) := by
  have thrifty := thrifty_reached reached
  have accounted : Accounted config id (spent + costing config id (running middle)) middle := by
    refine ⟨_, thrifty.funds id, Nat.le_add_left _ _, ?_, ?_⟩
    · intro row present
      exact Nat.add_le_add_right (alive row present).2 _
    · intro row present stamped
      exact absurd stamped (alive row present).1
  obtain ⟨_, started, notes, left, _, within⟩ := accounted.run thrifty later
  have bound := within.failed row found failed
  rw [notes, List.drop_left, costing_append]
  omega

end Budget

section Example

/-- A relay answers every request for an author with its list. -/
def Answers (network : Network) (relay : String) (author : PublicKey) (list : Event) : Prop :=
  ∀ visit authors maxLimit, author ∈ authors →
    ∃ events, network.fetchComplete visit relay authors maxLimit = .ok events ∧ list ∈ events

/-- One relay that answers, one that never does, and a single attempt. -/
def goodAndDead : LoopConfig := ⟨["wss://good", "wss://dead"], 1 / 4, 1⟩

def goodAndDeadNetwork : Network where
  maxLimit := fun _ _ => 500
  fetchComplete := fun _ relay _ _ =>
    if relay = "wss://good" then .ok [newerEvent] else .error (.fetchTimeout relay)
  answers := fun _ _ => ["wss://good"]
  latency := fun _ => 0

def anchorCycle : Cycle where
  batch := [Fleet.soleAuthor]
  around := ⟨fun _ => 0, fun _ registry => registry⟩
  network := goodAndDeadNetwork
  registry := .new .binary64 (3 / 10)
  gate := versionsGate
  fallback := noOpFallback

private theorem routeAllowed_unknown {relay : String} {registry : RelayHealthRegistry}
    (unknown : registry.scores relay = none) : registry.routeAllowed relay goodAndDead.threshold 0 = true := by
  have healthy : registry.score relay ≥ goodAndDead.threshold := by
    rw [RelayHealthRegistry.score, unknown, Option.getD_none]
    norm_num [goodAndDead]
  rw [RelayHealthRegistry.routeAllowed, decide_eq_true healthy, Bool.true_or]

private theorem anchorCycle_fails :
    (anchorCycle.fanOut goodAndDead).outcome = .error (.fetchTimeout "wss://dead") := by
  have asked : requestedAuthors anchorCycle.batch ≠ [] := by decide
  have good : goodAndDeadNetwork.fetchComplete 0 "wss://good" (requestedAuthors anchorCycle.batch) 500 =
      .ok [newerEvent] := by simp [goodAndDeadNetwork]
  have dead : goodAndDeadNetwork.fetchComplete 1 "wss://dead" (requestedAuthors anchorCycle.batch) 500 =
      .error (.fetchTimeout "wss://dead") := by simp [goodAndDeadNetwork]
  have first : (anchorCycle.around.others 0 anchorCycle.registry).routeAllowed "wss://good"
      goodAndDead.threshold (anchorCycle.around.clock 0) = true := routeAllowed_unknown rfl
  have second : (anchorCycle.around.others 1 (((anchorCycle.around.others 0 anchorCycle.registry).markAttempt "wss://good"
      (anchorCycle.around.clock 0)).recordSuccess "wss://good" (goodAndDeadNetwork.latency 0))).routeAllowed "wss://dead"
        goodAndDead.threshold (anchorCycle.around.clock 1) = true := by
    apply routeAllowed_unknown
    simp [RelayHealthRegistry.recordSuccess, RelayHealthRegistry.update, RelayHealthRegistry.markAttempt,
      anchorCycle, RelayHealthRegistry.new]
  unfold Cycle.fanOut fetchUnion
  rw [if_neg asked]
  refine (visitRelays_ok first good).trans ?_
  exact congrArg _ (visitRelays_error second dead)

private theorem anchor_seeded :
    Relation.ReflTransGen (LoopStep goodAndDead) ⟨Database.empty, []⟩ ⟨Fleet.oneRow, []⟩ := by
  have upkeep : Upkeep (.upsertPubkey sampleAuthor.bytes) := trivial
  exact .single (.upkeep upkeep oneRow_upserts)

/-- The anchor is claimed, one relay errs, and the requeue spends the only attempt. -/
private theorem anchor_requeued : ∃ final,
    Relation.ReflTransGen (LoopStep goodAndDead) ⟨Fleet.oneRow, []⟩ final ∧ final.notes = [anchorCycle] ∧
    ∃ row, final.shared.rows 1 = some row ∧ row.pubkey = sampleAuthor.bytes ∧ row.columns.status = .failed := by
  have claimed : LoopStep goodAndDead ⟨Fleet.oneRow, []⟩ ⟨claimedRow, [⟨anchorCycle, anchorCycle.prog goodAndDead⟩]⟩ :=
    .claim anchorCycle oneRow_claims
  obtain ⟨ts, next, requeues⟩ : ∃ ts next, anchorCycle.prog goodAndDead = .call (.requeueOrFail 1 1 ts) next := by
    unfold Cycle.prog
    rw [anchorCycle_fails]
    exact ⟨_, _, rfl⟩
  have leased : claimedRow.rows 1 = some ⟨sampleAuthor.bytes, Columns.default.claim 0⟩ := by decide
  have executes : Stmt.Executes 0 ∅ (.requeueOrFail 1 1 ts) claimedRow (.ok ())
      (claimedRow.updateRow 1 (Columns.requeue 1 ts)) := by
    have few : ¬ (claimedRow.rows 1).any (fun row => row.columns.fetchAttempts + 1 > 32767) = true := by
      rw [leased]
      decide
    simp only [Stmt.Executes]
    rw [if_neg few]
    trivial
  rw [requeues] at claimed
  have found : [(⟨anchorCycle, .call (.requeueOrFail 1 1 ts) next⟩ : Task Sql Cycle (Except StoreError Nat))][0]? =
      some ⟨anchorCycle, .call (.requeueOrFail 1 1 ts) next⟩ := rfl
  have called : Pool.Calls sql.silent ⟨claimedRow, [⟨anchorCycle, .call (.requeueOrFail 1 1 ts) next⟩]⟩ 0 _ _ _ _ :=
    .noting found ⟨0, ∅, trivial, executes⟩
  refine ⟨_, (Relation.ReflTransGen.single claimed).tail (.work called), rfl, ?_⟩
  have stamped : (claimedRow.updateRow 1 (Columns.requeue 1 ts)).rows 1 =
      some ⟨sampleAuthor.bytes, (Columns.default.claim 0).requeue 1 ts⟩ := by
    rw [Database.updateRow_rows_self, leased]
    rfl
  exact ⟨_, stamped, rfl, rfl⟩

/-- The anchor fails although a relay answers every request for it with its list. -/
theorem answered_author_fails : ∃ final,
    Relation.ReflTransGen (LoopStep goodAndDead) ⟨Database.empty, []⟩ final ∧
    "wss://good" ∈ goodAndDead.relays ∧
    (∀ cycle ∈ final.notes, Answers cycle.network "wss://good" sampleAuthor newerEvent ∧
      ∃ vfl, cycle.gate.listFor cycle.batch [newerEvent] Fleet.soleAuthor = some vfl) ∧
    ∃ row, final.shared.rows 1 = some row ∧ row.pubkey = sampleAuthor.bytes ∧ row.columns.status = .failed := by
  obtain ⟨final, run, notes, failed⟩ := anchor_requeued
  refine ⟨final, anchor_seeded.trans run, List.mem_cons_self .., ?_, failed⟩
  rw [notes]
  intro cycle member
  obtain rfl := List.mem_singleton.mp member
  refine ⟨?_, ?_⟩
  · intro visit authors maxLimit _
    exact ⟨[newerEvent], by simp [anchorCycle, goodAndDeadNetwork], List.mem_singleton_self _⟩
  · have listed : (versionsGate.listFor [Fleet.soleAuthor] [newerEvent] Fleet.soleAuthor).isSome := by decide
    exact Option.isSome_iff_exists.mp listed

/-- The theorem there: one attempt, lost to the relay that erred. -/
theorem failed_after_errors_anchor : ∃ final,
    Relation.ReflTransGen (LoopStep goodAndDead) ⟨Fleet.oneRow, []⟩ final ∧
    (∃ row, final.shared.rows 1 = some row ∧ row.columns.status = .failed) ∧
    goodAndDead.maxAttempts ≤ (0 : Nat) + costing goodAndDead 1 (running ⟨Fleet.oneRow, []⟩ ++ final.notes.drop 0) := by
  obtain ⟨final, run, notes, row, found, key, failed⟩ := anchor_requeued
  have alive (row : PubkeyRow) (present : Fleet.oneRow.rows 1 = some row) :
      row.columns.status ≠ .failed ∧ row.columns.fetchAttempts ≤ 0 := by
    have fresh : Fleet.oneRow.rows 1 = some ⟨sampleAuthor.bytes, Columns.default⟩ := by decide
    obtain rfl := Option.some.inj (fresh.symm.trans present)
    exact ⟨by decide, le_refl 0⟩
  exact ⟨final, run, ⟨row, found, failed⟩, failed_after_errors anchor_seeded alive run found failed⟩

end Example

end WotCrawler.Daemon
