import WotCrawler.Crawl.Outcome
import WotCrawler.Crawl.Tending

/-! The retry budget of a crawl: how often a row was claimed, by its status and its attempts, and
that the keys of all rows are among those that the follow lists can name. -/

namespace WotCrawler.Crawl

open Effect Store Ingest Relay

/-- What each statement of a worker does, when its lists name only the given keys. -/
structure Toils (keys : Finset Bytes) (stmt : Stmt) (before after : Desk) : Prop where
  worked : Worked stmt before after
  named : ∀ key, stmt = .upsertPubkey key → key ∈ keys

/-- The attempts of a row are past the range of their column. -/
def attemptsOverflow : StoreError := .sqlx (.database .numericValueOutOfRange)

/-- How a worker ends: with a value, or for want of range. -/
def Ends (result : Except StoreError α) (_ : Desk) : Prop :=
  ∀ error, result = .error error → error = attemptsOverflow

/-- The claims that a row may have had. -/
def Spent (maxAttempts : Int) (claims : Nat) (columns : Columns) : Prop :=
  match columns.status with
  | .discovered => claims = 0 ∨ (claims ≤ columns.fetchAttempts ∧ columns.fetchAttempts < maxAttempts)
  | .inProgress => claims ≤ 1 ∨ (claims ≤ columns.fetchAttempts + 1 ∧ columns.fetchAttempts < maxAttempts)
  | _ => claims ≤ max 1 maxAttempts

/-- The invariant of a crawl whose lists name only the given keys. -/
structure Budgeted (keys : Finset Bytes) (driver : Driver) : Prop where
  manned : Manned driver
  tended : Tended (Toils keys) Ends driver.pool driver.control.batch
  confined : ∀ id row, driver.pool.shared.rows id = some row → row.pubkey ∈ keys
  spent : ∀ id row, driver.pool.shared.rows id = some row →
    Spent driver.settings.maxAttempts (driver.claimed.count id) row.columns
  known : ∀ id ∈ driver.claimed, ∃ row, driver.pool.shared.rows id = some row
  fresh : driver.control.starting = true → driver.claimed = []
  failed : ∀ error, driver.control = .returned (.error error) → error = attemptsOverflow

variable {keys : Finset Bytes} {anchor : PublicKey} {driver after : Driver} {batchSize maxAttempts : Int}
  {before left db : Database} {batch rest : List ClaimedAuthor} {id index : Nat}

section Worker

variable {possible : Finset Nat → Prop} {state : Desk} {settings : Settings} {events : List Event}

/-- The rule of sequence for programs that end so. -/
private theorem ends_bind {first : StoreM α} {next : α → StoreM β}
    (safe : Safe (leasing possible) leased (fun _ _ _ => True) Ends first.run state)
    (rest : ∀ value later, Safe (leasing possible) leased (fun _ _ _ => True) Ends (next value).run later) :
    Safe (leasing possible) leased (fun _ _ _ => True) Ends (first >>= next).run state := by
  have settled : Safe (leasing possible) leased (fun _ _ _ => True)
      (Safe.orFails (fun _ _ => True) (Ends : Except StoreError β → Desk → Prop)) first.run state := by
    apply safe.mono
    intro result later ends
    cases result with
    | ok value => trivial
    | error error => exact fun other same => ends other (congrArg Except.error (Except.error.inj same))
  exact settled.except_bind fun value later _ => rest value later

/-- A requeue fails only for want of range. -/
private theorem requeueAll_ends (maxAttempts : Int) (stamp : DateTime) (rest : List ClaimedAuthor) (state : Desk) :
    Safe (leasing possible) leased (fun _ _ _ => True) Ends (requeueAll maxAttempts stamp rest).run state := by
  induction rest generalizing state with
  | nil => exact Safe.ret fun _ _ error impossible => by cases impossible
  | cons claimed rest ih =>
    have requeued : Safe (leasing possible) leased (fun _ _ _ => True) Ends
        (query (.requeueOrFail claimed.id maxAttempts stamp)).run state := by
      apply query_safe
      intro before reply after now locked moved executes framed released
      refine ⟨trivial, ?_⟩
      intro later moved
      simp only [Stmt.Executes] at executes
      split at executes
      · obtain ⟨rfl, _⟩ := executes
        exact fun error same => (Except.error.inj same).symm
      · obtain ⟨rfl, _⟩ := executes
        exact fun error impossible => by cases impossible
    exact ends_bind requeued fun _ later => ih later

/-- A worker whose fetch failed. -/
private theorem error_toils (error : RelayError) (nodup : (batch.map ClaimedAuthor.id).Nodup)
    (ready : Ready batch state) :
    Safe (leasing possible) leased (Toils keys) Ends (settings.worker batch (.error error)) state := by
  have worked : Safe (leasing possible) leased Worked (mayFail fun _ _ => True)
      (settings.worker batch (.error error)) state := processBatch_worked nodup ready
  have asked : Safe (leasing possible) leased (fun stmt _ _ => RequeueStmt settings.maxAttempts batch stmt) _
      (settings.worker batch (.error error)) state :=
    Safe.of_issues (processBatch_error_issues settings.gate settings.maxAttempts noOpFallback batch error) state
  have ends : Safe (leasing possible) leased (fun _ _ _ => True) Ends (settings.worker batch (.error error)) state := by
    unfold Settings.worker processBatch
    split
    · exact Safe.ret fun _ _ error impossible => by cases impossible
    · apply ends_bind (requeueAll_ends settings.maxAttempts (timestampToDatetime settings.gate.now) batch state)
      exact fun _ _ => Safe.ret fun _ _ error impossible => by cases impossible
  apply ((worked.both asked).both ends).imp
  · intro stmt before after holds
    obtain ⟨⟨works, requeues⟩, _⟩ := holds
    refine ⟨works, ?_⟩
    intro key upserts
    obtain ⟨claimed, member, ts, same⟩ := requeues
    cases upserts.symm.trans same
  · exact fun result later holds => holds.2

/-- A worker whose fetch returned events. -/
private theorem events_toils (nodup : (batch.map ClaimedAuthor.id).Nodup) (ready : Ready batch state)
    (own : ∀ claimed ∈ batch, claimed.pubkey ∈ keys)
    (within : ∀ event ∈ events, ∀ followee ∈ followeeSet event, followee.bytes ∈ keys) :
    Safe (leasing possible) leased (Toils keys) Ends (settings.worker batch (.ok events)) state := by
  have resolved : Safe (leasing possible) leased
      (Resolves (settings.gate.listFor batch events) (timestampToDatetime settings.gate.now) batch) _
      (settings.worker batch (.ok events)) state :=
    processBatch_resolves (fun moved => moved) rfl nodup ready events
  apply resolved.imp
  · intro stmt before after resolves
    refine ⟨⟨resolves.framed, resolves.released, resolves.single, fun id writes => (resolves.owned id writes).1⟩, ?_⟩
    intro key upserts
    obtain ⟨claimed, member, vfl, listed, named⟩ := resolves.named key upserts
    rcases named with rfl | ⟨followee, inside, rfl⟩
    · exact own claimed member
    · obtain ⟨author, _, found⟩ := Option.bind_eq_some_iff.mp listed
      have emitted := List.mem_reverse.mp (List.mem_of_find?_eq_some found)
      obtain ⟨winner, followees, received, _, _, _, extracted, rfl⟩ := exists_of_mem_ingestEvents emitted
      apply within winner received
      rw [← (followeePubkeys_spec extracted).2.1]
      exact List.mem_toFinset.mpr inside
  · intro result later holds
    cases result with
    | ok count => exact fun error impossible => by cases impossible
    | error error => exact holds.elim

/-- A worker over its batch, whatever its fetch returned and whatever the others do meanwhile. -/
theorem worker_toils (nodup : (batch.map ClaimedAuthor.id).Nodup) (ready : Ready batch state)
    (own : ∀ claimed ∈ batch, claimed.pubkey ∈ keys) {fetched : Except RelayError (List Event)}
    (within : ∀ events, fetched = .ok events →
      ∀ event ∈ events, ∀ followee ∈ followeeSet event, followee.bytes ∈ keys) :
    Safe (leasing possible) leased (Toils keys) Ends (settings.worker batch fetched) state := by
  cases fetched with
  | error error => exact error_toils error nodup ready
  | ok events => exact events_toils nodup ready own (within events rfl)

end Worker

namespace Spent

variable {claims : Nat} {old new : Columns} {stmt : Stmt}

/-- No row is claimed past the budget. -/
theorem budget {columns : Columns} (spent : Spent maxAttempts claims columns) : claims ≤ max 1 maxAttempts := by
  unfold Spent at spent
  split at spent
  · omega
  · omega
  · exact spent

/-- A row that was never claimed. -/
theorem zero (maxAttempts : Int) (columns : Columns) : Spent maxAttempts 0 columns := by
  unfold Spent
  split
  · exact .inl rfl
  · exact .inl (Nat.zero_le 1)
  · omega

theorem claim (spent : Spent maxAttempts claims old) (discovered : old.status = .discovered) (now : DateTime) :
    Spent maxAttempts (claims + 1) (old.claim now) := by
  simp only [Spent, discovered] at spent
  simp only [Spent, Columns.claim]
  omega

/-- A worker's statement takes a row it has claimed to its outcome, or back with one attempt more. -/
theorem worker (spent : Spent maxAttempts claims old) (leased : old.status = .inProgress)
    (works : WorkerStmt maxAttempts stmt) (moves : Moves now stmt id old new) : Spent maxAttempts claims new := by
  have within := spent.budget
  cases works.moves moves with
  | stay => exact spent
  | confirm => exact within
  | apply => exact within
  | miss => exact within
  | requeue few =>
    simp only [Spent, leased] at spent
    simp only [Spent, Columns.requeue]
    split_ifs
    · exact within
    · push_cast
      omega

end Spent

namespace Budgeted

/-- No row was claimed past the budget. -/
theorem budget (budgeted : Budgeted keys driver) (id : Nat) :
    driver.claimed.count id ≤ max 1 driver.settings.maxAttempts := by
  by_cases member : id ∈ driver.claimed
  · obtain ⟨row, found⟩ := budgeted.known id member
    exact (budgeted.spent id row found).budget
  · rw [List.count_eq_zero_of_not_mem member]
    omega

/-- There are only so many claims. -/
theorem claims (budgeted : Budgeted keys driver) :
    driver.claimed.length ≤ keys.card * (max 1 driver.settings.maxAttempts).toNat := by
  have named (id : Nat) (member : id ∈ driver.claimed.toFinset) :
      ∃ key ∈ keys, driver.pool.shared.keyed id key := by
    obtain ⟨row, found⟩ := budgeted.known id (List.mem_toFinset.mp member)
    exact ⟨row.pubkey, budgeted.confined id row found, Database.keyed_of_row found⟩
  choose! key inside keyed using named
  have few : driver.claimed.toFinset.card ≤ keys.card := by
    apply Finset.card_le_card_of_injOn key inside
    intro left first right second same
    exact Database.keyed_unique (keyed left first) (same ▸ keyed right second)
  calc driver.claimed.length
      = ∑ id ∈ driver.claimed.toFinset, driver.claimed.count id := (List.sum_toFinset_count_eq_length _).symm
    _ ≤ driver.claimed.toFinset.card * (max 1 driver.settings.maxAttempts).toNat := by
      apply Finset.sum_le_card_nsmul
      intro id _
      have within := budgeted.budget id
      omega
    _ ≤ keys.card * (max 1 driver.settings.maxAttempts).toNat := Nat.mul_le_mul_right _ few

/-- A call that starts. -/
theorem start (settings : Settings) (confined : ∀ id row, db.rows id = some row → row.pubkey ∈ keys) :
    Budgeted keys (.start settings db []) where
  manned := .start settings db []
  tended := .idle rfl
  confined := confined
  spent := fun id row _ => .zero _ row.columns
  known := fun id member => by cases member
  fresh := fun _ => rfl
  failed := fun error same => by cases same

/-- What the driver does before its loop. -/
private theorem starting (budgeted : Budgeted keys driver) (starting : driver.control.starting = true)
    (manned : Manned after) (tended : Tended (Toils keys) Ends after.pool after.control.batch)
    (claimed : after.claimed = driver.claimed)
    (confined : ∀ id row, after.pool.shared.rows id = some row → row.pubkey ∈ keys)
    (unfailed : ∀ error, after.control ≠ .returned (.error error)) : Budgeted keys after := by
  have none : after.claimed = [] := claimed.trans (budgeted.fresh starting)
  refine ⟨manned, tended, confined, ?_, ?_, fun _ => none, fun error same => absurd same (unfailed error)⟩
  · intro id row found
    rw [none]
    exact .zero _ row.columns
  · intro id member
    rw [none] at member
    cases member

/-- The keys that a statement leaves, when it inserts none but the given ones. -/
theorem confined_after {stmt : Stmt} {locked : Finset Nat} {reply : Except StoreError stmt.Ret}
    (confined : ∀ id row, before.rows id = some row → row.pubkey ∈ keys)
    (executes : stmt.Executes now locked before reply left) (named : ∀ key, stmt = .upsertPubkey key → key ∈ keys)
    (id : Nat) (row : PubkeyRow) (found : left.rows id = some row) : row.pubkey ∈ keys := by
  rcases executes.evolves found with ⟨_, upserts, _⟩ | ⟨old, present, same, _⟩
  · exact named row.pubkey upserts
  · exact same ▸ confined id old present

theorem claim (budgeted : Budgeted keys driver) (positive : 1 ≤ batchSize) (manned : Manned (driver.afterClaim workers left reply))
    (tended : Tended (Toils keys) Ends (driver.afterClaim workers left reply).pool
      (driver.afterClaim workers left reply).control.batch)
    (ran : Runs (sqlWith driver.MayLock) (claimBatch batchSize).run driver.pool.shared reply left) :
    Budgeted keys (driver.afterClaim workers left reply) := by
  obtain ⟨now, locked, _, executes⟩ := runs_query ran
  obtain ⟨batch, rfl⟩ := claim_ok (by omega) executes
  obtain ⟨nodup, discovered, made⟩ := claim_spec executes
  have confined := confined_after budgeted.confined executes fun key other => by cases other
  have spent (id : Nat) (row : PubkeyRow) (found : left.rows id = some row) :
      Spent driver.settings.maxAttempts ((driver.claimed ++ batch.map ClaimedAuthor.id).count id) row.columns := by
    rw [List.count_append]
    by_cases member : id ∈ batch.map ClaimedAuthor.id
    · rw [List.count_eq_one_of_mem nodup member]
      obtain ⟨claimed, listed, rfl⟩ := List.mem_map.mp member
      obtain ⟨old, present, _, status⟩ := discovered claimed listed
      rw [made, Database.claim_rows_of_mem member present] at found
      obtain rfl := Option.some.inj found
      exact (budgeted.spent claimed.id old present).claim status now
    · rw [List.count_eq_zero_of_not_mem member]
      rw [made, Database.claim_rows_of_notMem member] at found
      exact budgeted.spent id row found
  have known (id : Nat) (member : id ∈ driver.claimed ++ batch.map ClaimedAuthor.id) :
      ∃ row, left.rows id = some row := by
    have stands : ∃ old, driver.pool.shared.rows id = some old := by
      rcases List.mem_append.mp member with earlier | now
      · exact budgeted.known id earlier
      · obtain ⟨claimed, listed, rfl⟩ := List.mem_map.mp now
        obtain ⟨old, present, _⟩ := discovered claimed listed
        exact ⟨old, present⟩
    obtain ⟨old, present⟩ := stands
    obtain ⟨columns, kept⟩ := executes.framed.persists.keyed (Database.keyed_of_row present)
    exact ⟨_, kept⟩
  unfold Driver.afterClaim at *
  dsimp only at *
  split at manned
  · rename_i empty
    rw [if_pos empty] at tended ⊢
    subst empty
    simp only [List.map_nil, List.append_nil] at spent known
    refine ⟨manned, tended, confined, spent, known, ?_, ?_⟩
    · intro starting
      dsimp only at starting
      split at starting
      · cases starting
      · cases starting
    · intro error same
      dsimp only at same
      split at same
      · cases same
      · cases same
  · rename_i some
    rw [if_neg some] at tended ⊢
    exact ⟨manned, tended, confined, spent, known, (fun starting => by cases starting), fun error same => by cases same⟩

/-- The loop goes on over the same tasks and claims. -/
private theorem joining {handles workers : List Nat} (budgeted : Budgeted keys driver)
    (manned : Manned { driver with control := .joining handles workers }) (batchless : driver.control.batch = []) :
    Budgeted keys { driver with control := .joining handles workers } := by
  have tended := budgeted.tended
  refine ⟨manned, ?_, budgeted.confined, budgeted.spent, budgeted.known, ?_, ?_⟩
  · rw [Control.joining_batch]
    exact batchless ▸ tended
  · intro starting
    rw [Control.joining_starting] at starting
    cases starting
  · exact fun error same => absurd same (Control.joining_ne_returned _)

/-- A task's statement. -/
private theorem work {later : CrawlPool} (budgeted : Budgeted keys driver) (manned : Manned { driver with pool := later })
    (tended : Tended (Toils keys) Ends later driver.control.batch)
    (step : driver.pool.Calls (leasing fun _ => True) index stmt note noted later) :
    Budgeted keys { driver with pool := later } := by
  obtain ⟨next, called⟩ := step.found
  obtain ⟨reply, ⟨now, locked, _, executes⟩, _⟩ := step.executed
  have toils := budgeted.tended.guarded.keeps step
  have works := (budgeted.manned.careful index _ called).1
  refine ⟨manned, tended, confined_after budgeted.confined executes toils.named, ?_, ?_, budgeted.fresh, budgeted.failed⟩
  · intro id row found
    rcases executes.evolves found with ⟨absent, _, _⟩ | ⟨old, present, _, moves⟩
    · have unclaimed : id ∉ driver.claimed := by
        intro member
        obtain ⟨other, there⟩ := budgeted.known id member
        cases absent.symm.trans there
      have none : driver.claimed.count id = 0 := List.count_eq_zero_of_not_mem unclaimed
      rw [none]
      exact .zero _ row.columns
    · have spent := budgeted.spent id old present
      by_cases writes : stmt.outcome = some id
      · obtain ⟨mine, there, status⟩ := budgeted.tended.leases id ⟨index, _, called, toils.worked.owned id writes⟩
        obtain rfl := Option.some.inj (present.symm.trans there)
        exact spent.worker status works moves
      · have kept := toils.worked.framed.columns toils.worked.single id old present writes
        obtain rfl := Option.some.inj (kept.symm.trans found)
        exact spent
  · intro id member
    obtain ⟨old, present⟩ := budgeted.known id member
    obtain ⟨columns, kept⟩ := executes.framed.persists.keyed (Database.keyed_of_row present)
    exact ⟨_, kept⟩

/-- Every step keeps the budget. -/
theorem step (budgeted : Budgeted keys driver) (positive : 1 ≤ batchSize) (anchored : anchor.bytes ∈ keys)
    (within : ∀ batch events, driver.settings.fetchUnion batch (.ok events) →
      ∀ event ∈ events, ∀ followee ∈ followeeSet event, followee.bytes ∈ keys)
    (step : CrawlStep anchor.bytes batchSize driver after) : Budgeted keys after := by
  have manned := budgeted.manned.step positive step
  have spawns (batch : List ClaimedAuthor) (workers : List Nat) (fetched : Except RelayError (List Event))
      (here : driver.control = .permit batch workers) (returns : driver.settings.fetchUnion batch fetched) :
      Safe (leasing fun _ => True) leased (Toils keys) Ends (driver.settings.worker batch fetched)
        (driver.pool.shared, {id | id ∈ batch.map ClaimedAuthor.id}) := by
    have claims := budgeted.tended.claims
    have named := budgeted.manned.named
    rw [here] at claims named
    apply worker_toils claims.distinct
    · exact fun claimed member => ⟨List.mem_map_of_mem member, named claimed member⟩
    · intro claimed member
      obtain ⟨columns, found, _⟩ := claims.rows claimed member
      exact budgeted.confined claimed.id _ found
    · intro events same
      exact within batch events (same ▸ returns)
  have tended := budgeted.tended.step (fun toils => toils.worked) budgeted.manned positive spawns step
  cases step with
  | seed here ran =>
    obtain ⟨id, now, locked, rfl, executes, _⟩ := seedAnchor_executes ran
    apply budgeted.starting (by rw [here]; rfl) manned tended rfl
    · apply confined_after budgeted.confined executes
      intro key upserts
      obtain rfl := Stmt.upsertPubkey.inj upserts
      exact anchored
    · exact fun error same => by cases same
  | reclaim here ran =>
    obtain ⟨now, locked, _, executes⟩ := runs_query ran
    have confined := confined_after budgeted.confined executes fun key other => by cases other
    obtain ⟨rfl, _⟩ := executes
    apply budgeted.starting (by rw [here]; rfl) manned tended rfl confined
    intro error
    unfold Driver.afterReclaim
    dsimp only
    split
    · exact fun same => by cases same
    · exact fun same => by cases same
  | claim here ran => exact budgeted.claim positive manned tended ran
  | spawn here free returns =>
    exact ⟨manned, tended, budgeted.confined, budgeted.spent, budgeted.known, (fun starting => by cases starting),
      fun error same => by cases same⟩
  | reap here finished ended => exact budgeted.joining manned (by rw [here]; rfl)
  | @join handle handles workers note outcome here ended =>
    cases outcome with
    | ok count => exact budgeted.joining manned (by rw [here]; rfl)
    | error error =>
      refine ⟨manned, tended, budgeted.confined, budgeted.spent, budgeted.known, (fun starting => by cases starting), ?_⟩
      intro other same
      obtain rfl := Except.error.inj (Control.returned.inj same)
      exact budgeted.tended.guarded handle _ ended _ (leased.refl _) error rfl
  | work step => exact budgeted.work manned tended step

end Budgeted

end WotCrawler.Crawl
