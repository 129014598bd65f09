import WotCrawler.Crawl.Provenance

/-! What the daemon guarantees at its statements, whatever was fetched: where the application of a list
and the statements around it keep a guarantee, a whole batch does, and so does every run. -/

namespace WotCrawler.Crawl

open Effect Store Ingest Relay

/-- A list as the gate emits it: that of a verified event. -/
def EmittedOf (verify : Event → Bool) (kind : Kind) (vfl : ValidatedFollowList) : Prop :=
  ∃ event followCap followees, verify event = true ∧ event.kind = kind ∧
    followeePubkeys event followCap = some followees ∧ vfl = .fromEvent event followees

/-- Every list that the gate emits is one. -/
theorem emittedOf_of_mem {verify : Event → Bool} {kind : Kind} {vfl : ValidatedFollowList} {events : List Event}
    {requested : Finset PublicKey}
    (member : vfl ∈ ingestEvents verify events kind requested now futureClampSecs followCap) : EmittedOf verify kind vfl := by
  obtain ⟨winner, followees, _, verified, same, _, extracted, made⟩ := exists_of_mem_ingestEvents member
  exact ⟨winner, followCap, followees, verified, same, extracted, made⟩

section Worker

/-- The statements that settle an author without applying a list. -/
def Settling : Stmt → Prop
  | .upsertPubkey key => ∃ author : PublicKey, author.bytes = key
  | .updateStatus _ status _ => status = .notFound
  | .requeueOrFail _ _ _ => True
  | _ => False

/-- The statements that look an author's write relays up and replace them. -/
def Relisting : Stmt → Prop
  | .selectWriteRelays _ => True
  | .replaceRelays _ _ _ => True
  | _ => False

variable {Note : Type} {reliance : Reliance (Database × Note)} {guarantee : Stmt → Database → Prop}

/-- A computation of a worker keeps the guarantee at every statement, and ends as described or in an
error. -/
abbrev WorkerSafe (reliance : Reliance (Database × Note)) (guarantee : Stmt → Database → Prop)
    (middle : α → Database × Note → Prop) (prog : StoreM α) (state : Database × Note) : Prop :=
  Safe sql.silent reliance (fun stmt before _ => guarantee stmt before.1) (Safe.ifOkAt middle) prog.run state

/-- What is guaranteed of every statement of a kind, a computation that issues no other guarantees. -/
theorem worker_safe_of_yields {allowed : Stmt → Prop} {result : α → Prop} {prog : StoreM α}
    (keeps : ∀ stmt, allowed stmt → ∀ db, guarantee stmt db) (yields : prog.run.Yields allowed (ifOk result))
    (state : Database × Note) : WorkerSafe reliance guarantee (fun value _ => result value) prog state := by
  apply (Safe.of_yields yields state).imp
  · exact fun stmt before _ holds => keeps stmt holds before.1
  · intro outcome later holds
    cases outcome with
    | ok value => exact holds
    | error error => trivial

/-- What the others keep, and every statement that keeps the guarantee. -/
structure Upholds (reliance : Reliance (Database × Note)) (guarantee : Stmt → Database → Prop)
    (keeps : Database × Note → Prop) : Prop where
  others : ∀ {before after}, reliance.rely before after → keeps before → keeps after
  own : ∀ {stmt : Stmt} {before after : Database × Note} {reply : Except StoreError stmt.Ret},
    guarantee stmt before.1 → sql.silent.exec stmt before reply after → keeps before → keeps after

/-- It is there after the computation, too. -/
private theorem WorkerSafe.upheld {keeps : Database × Note → Prop} {prog : StoreM α} {state : Database × Note}
    {middle : α → Database × Note → Prop} (safe : WorkerSafe reliance guarantee middle prog state)
    (upholds : Upholds reliance guarantee keeps) (start : keeps state) :
    WorkerSafe reliance guarantee (fun value later => keeps later ∧ middle value later) prog state := by
  apply (safe.uphold keeps start upholds.others upholds.own).mono
  intro outcome later holds
  cases outcome with
  | ok value => exact holds
  | error error => trivial

section Batch

variable {gate : GateParams} {fallback : Fallback} {keeps : Database × Note → Prop}
  (upholds : Upholds reliance guarantee keeps) (settles : ∀ stmt, Settling stmt → ∀ db, guarantee stmt db)
  (knows : ∀ claimed author (state : Database × Note), keeps state →
    WorkerSafe reliance guarantee (fun _ _ => True) (knownRelays gate fallback claimed author) state)

include knows in
/-- What the fallback recovers was emitted for the author. -/
private theorem fallbackRecover_safe (claimed : ClaimedAuthor) (author : PublicKey) (state : Database × Note)
    (kept : keeps state) : WorkerSafe reliance guarantee
      (fun recovered _ => ∀ vfl, recovered = some vfl → EmittedOf gate.verify gate.wantKind vfl)
      (fallbackRecover gate fallback claimed author) state := by
  rw [fallbackRecover_eq]
  apply (knows claimed author state kept).ok_bind
  intro writeRelays later _
  apply Safe.ret
  intro final _ vfl found
  obtain ⟨raw, _, member⟩ := recovered_emitted (recovered_of_recoverFrom found).2
  exact emittedOf_of_mem member

include settles

private theorem stamp_safe (claimed : ClaimedAuthor) (stamp : DateTime) (state : Database × Note) :
    WorkerSafe reliance guarantee (fun _ _ => True) (do
      setFetchStatus claimed.id .notFound stamp
      return 0 : StoreM Nat) state := by
  have issues : (setFetchStatus claimed.id .notFound stamp).run.Issues Settling := query_issues rfl
  apply (worker_safe_of_yields settles (Prog.Yields.of_issues issues) state).ok_bind
  exact fun _ _ _ => Safe.ret fun _ _ => trivial

variable (applies : ∀ vfl, EmittedOf gate.verify gate.wantKind vfl → ∀ state : Database × Note, keeps state →
  WorkerSafe reliance guarantee (fun _ _ => True) (applyValidated vfl) state)

include applies

private theorem outcome_safe (claimed : ClaimedAuthor) (stamp : DateTime) (recovered : Option ValidatedFollowList)
    (state : Database × Note) (kept : keeps state) :
    (∀ vfl, recovered = some vfl → EmittedOf gate.verify gate.wantKind vfl) →
      WorkerSafe reliance guarantee (fun _ _ => True) (match recovered with
        | some vfl => do
          let _ ← applyValidated vfl
          return 1
        | none => do
          setFetchStatus claimed.id .notFound stamp
          return 0 : StoreM Nat) state := by
  intro emitted
  cases recovered with
  | some vfl => exact (applies vfl (emitted vfl rfl) state kept).ok_bind fun _ _ _ => Safe.ret fun _ _ => trivial
  | none => exact stamp_safe settles claimed stamp state

include upholds knows

private theorem resolveAuthor_safe {byAuthor : PublicKey → Option ValidatedFollowList}
    (indexed : ∀ author vfl, byAuthor author = some vfl → EmittedOf gate.verify gate.wantKind vfl)
    (stamp : DateTime) (claimed : ClaimedAuthor) (state : Database × Note) (kept : keeps state) :
    WorkerSafe reliance guarantee (fun _ _ => True) (resolveAuthor gate fallback stamp byAuthor claimed) state := by
  unfold resolveAuthor
  split
  · exact stamp_safe settles claimed stamp state
  · rename_i author parsed
    split
    · rename_i vfl listed
      exact (applies vfl (indexed author vfl listed) state kept).ok_bind fun _ _ _ => Safe.ret fun _ _ => trivial
    · dsimp only
      split
      · apply ((fallbackRecover_safe knows claimed author state kept).upheld upholds kept).ok_bind
        exact fun recovered later held => outcome_safe settles applies claimed stamp recovered later held.1 held.2
      · exact outcome_safe settles applies claimed stamp none state kept fun _ none => by cases none

private theorem resolveAll_safe {byAuthor : PublicKey → Option ValidatedFollowList}
    (indexed : ∀ author vfl, byAuthor author = some vfl → EmittedOf gate.verify gate.wantKind vfl)
    (stamp : DateTime) (applied : Nat) (rest : List ClaimedAuthor) (state : Database × Note) (kept : keeps state) :
    WorkerSafe reliance guarantee (fun _ _ => True) (resolveAll gate fallback stamp byAuthor applied rest) state := by
  induction rest generalizing applied state with
  | nil => exact Safe.ret fun _ _ => trivial
  | cons claimed rest ih =>
    unfold resolveAll
    apply ((resolveAuthor_safe upholds settles knows applies indexed stamp claimed state kept).upheld upholds kept).ok_bind
    exact fun counted later held => ih (applied + counted) later held.1

/-- Whatever was fetched and whatever others do meanwhile, a batch guarantees at every statement what
applying a list, looking write relays up and settling an author do. -/
theorem processBatch_safe (maxAttempts : Int) (batch : List ClaimedAuthor) (unionFetch : Except RelayError (List Event))
    (state : Database × Note) (kept : keeps state) : WorkerSafe reliance guarantee (fun _ _ => True)
      (processBatch gate maxAttempts fallback batch unionFetch) state := by
  cases unionFetch with
  | error error =>
    have issues : (processBatch gate maxAttempts fallback batch (.error error)).run.Issues Settling := by
      apply (processBatch_error_issues gate maxAttempts fallback batch error).mono
      rintro stmt ⟨claimed, _, ts, rfl⟩
      trivial
    exact worker_safe_of_yields settles (Prog.Yields.of_issues issues) state
  | ok events =>
    unfold processBatch
    split
    · exact Safe.ret fun _ _ => trivial
    · refine resolveAll_safe upholds settles knows applies ?_ _ _ _ state kept
      intro author vfl found
      have listed := List.mem_reverse.mp (List.mem_of_find?_eq_some found)
      exact emittedOf_of_mem listed

end Batch

end Worker

/-- Ids are the rows of keys. -/
structure RowsOf (db : Database) (keys : List PublicKey) (ids : List Nat) : Prop where
  named : ∀ id ∈ ids, ∃ author ∈ keys, db.keyed id author.bytes
  found : ∀ author ∈ keys, ∃ id ∈ ids, db.keyed id author.bytes

theorem RowsOf.persists {before after : Database} {keys : List PublicKey} {ids : List Nat} (rows : RowsOf before keys ids)
    (persists : Persists before after) : RowsOf after keys ids where
  named := by
    intro id member
    obtain ⟨author, named, keyed⟩ := rows.named id member
    exact ⟨author, named, persists.keyed keyed⟩
  found := by
    intro author member
    obtain ⟨id, found, keyed⟩ := rows.found author member
    exact ⟨id, found, persists.keyed keyed⟩

private theorem RowsOf.cons {db : Database} {keys : List PublicKey} {ids : List Nat} {key : PublicKey} {id : Nat}
    (keyed : db.keyed id key.bytes) (rows : RowsOf db keys ids) : RowsOf db (key :: keys) (id :: ids) where
  named := List.forall_mem_cons.mpr ⟨⟨key, List.mem_cons_self .., keyed⟩, by
    intro other member
    obtain ⟨author, named, keyed⟩ := rows.named other member
    exact ⟨author, List.mem_cons_of_mem _ named, keyed⟩⟩
  found := List.forall_mem_cons.mpr ⟨⟨id, List.mem_cons_self .., keyed⟩, by
    intro author member
    obtain ⟨other, found, keyed⟩ := rows.found author member
    exact ⟨other, List.mem_cons_of_mem _ found, keyed⟩⟩

/-- What the daemon's statements guarantee, given a predicate for the events that verify: an invariant
that they keep, and what they may do to the database under those who are still running. -/
structure Contract (verify : Event → Bool) where
  holds : Database → Prop
  guarantee : Stmt → Database → Prop
  moves : Database → Database → Prop
  refl : ∀ db, moves db db
  trans : ∀ {first second third}, moves first second → moves second third → moves first third
  empty : holds Database.empty
  ranges : ∀ stmt, stmt.ranges = true → ∀ db, guarantee stmt db
  settles : ∀ stmt, Settling stmt → ∀ db, guarantee stmt db
  moved : ∀ {stmt : Stmt} {before after : Database} {reply : Except StoreError stmt.Ret} {now : DateTime}
    {locked : Finset Nat}, guarantee stmt before → stmt.Executes now locked before reply after → moves before after
  kept : ∀ {stmt : Stmt} {before after : Database} {reply : Except StoreError stmt.Ret} {now : DateTime}
    {locked : Finset Nat}, holds before → guarantee stmt before → stmt.Executes now locked before reply after → holds after
  mixed : ∀ {before stored : Database} {id : Nat} {rows : List RelayRow}, holds before → moves before stored →
    holds stored → (∀ row ∈ rows, row ∈ before.relays id ∨ row ∈ stored.relays id) → ∀ references primary,
      holds (stored.relist id rows references primary) ∧ moves stored (stored.relist id rows references primary)

namespace Contract

variable {verify : Event → Bool} (contract : Contract verify)

/-- What happens between two moments: moves that the contract allows, which keep the invariant. -/
structure Meanwhile (before after : Database) : Prop where
  moves : contract.moves before after
  keeps : contract.holds before → contract.holds after

/-- Others do what the contract allows. -/
def reliance : Reliance (Database × Note) where
  rely := fun before after => after.2 = before.2 ∧ contract.Meanwhile before.1 after.1
  refl := fun state => ⟨rfl, contract.refl state.1, id⟩
  trans := fun first second => ⟨second.1.trans first.1, contract.trans first.2.moves second.2.moves,
    fun holds => second.2.keeps (first.2.keeps holds)⟩

/-- A computation of a worker that keeps the contract. -/
abbrev Fulfills (middle : α → Database × Note → Prop) (prog : StoreM α) (state : Database × Note) : Prop :=
  WorkerSafe contract.reliance contract.guarantee middle prog state

variable {contract}

/-- A statement that keeps its guarantee. -/
private theorem Meanwhile.of_executes {stmt : Stmt} {before after : Database} {reply : Except StoreError stmt.Ret}
    (guaranteed : contract.guarantee stmt before) (executed : sql.exec stmt before reply after) :
    contract.Meanwhile before after := by
  obtain ⟨now, locked, _, executes⟩ := executed
  exact ⟨contract.moved guaranteed executes, fun holds => contract.kept holds guaranteed executes⟩

theorem Meanwhile.trans {first second third : Database} (left : contract.Meanwhile first second)
    (right : contract.Meanwhile second third) : contract.Meanwhile first third :=
  ⟨contract.trans left.moves right.moves, fun holds => right.keeps (left.keeps holds)⟩

/-- The invariant is upheld. -/
private theorem upholds (contract : Contract verify) : Upholds contract.reliance contract.guarantee
    fun state : Database × Note => contract.holds state.1 where
  others := fun moved => moved.2.keeps
  own := fun guaranteed executed => (Meanwhile.of_executes guaranteed executed.1).keeps

variable (contract)

/-- The rule of one query. -/
theorem query_fulfills {stmt : Stmt} {middle : stmt.Ret → Database × Note → Prop} {state : Database × Note}
    (guaranteed : ∀ later, contract.Meanwhile state.1 later → contract.guarantee stmt later)
    (leaves : ∀ value before after later, contract.Meanwhile state.1 before → sql.exec stmt before (.ok value) after →
      contract.Meanwhile after later → contract.Meanwhile state.1 later → middle value (later, state.2)) :
    contract.Fulfills middle (query stmt) state := by
  apply Safe.perform
  intro before reply after moved executed
  obtain ⟨executes, noted⟩ := executed
  refine ⟨guaranteed before.1 moved.2, ?_⟩
  intro later rest
  cases reply with
  | ok value =>
    have same : later.2 = state.2 := rest.1.trans (noted.trans moved.1)
    have committed := Meanwhile.of_executes (guaranteed before.1 moved.2) executes
    have leaves := leaves value before.1 after.1 later.1 moved.2 executes rest.2 (moved.2.trans (committed.trans rest.2))
    rwa [← same] at leaves
  | error error => trivial

/-- Where relay lists are looked up and replaced at will, write relays are too. -/
theorem knownRelays_fulfills {gate : GateParams} {fallback : Fallback}
    (relists : ∀ stmt, Relisting stmt → ∀ db, contract.guarantee stmt db) (claimed : ClaimedAuthor) (author : PublicKey)
    (state : Database × Note) :
    contract.Fulfills (fun _ _ => True) (knownRelays gate fallback claimed author) state := by
  have issues : (knownRelays gate fallback claimed author).run.Issues fun stmt => ∀ db, contract.guarantee stmt db := by
    apply knownRelays_issues
    · exact contract.settles (.upsertPubkey author.bytes) ⟨author, rfl⟩
    · exact fun id => relists (.selectWriteRelays id) trivial
    · exact fun id relays seenAt => relists (.replaceRelays id relays seenAt) trivial
  exact worker_safe_of_yields (fun _ guaranteed => guaranteed) (Prog.Yields.of_issues issues) state

section Upserts

variable (persists : ∀ {before after : Database}, contract.moves before after → Persists before after)

include persists

/-- An author's key has a row from then on. -/
theorem upsertPubkey_fulfills (author : PublicKey) (state : Database × Note) :
    contract.Fulfills (fun id later => contract.Meanwhile state.1 later.1 ∧ later.1.keyed id author.bytes)
      (upsertPubkey author.bytes) state := by
  have wide : ¬ author.bytes.length ≠ pubkeyLen := not_not_intro author.width
  rw [upsertPubkey, if_neg wide]
  apply contract.query_fulfills
  · exact fun later _ => contract.settles (.upsertPubkey author.bytes) ⟨author, rfl⟩ later
  · intro id before after later _ executed rest moved
    obtain ⟨now, locked, _, replied, rfl⟩ := executed
    obtain rfl := Except.ok.inj replied
    exact ⟨moved, (persists rest.moves).keyed (before.upsert_spec author.bytes).1⟩

/-- And so has every key of a list. -/
theorem upsertAll_fulfills (keys : List PublicKey) (state : Database × Note) :
    contract.Fulfills (fun ids later => contract.Meanwhile state.1 later.1 ∧ RowsOf later.1 keys ids)
      (upsertAll keys) state := by
  induction keys generalizing state with
  | nil => exact Safe.ret fun later moved => ⟨moved.2, ⟨(fun _ none => by cases none), (fun _ none => by cases none)⟩⟩
  | cons key rest ih =>
    unfold upsertAll
    apply (contract.upsertPubkey_fulfills persists key state).ok_bind
    intro id later first
    apply (ih later).ok_bind
    intro ids last known
    apply Safe.ret
    intro final moved
    have rows := known.2.cons ((persists known.1.moves).keyed first.2)
    exact ⟨first.1.trans (known.1.trans moved.2), rows.persists (persists moved.2.moves)⟩

end Upserts

variable {anchor : Bytes} {workers next : Workers}

/-- The parts of a worker that keep the contract: it applies a list that was emitted, and looks the write
relays of an author up. -/
structure Fulfilled (contract : Contract verify) : Prop where
  applies : ∀ vfl, EmittedOf verify Kind.contactList vfl → ∀ state : Database × List ClaimedAuthor,
    contract.holds state.1 → contract.Fulfills (fun _ _ => True) (applyValidated vfl) state
  knows : ∀ gate fallback claimed author, gate.verify = verify → ∀ state : Database × List ClaimedAuthor,
    contract.holds state.1 → contract.Fulfills (fun _ _ => True) (knownRelays gate fallback claimed author) state

/-- What holds of the daemon throughout: the invariant, and that its workers keep the contract. -/
structure Kept (contract : Contract verify) (workers : Workers) : Prop where
  holds : contract.holds workers.shared
  guarded : workers.Guarded sql.silent contract.reliance (fun stmt before _ => contract.guarantee stmt before.1)
    (Safe.ifOkAt fun _ _ => True)

theorem Kept.empty (contract : Contract verify) : contract.Kept ⟨Database.empty, []⟩ where
  holds := contract.empty
  guarded := fun index task found => by cases found

variable {contract}

/-- The daemon's own statements. -/
private theorem Kept.upkeep {prog : Prog Sql α} {result : α} {left : Database} (kept : contract.Kept workers)
    (issues : prog.Issues fun stmt => ∀ db, contract.guarantee stmt db) (run : Runs sql prog workers.shared result left) :
    contract.Kept (workers.disturb left) ∧ contract.moves workers.shared left := by
  have left : contract.Meanwhile workers.shared left :=
    issues.preserves run (fun guaranteed executed held => held.trans (.of_executes (guaranteed _) executed))
      ⟨contract.refl _, id⟩
  exact ⟨⟨left.keeps kept.holds, kept.guarded.disturb fun _ _ _ => ⟨rfl, left⟩⟩, left.moves⟩

/-- The statements of a worker. -/
private theorem Kept.calls {note noted : List ClaimedAuthor} (kept : contract.Kept workers)
    (step : workers.Calls sql.silent index stmt note noted next) :
    contract.Kept next ∧ contract.moves workers.shared next.shared := by
  obtain ⟨reply, executed, _⟩ := step.executed
  have committed := Meanwhile.of_executes (kept.guarded.keeps step) executed
  exact ⟨⟨committed.keeps kept.holds, kept.guarded.calls step fun _ _ _ _ => ⟨rfl, committed⟩⟩, committed.moves⟩

variable (fulfilled : contract.Fulfilled)

include fulfilled

/-- Every step of the daemon keeps the contract, if its workers do. -/
theorem Kept.step (kept : contract.Kept workers) (step : DaemonStep verify anchor workers next) :
    contract.Kept next ∧ contract.moves workers.shared next.shared := by
  cases step with
  | seed executed =>
    have issues : (seedAnchor anchor).run.Issues fun stmt => ∀ db, contract.guarantee stmt db := by
      unfold seedAnchor upsertPubkey
      split
      · trivial
      · rename_i wide
        exact query_issues (contract.settles _ ⟨⟨anchor, not_not.mp wide⟩, rfl⟩)
    exact kept.upkeep issues executed
  | claim executed =>
    obtain ⟨claimed, moves⟩ := kept.upkeep (query_issues (contract.ranges _ rfl)) executed
    refine ⟨⟨claimed.holds, claimed.guarded.spawn ?_⟩, moves⟩
    refine processBatch_safe contract.upholds contract.settles ?_ fulfilled.applies _ _ _ _ claimed.holds
    exact fun claimed author => fulfilled.knows _ _ claimed author rfl
  | sweep ranges executed => exact kept.upkeep (query_issues (contract.ranges _ ranges)) (.call executed .ret)
  | work step => exact kept.calls step
  | overlap step mixed references primary =>
    obtain ⟨called, moves⟩ := kept.calls step
    obtain ⟨holds, relists⟩ := contract.mixed kept.holds moves called.holds mixed references primary
    have relisted : contract.Meanwhile _ _ := ⟨relists, fun _ => holds⟩
    exact ⟨⟨holds, called.guarded.disturb fun _ _ _ => ⟨rfl, relisted⟩⟩, contract.trans moves relists⟩
  | die index error => exact ⟨⟨kept.holds, kept.guarded.drop fun _ => trivial⟩, contract.refl _⟩
  | crash => exact ⟨⟨kept.holds, fun index task found => by cases found⟩, contract.refl _⟩

/-- And so does every run. -/
theorem Kept.run (kept : contract.Kept workers) (run : Relation.ReflTransGen (DaemonStep verify anchor) workers next) :
    contract.Kept next ∧ contract.moves workers.shared next.shared := by
  induction run with
  | refl => exact ⟨kept, contract.refl _⟩
  | tail _ step ih =>
    obtain ⟨later, moves⟩ := ih.1.step fulfilled step
    exact ⟨later, contract.trans ih.2 moves⟩

end Contract

end WotCrawler.Crawl
