import WotCrawler.Crawl.Fencing
import WotCrawler.Crawl.Recover
import WotCrawler.Effect.Pool
import WotCrawler.Store.Relays

/-! Where rows come from: whatever the relays return, a key becomes a row only as the anchor or
through a verified follow list of an author that is a row already. -/

namespace WotCrawler.Crawl

open Effect Store Ingest Relay

/-- A verified list of the event's kind names the key. -/
structure Names (verify : Event → Bool) (kind : Kind) (event : Event) (key : Bytes) : Prop where
  verified : verify event = true
  kind : event.kind = kind
  tagged : ∃ followee ∈ publicKeys event.tags, followee.bytes = key

/-- The keys a batch may upsert: its own, and those that a verified list of its authors names. -/
def Vouched (verify : Event → Bool) (kind : Kind) (batch : List ClaimedAuthor) (key : Bytes) : Prop :=
  (∃ claimed ∈ batch, claimed.pubkey = key) ∨
    ∃ event, Names verify kind event key ∧ ∃ claimed ∈ batch, claimed.pubkey = event.pubkey.bytes

/-- A statement that inserts vouched keys only, and claims nothing. -/
def UpsertsVouched (verify : Event → Bool) (kind : Kind) (batch : List ClaimedAuthor) (stmt : Stmt) : Prop :=
  ∀ key, stmt = .upsertPubkey key → Vouched verify kind batch key

/-- A list as the gate emits it for an author: its event verifies and names every followee. -/
def Genuine (verify : Event → Bool) (kind : Kind) (author : PublicKey) (vfl : ValidatedFollowList) : Prop :=
  vfl.followerPubkey = author ∧ ∃ event, event.pubkey = author ∧
    ∀ followee ∈ vfl.followeePubkeys, Names verify kind event followee.bytes

section Batch

variable {gate : GateParams} {fallback : Fallback} {batch : List ClaimedAuthor} {claimed : ClaimedAuthor}
  {author : PublicKey}

/-- The statements that resolve the authors of a batch. -/
private abbrev vouching (gate : GateParams) (batch : List ClaimedAuthor) : Stmt → Prop :=
  ResolveStmt (Vouched gate.verify gate.wantKind batch)

private theorem emitted_genuine {lists : List ValidatedFollowList} {vfl : ValidatedFollowList}
    (acquired : gate.acquire requested fetched = .ok lists) (member : vfl ∈ lists) :
    Genuine gate.verify gate.wantKind vfl.followerPubkey vfl := by
  cases fetched with
  | error error => cases acquired
  | ok events =>
    obtain rfl := Except.ok.inj acquired
    obtain ⟨winner, followees, _, verified, kind, _, extracted, rfl⟩ := exists_of_mem_ingestEvents member
    refine ⟨rfl, winner, rfl, ?_⟩
    intro followee listed
    obtain ⟨_, same, _⟩ := followeePubkeys_spec extracted
    have named : followee ∈ followeeSet winner := same ▸ List.mem_toFinset.mpr listed
    exact ⟨verified, kind, followee, List.mem_toFinset.mp (Finset.mem_of_mem_erase named), rfl⟩

/-- Applying a genuine list of a claimed author upserts vouched keys only. -/
private theorem applyGenuine_issues {vfl : ValidatedFollowList} (member : claimed ∈ batch)
    (key : author.bytes = claimed.pubkey) (genuine : Genuine gate.verify gate.wantKind author vfl) :
    (applyValidated vfl).run.Issues (vouching gate batch) := by
  obtain ⟨rfl, event, owner, names⟩ := genuine
  have followees (followee : PublicKey) (listed : followee ∈ vfl.followeePubkeys) :
      Vouched gate.verify gate.wantKind batch followee.bytes :=
    .inr ⟨event, names followee listed, claimed, member, by rw [owner, key]⟩
  have issues : (applyValidated vfl).run.Issues (ApplyStmt (Vouched gate.verify gate.wantKind batch)) :=
    applyValidated_issues applyStmt_permits (.inl ⟨claimed, member, key.symm⟩) followees
  exact issues.mono fun _ applies => applies.resolve

/-- A recovered list is its author's. -/
theorem fallbackRecover_yields (member : claimed ∈ batch) (key : author.bytes = claimed.pubkey) :
    (fallbackRecover gate fallback claimed author).run.Yields
      (ResolveStmt (Vouched gate.verify gate.wantKind batch))
      (ifOk fun recovered => ∀ vfl, recovered = some vfl → Genuine gate.verify gate.wantKind author vfl) := by
  apply fallbackRecover_recovers
  · exact .inl ⟨claimed, member, key.symm⟩
  · exact fun id => trivial
  · exact fun id relays seenAt => trivial
  · intro raw vfl emitted
    have mine := Finset.mem_singleton.mp (follower_mem_requested emitted)
    have acquired : gate.acquire {author} (.ok raw) = .ok _ := rfl
    exact mine ▸ emitted_genuine acquired emitted

private theorem miss_issues : (do
      setFetchStatus claimed.id .notFound stamp
      return 0 : StoreM Nat).run.Issues (vouching gate batch) := by
  have stamped : (setFetchStatus claimed.id .notFound stamp).run.Issues (vouching gate batch) :=
    query_issues rfl
  exact stamped.except_bind fun _ => trivial

/-- The outcome of an author, once its list is known to be genuine or missing. -/
private theorem outcome_issues (member : claimed ∈ batch) (key : author.bytes = claimed.pubkey)
    (recovered : Option ValidatedFollowList) :
    (∀ vfl, recovered = some vfl → Genuine gate.verify gate.wantKind author vfl) →
      (match recovered with
        | some vfl => do
          let _ ← applyValidated vfl
          return 1
        | none => do
          setFetchStatus claimed.id .notFound stamp
          return 0 : StoreM Nat).run.Issues (vouching gate batch) := by
  intro genuine
  cases recovered with
  | some vfl => exact (applyGenuine_issues member key (genuine vfl rfl)).except_bind fun _ => trivial
  | none => exact miss_issues

private theorem resolveAuthor_issues {byAuthor : PublicKey → Option ValidatedFollowList}
    (indexed : ∀ author vfl, byAuthor author = some vfl → Genuine gate.verify gate.wantKind author vfl)
    (member : claimed ∈ batch) :
    (resolveAuthor gate fallback stamp byAuthor claimed).run.Issues (vouching gate batch) := by
  unfold resolveAuthor
  split
  · exact miss_issues
  · rename_i author parsed
    have key := PublicKey.fromSlice_eq_some_iff.mp parsed
    split
    · rename_i vfl listed
      exact (applyGenuine_issues member key (indexed author vfl listed)).except_bind fun _ => trivial
    · dsimp only
      split
      · apply ((fallbackRecover_yields member key).except_bind _).issues
        · exact fun _ => True
        · intro recovered genuine
          exact Prog.Yields.of_issues (outcome_issues member key recovered genuine)
      · exact outcome_issues member key none (fun _ none => by cases none)

private theorem resolveAll_issues {byAuthor : PublicKey → Option ValidatedFollowList}
    (indexed : ∀ author vfl, byAuthor author = some vfl → Genuine gate.verify gate.wantKind author vfl)
    (applied : Nat) (rest : List ClaimedAuthor) (inside : rest ⊆ batch) :
    (resolveAll gate fallback stamp byAuthor applied rest).run.Issues (vouching gate batch) := by
  induction rest generalizing applied with
  | nil => trivial
  | cons claimed rest ih =>
    unfold resolveAll
    apply (resolveAuthor_issues indexed (inside (List.mem_cons_self ..))).except_bind
    intro counted
    exact ih (applied + counted) fun other member => inside (List.mem_cons_of_mem _ member)

/-- Whatever was fetched and whatever the store replies, a batch whose fetch succeeded resolves its
authors, and upserts vouched keys only. -/
theorem processBatch_ok_issues (gate : GateParams) (maxAttempts : Int) (fallback : Fallback)
    (batch : List ClaimedAuthor) (events : List Event) :
    (processBatch gate maxAttempts fallback batch (.ok events)).run.Issues
      (ResolveStmt (Vouched gate.verify gate.wantKind batch)) := by
  unfold processBatch
  split
  · trivial
  · apply resolveAll_issues _ 0 batch (List.Subset.refl batch)
    intro author vfl found
    have same : vfl.followerPubkey = author := by simpa using List.find?_some found
    have listed := List.mem_reverse.mp (List.mem_of_find?_eq_some found)
    have acquired : gate.acquire (requestedAuthors batch).toFinset (.ok events) = .ok _ := rfl
    exact same ▸ emitted_genuine acquired listed

/-- Every batch upserts vouched keys only. -/
theorem processBatch_issues (gate : GateParams) (maxAttempts : Int) (fallback : Fallback)
    (batch : List ClaimedAuthor) (unionFetch : Except RelayError (List Event)) :
    (processBatch gate maxAttempts fallback batch unionFetch).run.Issues
      (UpsertsVouched gate.verify gate.wantKind batch) := by
  cases unionFetch with
  | error error =>
    apply (processBatch_error_issues gate maxAttempts fallback batch error).mono
    rintro stmt ⟨claimed, member, ts, rfl⟩ key same
    cases same
  | ok events =>
    apply (processBatch_ok_issues gate maxAttempts fallback batch events).mono
    rintro stmt resolves key rfl
    exact resolves

end Batch

/-- The workers of the daemon, each with the batch it claimed, and the database. -/
abbrev Workers := Pool Sql Database (List ClaimedAuthor) (Except StoreError Nat)

/-- One step of the daemon, whatever its relays return: the anchor is seeded, a batch is claimed
and handed to a worker, a sweep or an abandoned claim runs, a worker makes its next statement or
dies, or everything crashes. A replacement of relays that overlaps another of the same pubkey does not
see what that has committed, and leaves rows of both. -/
inductive DaemonStep (verify : Event → Bool) (anchor : Bytes) : Workers → Workers → Prop where
  | seed (executed : Runs sql (seedAnchor anchor).run workers.shared reply left) :
      DaemonStep verify anchor workers (workers.disturb left)
  | claim (executed : Runs sql (claimBatch limit).run workers.shared (.ok batch) left) :
      DaemonStep verify anchor workers ((workers.disturb left).spawn ⟨batch, (processBatch
        ⟨verify, Kind.contactList, now, futureClampSecs, followCap⟩ maxAttempts fallback batch
        unionFetch).run⟩)
  | sweep (ranges : stmt.ranges = true) (executed : sql.exec stmt workers.shared reply left) :
      DaemonStep verify anchor workers (workers.disturb left)
  | work (step : workers.Calls sql.silent index stmt note noted after) : DaemonStep verify anchor workers after
  | overlap (step : workers.Calls sql.silent index (.replaceRelays pubkeyId relays seenAt) note noted after)
      (mixed : ∀ row ∈ rows, row ∈ workers.shared.relays pubkeyId ∨ row ∈ after.shared.relays pubkeyId)
      (references : rows ≠ [] → (after.shared.rows pubkeyId).isSome) (primary : (rows.map RelayRow.url).Nodup) :
      DaemonStep verify anchor workers (after.disturb (after.shared.relist pubkeyId rows references primary))
  | die (index : Nat) (error : StoreError) : DaemonStep verify anchor workers (workers.drop index [] (.error error))
  | crash : DaemonStep verify anchor workers ⟨workers.shared, []⟩

/-- A key linked to the anchor by verified follow lists. -/
inductive Linked (verify : Event → Bool) (anchor : Bytes) : Bytes → Prop where
  | anchor : Linked verify anchor anchor
  | followed (author : Linked verify anchor event.pubkey.bytes)
      (names : Names verify Kind.contactList event key) : Linked verify anchor key

/-- A key is a row. -/
def Stored (db : Database) (key : Bytes) : Prop := ∃ id, db.keyed id key

section Daemon

variable {verify : Event → Bool} {anchor : Bytes} {workers after : Workers}

/-- The key became a row as the anchor, or an author that was a row named it in a verified list. -/
def Introduced (verify : Event → Bool) (anchor : Bytes) (db : Database) (key : Bytes) : Prop :=
  key = anchor ∨ ∃ event, Names verify Kind.contactList event key ∧ Stored db event.pubkey.bytes

/-- What holds of the workers throughout: their statements are vouched by their batches, whose
authors are rows. -/
structure Accountable (verify : Event → Bool) (workers : Workers) : Prop where
  restricted : workers.Restricted (UpsertsVouched verify Kind.contactList)
  rows : ∀ (index : Nat) (task : Task Sql (List ClaimedAuthor) (Except StoreError Nat)),
    workers.tasks[index]? = some task → ∀ claimed ∈ task.note, Stored workers.shared claimed.pubkey

/-- A statement's new rows carry the key it upserts. -/
private theorem introduced_upsert {stmt : Stmt} {before left : Database} {key : Bytes}
    (framed : Framed stmt before left) (absent : ¬ Stored before key)
    (present : Stored left key) : stmt = .upsertPubkey key := by
  obtain ⟨id, columns, found⟩ := present
  cases old : before.rows id with
  | none => exact (framed.fresh id _ old found).1
  | some row =>
    exfalso
    have known := Database.keyed_of_row old
    have same := Database.keyed_key (framed.persists.keyed known) ⟨columns, found⟩
    exact absent ⟨id, same ▸ known⟩

private theorem seedAnchor_spec {before left : Database}
    (executed : Runs sql (seedAnchor anchor).run before reply left) :
    Persists before left ∧ ∀ key, ¬ Stored before key → Stored left key → key = anchor := by
  unfold seedAnchor upsertPubkey at executed
  split at executed
  · obtain ⟨_, rfl⟩ := runs_ret_iff.mp executed
    exact ⟨.refl _, fun key absent present => absurd present absent⟩
  · obtain ⟨answer, between, ⟨now, locked, _, executes⟩, rest⟩ := runs_call_iff.mp executed
    obtain ⟨_, rfl⟩ := runs_ret_iff.mp rest
    have framed := executes.framed
    refine ⟨framed.persists, ?_⟩
    intro key absent present
    exact (Stmt.upsertPubkey.inj (introduced_upsert framed absent present)).symm

private theorem claimBatch_spec {before left : Database}
    (executed : Runs sql (claimBatch limit).run before reply left) :
    ∃ now locked, Stmt.Executes now locked (.claim limit) before reply left := by
  obtain ⟨answer, between, ⟨now, locked, _, executes⟩, rest⟩ := runs_call_iff.mp executed
  obtain ⟨rfl, rfl⟩ := runs_ret_iff.mp rest
  exact ⟨now, locked, executes⟩

/-- A worker's statement keeps the rows, and introduces what a list of an author names. -/
private theorem Accountable.introduces {note noted : List ClaimedAuthor} (accountable : Accountable verify workers)
    (step : workers.Calls sql.silent index stmt note noted after) :
    Persists workers.shared after.shared ∧ ∀ key, ¬ Stored workers.shared key → Stored after.shared key →
      ∃ event, Names verify Kind.contactList event key ∧ Stored workers.shared event.pubkey.bytes := by
  obtain ⟨reply, ⟨now, locked, _, executes⟩, _⟩ := step.executed
  refine ⟨executes.framed.persists, ?_⟩
  intro key absent present
  have vouched := accountable.restricted.keeps step key (introduced_upsert executes.framed absent present)
  obtain ⟨next, found⟩ := step.found
  have row := accountable.rows _ _ found
  cases vouched with
  | inl own =>
    obtain ⟨claimed, member, rfl⟩ := own
    exact absurd (row claimed member) absent
  | inr named =>
    obtain ⟨event, names, claimed, member, same⟩ := named
    exact ⟨event, names, same ▸ row claimed member⟩

/-- Every step keeps the rows, and introduces a key only with a reason. -/
theorem DaemonStep.introduces (step : DaemonStep verify anchor workers after)
    (accountable : Accountable verify workers) :
    Persists workers.shared after.shared ∧ ∀ key, ¬ Stored workers.shared key →
      Stored after.shared key → Introduced verify anchor workers.shared key := by
  cases step with
  | seed executed =>
    obtain ⟨persists, only⟩ := seedAnchor_spec executed
    exact ⟨persists, fun key absent present => .inl (only key absent present)⟩
  | claim executed =>
    obtain ⟨now, locked, executes⟩ := claimBatch_spec executed
    refine ⟨executes.framed.persists, ?_⟩
    intro key absent present
    cases introduced_upsert executes.framed absent present
  | sweep ranges executed =>
    obtain ⟨now, locked, _, executes⟩ := executed
    refine ⟨executes.framed.persists, ?_⟩
    intro key absent present
    have upserts := introduced_upsert executes.framed absent present
    rw [upserts] at ranges
    cases ranges
  | work step =>
    obtain ⟨persists, named⟩ := accountable.introduces step
    exact ⟨persists, fun key absent present => .inr (named key absent present)⟩
  | overlap step =>
    obtain ⟨persists, named⟩ := accountable.introduces step
    exact ⟨persists, fun key absent present => .inr (named key absent present)⟩
  | die index error => exact ⟨.refl _, fun key absent present => absurd present absent⟩
  | crash => exact ⟨.refl _, fun key absent present => absurd present absent⟩

private theorem stored_persists {before left : Database} (persists : Persists before left) {key : Bytes}
    (present : Stored before key) : Stored left key := by
  obtain ⟨id, keyed⟩ := present
  exact ⟨id, persists.keyed keyed⟩

private theorem Accountable.disturb {left : Database} (accountable : Accountable verify workers)
    (persists : Persists workers.shared left) : Accountable verify (workers.disturb left) where
  restricted := accountable.restricted
  rows := fun index task found claimed member =>
    stored_persists persists (accountable.rows index task found claimed member)

/-- A worker's statement keeps the workers accountable. -/
private theorem Accountable.calls {note noted : List ClaimedAuthor} (accountable : Accountable verify workers)
    (step : workers.Calls sql.silent index stmt note noted after) : Accountable verify after := by
  obtain ⟨next, found⟩ := step.found
  obtain ⟨reply, ⟨now, locked, _, executes⟩, kept⟩ := step.executed
  have same : noted = note := kept
  have persists := executes.framed.persists
  refine ⟨accountable.restricted.calls step (fun _ kind => same ▸ kind), ?_⟩
  intro other task present claimed member
  cases step.tasks present with
  | inl called =>
    rw [called.2, same] at member
    exact stored_persists persists (accountable.rows _ _ found claimed member)
  | inr old => exact stored_persists persists (accountable.rows other task old.2 claimed member)

/-- Every step keeps the workers accountable. -/
theorem Accountable.step (accountable : Accountable verify workers)
    (step : DaemonStep verify anchor workers after) : Accountable verify after := by
  have persists := (step.introduces accountable).1
  cases step with
  | seed executed => exact accountable.disturb persists
  | claim executed =>
    have kept := accountable.disturb persists
    refine ⟨?_, ?_⟩
    · apply kept.restricted.spawn
      exact processBatch_issues ⟨verify, Kind.contactList, _, _, _⟩ _ _ _ _
    · intro index task found claimed member
      cases Pool.spawn_tasks found with
      | inl old => exact kept.rows index task old claimed member
      | inr new =>
        obtain ⟨_, rfl⟩ := new
        obtain ⟨now, locked, executes⟩ := claimBatch_spec executed
        obtain ⟨_, discovered, _⟩ := claim_spec executes
        obtain ⟨row, present, key, _⟩ := discovered claimed member
        have known := persists.keyed (Database.keyed_of_row present)
        exact ⟨claimed.id, key ▸ known⟩
  | sweep ranges executed => exact accountable.disturb persists
  | work step => exact accountable.calls step
  | overlap step => exact (accountable.calls step).disturb (.refl _)
  | die index error =>
    refine ⟨accountable.restricted.drop, ?_⟩
    intro other task present claimed member
    cases Pool.drop_tasks present with
    | inl dropped =>
      rw [dropped] at member
      cases member
    | inr old => exact accountable.rows other task old.2 claimed member
  | crash => exact ⟨(fun _ _ none => by cases none), (fun _ _ none => by cases none)⟩

/-- Structural reachability: however the daemon runs and whatever its relays return, every row is
linked to the anchor by verified follow lists, and the next step can insert only the anchor or a
key that a verified list of an existing row names. -/
theorem rows_linked
    (run : Relation.ReflTransGen (DaemonStep verify anchor) ⟨Database.empty, []⟩ workers) :
    (∀ key, Stored workers.shared key → Linked verify anchor key) ∧
      ∀ after, DaemonStep verify anchor workers after → ∀ key, ¬ Stored workers.shared key →
        Stored after.shared key → Introduced verify anchor workers.shared key := by
  have reached : Accountable verify workers ∧
      ∀ key, Stored workers.shared key → Linked verify anchor key := by
    induction run with
    | refl =>
      refine ⟨⟨(fun _ _ none => by cases none), (fun _ _ none => by cases none)⟩, ?_⟩
      rintro key ⟨id, columns, none⟩
      cases none
    | @tail between next run step ih =>
      refine ⟨ih.1.step step, ?_⟩
      intro key present
      by_cases old : Stored between.shared key
      · exact ih.2 key old
      · cases (step.introduces ih.1).2 key old present with
        | inl same => exact same ▸ .anchor
        | inr named =>
          obtain ⟨event, names, author⟩ := named
          exact .followed (ih.2 _ author) names
  exact ⟨reached.2, fun after step => (step.introduces reached.1).2⟩

/-- An empty database takes its anchor. -/
theorem seeds_empty : Runs sql (seedAnchor sampleAuthor.bytes).run Database.empty (.ok 1) Fleet.oneRow := by
  have wide : ¬ sampleAuthor.bytes.length ≠ pubkeyLen := not_not_intro sampleAuthor.width
  rw [seedAnchor, upsertPubkey, if_neg wide]
  exact .call oneRow_upserts .ret

/-- An author whose list names one other, who has none. -/
def trailFollowee : PublicKey := ⟨List.replicate 32 2, rfl⟩

def trailEvent : Event := { sampleEvent 1 20 "" with tags := [.publicKey trailFollowee] }

theorem trail_verified {left right : Event} (first : decide (left = trailEvent) = true)
    (second : decide (right = trailEvent) = true) : left = right :=
  (of_decide_eq_true first).trans (of_decide_eq_true second).symm

def trailVerifier : Verifier where
  verify := fun event => event = trailEvent
  pubkey_eq := fun first second _ => congrArg Event.pubkey (trail_verified first second)
  kind_eq := fun first second _ => congrArg Event.kind (trail_verified first second)
  createdAt_eq := fun first second _ => congrArg Event.createdAt (trail_verified first second)
  tags_eq := fun first second _ => congrArg Event.tags (trail_verified first second)

def trailGate : GateParams := ⟨trailVerifier.verify, Kind.contactList, 100, 0, 10⟩

/-- The worker to whom the relays return that list. -/
def trailWorker : Prog Sql (Except StoreError Nat) :=
  (processBatch trailGate 3 noOpFallback [Fleet.soleAuthor] (.ok [trailEvent])).run

/-- The followee has a row. The id that the author's own upsert draws is skipped. -/
def trailNamed : Database := (claimedRow.skipId.upsert trailFollowee.bytes).2

/-- The list is applied. -/
def trailCharted : Database :=
  ((trailNamed.insertFollow 1 3).toOption.getD trailNamed).updateRow 1
    (Columns.apply 0 trailEvent.id.bytes (timestampToDatetime trailEvent.createdAt) true)

theorem trail_upserts_author : sql.exec (.upsertPubkey sampleAuthor.bytes) claimedRow (.ok 1) claimedRow.skipId :=
  ⟨0, ∅, trivial, by decide, rfl⟩

theorem trail_upserts_followee : sql.exec (.upsertPubkey trailFollowee.bytes) claimedRow.skipId (.ok 3) trailNamed :=
  ⟨0, ∅, trivial, by decide, rfl⟩

theorem trail_unapplied : sql.exec (.selectAppliedEvent 1) trailNamed (.ok none) trailNamed :=
  ⟨0, ∅, trivial, rfl, by decide⟩

theorem trail_edgeless : sql.exec (.selectFollowees 1) trailNamed (.ok []) trailNamed := by
  refine ⟨0, ∅, trivial, rfl, [], rfl, List.nodup_nil, ?_⟩
  have none : trailNamed.follows = ∅ := rfl
  simp [none]

theorem trail_applies : sql.exec (.applyDiff 1 [] [3] trailEvent.id.bytes (timestampToDatetime trailEvent.createdAt) true)
    trailNamed (.ok ()) trailCharted :=
  ⟨0, ∅, trivial, rfl, rfl⟩

theorem trailWorker_runs : Runs sql trailWorker claimedRow (.ok 1) trailCharted :=
  .call trail_upserts_author (.call trail_upserts_followee (.call trail_unapplied (.call trail_edgeless
    (.call trail_applies .ret))))

/-- The daemon when that worker starts, and when it has returned. -/
def trailStarted : Workers := ⟨claimedRow, [⟨[Fleet.soleAuthor], trailWorker⟩]⟩

def trailWorkers : Workers := ⟨trailCharted, [⟨[Fleet.soleAuthor], .ret (.ok 1)⟩]⟩

theorem trail_claimed : Relation.ReflTransGen (DaemonStep trailVerifier.verify sampleAuthor.bytes) ⟨Database.empty, []⟩
    trailStarted := by
  have seeded : DaemonStep trailVerifier.verify sampleAuthor.bytes ⟨Database.empty, []⟩ ⟨Fleet.oneRow, []⟩ :=
    .seed seeds_empty
  exact (Relation.ReflTransGen.single seeded).tail (.claim (.call oneRow_claims .ret))

/-- What workers do, the daemon does. -/
theorem works_of_calls (calls : Relation.ReflTransGen (fun before after => ∃ stmt note noted,
      Pool.Calls sql.silent before index stmt note noted after) workers after) :
    Relation.ReflTransGen (DaemonStep verify anchor) workers after := by
  refine Relation.ReflTransGen.mono ?_ _ _ calls
  rintro before after ⟨stmt, note, noted, call⟩
  exact .work call

theorem trail_worked : Relation.ReflTransGen (DaemonStep trailVerifier.verify sampleAuthor.bytes) trailStarted
    trailWorkers := by
  have found : trailStarted.tasks[0]? = some ⟨[Fleet.soleAuthor], trailWorker⟩ := rfl
  exact works_of_calls (Pool.runs_calls (trailWorker_runs.silent [Fleet.soleAuthor]) found)

theorem trail_run : Relation.ReflTransGen (DaemonStep trailVerifier.verify sampleAuthor.bytes) ⟨Database.empty, []⟩
    trailWorkers := trail_claimed.trans trail_worked

/-- The theorem at that run, by which the followee has become a row. -/
theorem rows_linked_trail : Stored trailWorkers.shared trailFollowee.bytes ∧
    (∀ key, Stored trailWorkers.shared key → Linked trailVerifier.verify sampleAuthor.bytes key) ∧
      ∀ after, DaemonStep trailVerifier.verify sampleAuthor.bytes trailWorkers after → ∀ key,
        ¬ Stored trailWorkers.shared key → Stored after.shared key →
        Introduced trailVerifier.verify sampleAuthor.bytes trailWorkers.shared key := by
  have found : trailCharted.rows 3 = some ⟨trailFollowee.bytes, Columns.default⟩ := by decide
  exact ⟨⟨3, _, found⟩, rows_linked trail_run⟩

end Daemon

end WotCrawler.Crawl
