import WotCrawler.Crawl.Authenticity
import WotCrawler.Crawl.Custody
import WotCrawler.Crawl.Fencing
import WotCrawler.Crawl.Strict
import WotCrawler.Store.Relays

/-! The daemon never trips over its own schema: whatever the relays return and however the statements
interleave, a worker's statement meets the constraints of the tables when its turn comes. -/

namespace WotCrawler.Crawl

open Effect Store Ingest Relay

/-- What the keys and checks of the tables ask of a statement: that the rows it names are there, and that no
edge leads from a row to itself. -/
def Meets (stmt : Stmt) (db : Database) : Prop :=
  match stmt with
  | .selectAppliedEvent follower => (db.rows follower).isSome
  | .applyDiff follower _ added _ _ _ => (db.rows follower).isSome ∧
      ∀ followee ∈ added, follower ≠ followee ∧ (db.rows followee).isSome
  | .replaceRelays pubkeyId _ _ => (db.rows pubkeyId).isSome
  | _ => True

/-- A requeue at the end of the range of `fetch_attempts`, a `SMALLINT`. -/
def Overflows (stmt : Stmt) (db : Database) : Prop :=
  ∃ id maxAttempts ts row, stmt = .requeueOrFail id maxAttempts ts ∧ db.rows id = some row ∧
    32767 ≤ row.columns.fetchAttempts

variable {verify : Event → Bool} {before after db : Database} {stmt : Stmt} {id : Nat}

theorem isSome_of_keyed {key : Bytes} (keyed : db.keyed id key) : (db.rows id).isSome := by
  obtain ⟨columns, found⟩ := keyed
  rw [found]
  rfl

theorem isSome_persists (persists : Persists before after) (present : (before.rows id).isSome) :
    (after.rows id).isSome := by
  obtain ⟨row, found⟩ := Option.isSome_iff_exists.mp present
  exact isSome_of_keyed (persists.keyed (Database.keyed_of_row found))

section Statement

private theorem commits_answer {done : Except StoreError Database} {reply : Except StoreError Unit}
    (isOk : ∃ next, done = .ok next) (commits : Commits done before reply after) : ∃ value, reply = .ok value := by
  obtain ⟨next, rfl⟩ := isOk
  exact ⟨(), commits.1⟩

/-- A statement that meets the constraints answers, but for the overflow. -/
theorem Meets.answers {locked : Finset Nat} {reply : Except StoreError stmt.Ret} (meets : Meets stmt before)
    (single : stmt.ranges = false) (executes : stmt.Executes now locked before reply after) :
    Answers stmt reply ∨ Overflows stmt before := by
  cases stmt with
  | selectAppliedEvent follower =>
    left
    obtain ⟨row, found⟩ := Option.isSome_iff_exists.mp meets
    simp only [Stmt.Executes, found] at executes
    exact ⟨_, executes.2⟩
  | confirmFetched target => exact .inl ⟨_, executes.1⟩
  | selectFollowees follower =>
    obtain ⟨_, rows, replied, _⟩ := executes
    exact .inl ⟨_, replied⟩
  | applyDiff follower removed added eventId createdAt changed =>
    exact .inl (commits_answer (Database.applyDiff_isOk meets.1 meets.2) executes)
  | upsertPubkey pubkey => exact .inl ⟨_, executes.1⟩
  | updateStatus target status ts => exact .inl ⟨_, executes.1⟩
  | requeueOrFail target maxAttempts ts =>
    simp only [Stmt.Executes] at executes
    split at executes
    · rename_i full
      right
      simp only [Option.any_eq_true, decide_eq_true_eq] at full
      obtain ⟨row, found, most⟩ := full
      exact ⟨target, maxAttempts, ts, row, rfl, found, by omega⟩
    · exact .inl ⟨_, executes.1⟩
  | replaceRelays pubkeyId relays seenAt =>
    exact .inl (commits_answer (Database.replaceRelays_isOk meets) executes)
  | selectWriteRelays pubkeyId =>
    obtain ⟨_, rows, replied, _⟩ := executes
    exact .inl ⟨_, replied⟩
  | _ => cases single

end Statement

section Worker

variable {Note : Type} {gate : GateParams} {fallback : Fallback} {claimed : ClaimedAuthor} {author : PublicKey}
  {event : Event}

/-- Every statement meets the constraints, and rows stay. -/
def meeting (verify : Event → Bool) : Contract verify where
  holds := fun _ => True
  guarantee := Meets
  moves := Persists
  refl := .refl
  trans := .trans
  empty := trivial
  ranges := by
    intro stmt ranges db
    cases stmt with
    | claim => trivial
    | reclaimInProgress => trivial
    | reclaimStale => trivial
    | reclaimExpired => trivial
    | _ => cases ranges
  settles := by
    intro stmt settling db
    cases stmt with
    | upsertPubkey => trivial
    | updateStatus => trivial
    | requeueOrFail => trivial
    | _ => cases settling
  moved := fun _ executes => executes.framed.persists
  kept := fun _ _ _ => trivial
  mixed := fun _ _ _ _ _ _ => ⟨trivial, .refl _⟩

/-- A statement that names rows which are there. -/
private theorem query_meets (stmt : Stmt) {state : Database × Note}
    (meets : ∀ later, Persists state.1 later → Meets stmt later) :
    (meeting verify).Fulfills (fun _ later => Persists state.1 later.1) (query stmt) state := by
  apply (meeting verify).query_fulfills fun later moved => meets later moved.moves
  exact fun _ _ _ _ _ _ _ moved => moved.moves

/-- The edge writer, called for rows that are there and a follower that is none of the followees. -/
private theorem applyFollowList_meets {followerId : Nat} {followeeIds : List Nat} {state : Database × Note}
    (follower : (state.1.rows followerId).isSome)
    (followees : ∀ id ∈ followeeIds, followerId ≠ id ∧ (state.1.rows id).isSome) (eventId : Bytes) (createdAt : DateTime) :
    (meeting verify).Fulfills (fun _ _ => True) (applyFollowList followerId eventId createdAt followeeIds) state := by
  unfold applyFollowList
  apply (query_meets (.selectAppliedEvent followerId) fun later persists => isSome_persists persists follower).ok_bind
  intro currentEvent between known
  split
  · apply (query_meets (.confirmFetched followerId) fun later persists => trivial).ok_bind
    exact fun _ _ _ => Safe.ret fun _ _ => trivial
  · apply (query_meets (.selectFollowees followerId) fun later persists => trivial).ok_bind
    intro currentSet compared kept
    have since := known.trans kept
    refine (query_meets (.applyDiff ..) ?_).ok_bind fun _ _ _ => Safe.ret fun _ _ => trivial
    intro later persists
    refine ⟨isSome_persists persists (isSome_persists since follower), ?_⟩
    intro followee added
    have listed := List.mem_of_mem_filter (List.mem_dedup.mp (List.mem_of_mem_filter added))
    obtain ⟨apart, present⟩ := followees followee listed
    exact ⟨apart, isSome_persists persists (isSome_persists since present)⟩

private theorem applyValidated_meets (vfl : ValidatedFollowList) (emitted : EmittedOf verify Kind.contactList vfl)
    (state : Database × Note) : (meeting verify).Fulfills (fun _ _ => True) (applyValidated vfl) state := by
  obtain ⟨event, followCap, followees, _, _, extracted, rfl⟩ := emitted
  obtain ⟨_, listed, _⟩ := followeePubkeys_spec extracted
  unfold applyValidated
  apply ((meeting verify).upsertPubkey_fulfills id event.pubkey state).ok_bind
  intro followerId between follower
  apply ((meeting verify).upsertAll_fulfills id followees between).ok_bind
  intro followeeIds later known
  have own : later.1.keyed followerId event.pubkey.bytes := Persists.keyed known.1.moves follower.2
  apply applyFollowList_meets (isSome_of_keyed own)
  intro followee member
  obtain ⟨author, named, keyed⟩ := known.2.named followee member
  refine ⟨?_, isSome_of_keyed keyed⟩
  -- The author is none of its followees, and each key has a row of its own.
  rintro rfl
  have same : author = event.pubkey := PublicKey.bytes_injective (Database.keyed_key keyed own)
  have inside : author ∈ followeeSet event := listed ▸ List.mem_toFinset.mpr named
  exact Finset.ne_of_mem_erase inside same

/-- The relay list is written for the row that was upserted before. -/
private theorem knownRelays_meets (gate : GateParams) (fallback : Fallback) (claimed : ClaimedAuthor)
    (author : PublicKey) (state : Database × Note) :
    (meeting verify).Fulfills (fun _ _ => True) (knownRelays gate fallback claimed author) state := by
  have lookUp (id : Nat) (state : Database × Note) : (meeting verify).Fulfills (fun _ _ => True) (lookupWriteRelays id) state := by
    apply (query_meets (.selectWriteRelays id) fun later persists => trivial).mono
    intro outcome later _
    cases outcome <;> trivial
  have reread (persisted : List String) (state : Database × Note) : (meeting verify).Fulfills (fun _ _ => True)
      (if persisted = [] then lookupWriteRelays claimed.id else return persisted) state := by
    split
    · exact lookUp _ state
    · exact Safe.ret fun _ _ => trivial
  have resolves (state : Database × Note) :
      (meeting verify).Fulfills (fun _ _ => True) (resolveWriteRelays gate fallback claimed author) state := by
    unfold resolveWriteRelays
    dsimp only
    split
    · exact reread [] state
    · split
      · exact reread [] state
      · apply ((meeting verify).upsertPubkey_fulfills id author state).ok_bind
        intro pubkeyId stored own
        refine (query_meets (.replaceRelays ..) ?_).ok_bind ?_
        · exact fun later persists => isSome_of_keyed (persists.keyed own.2)
        · exact fun _ replaced _ => (lookUp pubkeyId replaced).ok_bind fun urls later _ => reread urls later
  unfold knownRelays
  apply (lookUp claimed.id state).ok_bind
  intro stored later _
  split
  · exact resolves later
  · exact Safe.ret fun _ _ => trivial

theorem meeting_fulfilled (verify : Event → Bool) : (meeting verify).Fulfilled where
  applies := fun vfl emitted state _ => applyValidated_meets vfl emitted state
  knows := fun gate fallback claimed author _ state _ => knownRelays_meets gate fallback claimed author state

end Worker

section Daemon

variable {anchor : Bytes} {workers next : Workers}

/-- A worker claims nothing, and sweeps nothing. -/
private theorem single_run (run : Relation.ReflTransGen (DaemonStep verify anchor) ⟨Database.empty, []⟩ workers) :
    workers.Each fun _ prog => prog.Issues fun stmt : Stmt => stmt.ranges = false := by
  induction run with
  | refl => exact fun index task found => by cases found
  | tail _ step ih =>
    cases step with
    | seed executed => exact ih
    | claim executed => exact Pool.Each.spawn ih ((processBatch_standard _ _ _ _ _).mono fun _ worker => worker.2)
    | sweep ranges executed => exact ih
    | work step => exact ih.calls step fun _ reply issues => issues.2 reply
    | overlap step =>
      have worked := ih.calls step fun _ reply issues => issues.2 reply
      exact worked
    | die index error => exact ih.drop trivial
    | crash => exact fun index task found => by cases found

/-- No row has come to the end of its attempts' range. -/
def Spare (db : Database) : Prop := ∀ id row, db.rows id = some row → row.columns.fetchAttempts < 32767

/-- A step of the daemon while that is so. -/
def SparingStep (verify : Event → Bool) (anchor : Bytes) (workers next : Workers) : Prop :=
  DaemonStep verify anchor workers next ∧ Spare workers.shared

private theorem Spare.not_overflows (spare : Spare db) : ¬ Overflows stmt db := by
  intro overflows
  obtain ⟨id, maxAttempts, ts, row, _, found, full⟩ := overflows
  exact absurd full (not_le.mpr (spare id row found))

/-- A statement whose turn has come meets the constraints, and answers. -/
private theorem answers_of_kept (kept : (meeting verify).Kept workers)
    (single : workers.Each fun _ prog => prog.Issues fun stmt : Stmt => stmt.ranges = false) {index : Nat}
    {note : List ClaimedAuthor} {tail : Sql.Ret stmt → Prog Sql (Except StoreError Nat)}
    {reply : Except StoreError stmt.Ret} {left : Database}
    (found : workers.tasks[index]? = some ⟨note, .call stmt tail⟩) (executed : sql.exec stmt workers.shared reply left) :
    Answers stmt reply ∨ Overflows stmt workers.shared := by
  have meets : Meets stmt workers.shared := kept.guarded.keeps (.call found ⟨executed, rfl⟩)
  obtain ⟨now, locked, _, executes⟩ := executed
  exact meets.answers (single index _ found).1 executes

private theorem kept_run (run : Relation.ReflTransGen (DaemonStep verify anchor) ⟨Database.empty, []⟩ workers) :
    (meeting verify).Kept workers :=
  ((Contract.Kept.empty (meeting verify)).run (meeting_fulfilled verify) run).1

private theorem earnest_calls {note noted : List ClaimedAuthor}
    (run : Relation.ReflTransGen (DaemonStep verify anchor) ⟨Database.empty, []⟩ workers) (spare : Spare workers.shared)
    (earnest : workers.Each fun note prog => note = [] ∨ prog.Succeeds Answers)
    (step : workers.Calls sql.silent index stmt note noted next) :
    next.Each fun note prog => note = [] ∨ prog.Succeeds Answers := by
  intro other task present
  rcases step.moved present with ⟨_, tail, reply, found, executed, rfl⟩ | ⟨_, stood⟩
  · obtain ⟨executed, noted⟩ := executed
    have answers := (answers_of_kept (kept_run run) (single_run run) found executed).resolve_right spare.not_overflows
    rcases earnest _ _ found with killed | succeeds
    · exact .inl (noted.trans killed)
    · exact .inr (succeeds reply answers)
  · exact earnest other task stood

/-- A worker that was not killed has not failed, while no row's attempts have run out of their range. -/
private theorem earnest_run (run : Relation.ReflTransGen (SparingStep verify anchor) ⟨Database.empty, []⟩ workers) :
    Relation.ReflTransGen (DaemonStep verify anchor) ⟨Database.empty, []⟩ workers ∧
      workers.Each fun note prog => note = [] ∨ prog.Succeeds Answers := by
  induction run with
  | refl => exact ⟨.refl, fun index task found => by cases found⟩
  | @tail workers next _ last ih =>
    obtain ⟨step, spare⟩ := last
    obtain ⟨run, earnest⟩ := ih
    refine ⟨run.tail step, ?_⟩
    cases step with
    | seed executed => exact earnest
    | claim executed => exact Pool.Each.spawn earnest (.inr (processBatch_succeeds _ _ _ _ _))
    | sweep ranges executed => exact earnest
    | work step => exact earnest_calls run spare earnest step
    | overlap step =>
      have worked := earnest_calls run spare earnest step
      exact worked
    | die index error => exact earnest.drop (.inl rfl)
    | crash => exact fun index task found => by cases found

/-- The daemon keeps to its own schema. However it runs and whatever its relays return, each statement that a worker
is about to make answers: no key, reference or check of a table stands against it. By the schema only a requeue can
fail, of a row whose attempts are at the end of their range; and where no row's are, the workers that end in an error
are those that something else has ended. -/
theorem schema_respected (run : Relation.ReflTransGen (DaemonStep verify anchor) ⟨Database.empty, []⟩ workers) :
    (∀ (index : Nat) (note : List ClaimedAuthor) (stmt : Stmt) (tail : Sql.Ret stmt → Prog Sql (Except StoreError Nat))
      (reply : Except StoreError stmt.Ret) (left : Database), workers.tasks[index]? = some ⟨note, .call stmt tail⟩ →
      sql.exec stmt workers.shared reply left → Answers stmt reply ∨ Overflows stmt workers.shared) ∧
    (Relation.ReflTransGen (SparingStep verify anchor) ⟨Database.empty, []⟩ workers →
      ∀ (index : Nat) (task : Task Sql (List ClaimedAuthor) (Except StoreError Nat)) (error : StoreError),
        workers.tasks[index]? = some task → task.prog = .ret (.error error) → task.note = []) := by
  refine ⟨?_, ?_⟩
  · intro index note stmt tail reply left found executed
    exact answers_of_kept (kept_run run) (single_run run) found executed
  · intro sparing index task error found failed
    refine ((earnest_run sparing).2 index task found).resolve_right ?_
    intro succeeds
    rw [failed] at succeeds
    obtain ⟨value, impossible⟩ := succeeds
    cases impossible

section Example

/-- The transaction of the followee's edge. -/
private def trailDiff : Stmt := .applyDiff 1 [] [3] trailEvent.id.bytes (timestampToDatetime trailEvent.createdAt) true

private theorem sole_works {stmt : Stmt} {next : Sql.Ret stmt → Prog Sql (Except StoreError Nat)} {note : List ClaimedAuthor}
    {before left : Database} {reply : Sql.Ret stmt} (executed : sql.exec stmt before reply left) :
    DaemonStep verify anchor ⟨before, [⟨note, .call stmt next⟩]⟩ ⟨left, [⟨note, next reply⟩]⟩ :=
  .work (.sole ⟨executed, rfl⟩)

private theorem trailDiff_next : ∃ tail : Sql.Ret trailDiff → Prog Sql (Except StoreError Nat),
    Relation.ReflTransGen (DaemonStep trailVerifier.verify sampleAuthor.bytes) ⟨Database.empty, []⟩
      ⟨trailNamed, [⟨[Fleet.soleAuthor], .call trailDiff tail⟩]⟩ := by
  have upserted := trail_claimed.tail (sole_works trail_upserts_author)
  have named := upserted.tail (sole_works trail_upserts_followee)
  have unapplied := named.tail (sole_works trail_unapplied)
  exact ⟨_, unapplied.tail (sole_works trail_edgeless)⟩

/-- The theorem at that transaction: its edge refers to rows, which are two, so it commits. -/
theorem schema_respected_trail : ∃ (workers : Workers) (tail : Sql.Ret trailDiff → Prog Sql (Except StoreError Nat))
    (reply : Except StoreError Unit) (left : Database),
    workers.tasks[0]? = some ⟨[Fleet.soleAuthor], .call trailDiff tail⟩ ∧ sql.exec trailDiff workers.shared reply left ∧
    (1, 3) ∈ left.follows ∧ (Answers trailDiff reply ∨ Overflows trailDiff workers.shared) := by
  obtain ⟨tail, run⟩ := trailDiff_next
  have applies : sql.exec trailDiff trailNamed (.ok ()) trailCharted := trail_applies
  have edge : (1, 3) ∈ trailCharted.follows := by decide
  exact ⟨_, tail, _, _, rfl, applies, edge, (schema_respected run).1 0 _ _ _ _ _ rfl applies⟩

end Example

end Daemon

end WotCrawler.Crawl
