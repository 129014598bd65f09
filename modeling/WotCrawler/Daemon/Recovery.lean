import WotCrawler.Crawl.Batch
import WotCrawler.Crawl.Recover
import WotCrawler.Daemon.Fallback

/-! What a batch makes of the fallback: an author is fetched when its write relays together yield
its list, and one relay's error discards what the others returned. -/

namespace WotCrawler.Daemon

open Effect Store Crawl Ingest Relay

/-- The statements of a run and the replies to them. -/
abbrev Trace := List ((stmt : Stmt) × Except StoreError stmt.Ret)

/-- The store named these write relays for a row. -/
def Named (trace : Trace) (id : Nat) (relays : List String) : Prop :=
  ⟨Stmt.selectWriteRelays id, .ok relays⟩ ∈ trace

def Fetched (db : Database) (id : Nat) : Prop :=
  ∃ row, db.rows id = some row ∧ row.columns.status = .fetched

variable {gate : GateParams} {fallback : Fallback} {claimed : ClaimedAuthor} {author : PublicKey}
  {state : Database × Trace} {id target : Nat}

/-- A statement that cannot fail, and the rest of its program. -/
private theorem must_query {stmt : Stmt} {next : stmt.Ret → StoreM α}
    {post : Except StoreError α → Database × Trace → Prop}
    (answers : ∀ now locked reply after, stmt.Executes now locked state.1 reply after →
      ∃ value, reply = .ok value ∧
        Must sql.tracing (next value).run (after, state.2 ++ [⟨stmt, .ok value⟩]) post) :
    Must sql.tracing (query stmt >>= next).run state post := by
  intro result final run
  obtain ⟨reply, between, step, rest⟩ := runs_call_iff.mp run
  obtain ⟨⟨now, locked, _, executes⟩, traced⟩ := step
  obtain ⟨value, rfl, must⟩ := answers now locked reply between.1 executes
  rw [← traced] at must
  exact must result final rest

private theorem must_return {value : α} {post : Except StoreError α → Database × Trace → Prop}
    (holds : post (.ok value) state) : Must sql.tracing (pure value : StoreM α).run state post :=
  must_ret.mpr holds

/-- A trace that grew by one entry about no row's write relays. -/
private theorem named_append {trace : Trace} {stmt : Stmt} {reply : Except StoreError stmt.Ret}
    (other : ∀ id, stmt ≠ .selectWriteRelays id) (named : Named (trace ++ [⟨stmt, reply⟩]) id relays) :
    Named trace id relays := by
  cases List.mem_append.mp named with
  | inl old => exact old
  | inr new =>
    have same := congrArg Sigma.fst (List.mem_singleton.mp new)
    exact absurd same.symm (other id)

private theorem named_lookup {trace : Trace}
    (named : Named (trace ++ [⟨.selectWriteRelays target, .ok found⟩]) id relays) :
    Named trace id relays ∨ (id = target ∧ relays = found) := by
  cases List.mem_append.mp named with
  | inl old => exact .inl old
  | inr new =>
    have same := List.mem_singleton.mp new
    simp only [Sigma.mk.injEq, Stmt.selectWriteRelays.injEq] at same
    obtain ⟨rfl, same⟩ := same
    exact .inr ⟨rfl, Except.ok.inj (eq_of_heq same)⟩

/-- The store answers which write relays a row has. -/
private theorem must_lookup {next : List String → StoreM α}
    {post : Except StoreError α → Database × Trace → Prop}
    (rest : ∀ found, Must sql.tracing (next found).run
      (state.1, state.2 ++ [⟨.selectWriteRelays target, .ok found⟩]) post) :
    Must sql.tracing (lookupWriteRelays target >>= next).run state post := by
  apply must_query
  intro now locked reply after executes
  obtain ⟨rfl, found, rfl, _⟩ := executes
  exact ⟨found, rfl, rest found⟩

private theorem must_lookup_last {post : Except StoreError (List String) → Database × Trace → Prop}
    (rest : ∀ found, post (.ok found) (state.1, state.2 ++ [⟨.selectWriteRelays target, .ok found⟩])) :
    Must sql.tracing (lookupWriteRelays target).run state post := by
  intro result final run
  obtain ⟨reply, between, step, last⟩ := runs_call_iff.mp run
  obtain ⟨⟨now, locked, _, executes⟩, traced⟩ := step
  obtain ⟨same, found, rfl, _⟩ := executes
  obtain ⟨rfl, rfl⟩ := runs_ret_iff.mp last
  have stands : between = (state.1, state.2 ++ [⟨.selectWriteRelays target, .ok found⟩]) :=
    Prod.ext same traced
  exact stands ▸ rest found

/-- The write relays that a part of a batch learns of its author are those it returns. -/
def Learns (claimed : ClaimedAuthor) (author : PublicKey) (before : Database × Trace)
    (result : Except StoreError (List String)) (after : Database × Trace) : Prop :=
  ∃ writeRelays, result = .ok writeRelays ∧ after.1.keyed claimed.id author.bytes ∧
    ∀ id relays, relays ≠ [] → Named after.2 id relays →
      Named before.2 id relays ∨ (id = claimed.id ∧ relays = writeRelays)

private theorem reread_learns (keyed : state.1.keyed claimed.id author.bytes) :
    Must sql.tracing (lookupWriteRelays claimed.id).run state (Learns claimed author state) := by
  apply must_lookup_last
  intro found
  exact ⟨found, rfl, keyed, fun id relays _ named => named_lookup named⟩

/-- Replacing the relay list of a row that exists succeeds, and keeps the rows. -/
private theorem replaceRelays_commits {before after : Database} {locked : Finset Nat}
    {reply : Except StoreError Unit} (keyed : before.keyed id key)
    (executes : Stmt.Executes now locked (.replaceRelays id relays seenAt) before reply after) :
    reply = .ok () ∧ after.keyed id key := by
  have kept := executes.framed.persists.keyed keyed
  obtain ⟨columns, found⟩ := keyed
  have present : (before.rows id).isSome := by simp [found]
  simp only [Stmt.Executes, Commits] at executes
  split at executes
  · exact ⟨executes.1, kept⟩
  · rename_i error failed
    unfold Database.replaceRelays at failed
    simp [present] at failed

private theorem resolveWriteRelays_learns (keyed : state.1.keyed claimed.id author.bytes) :
    Must sql.tracing (resolveWriteRelays gate fallback claimed author).run state
      (Learns claimed author state) := by
  unfold resolveWriteRelays
  dsimp only
  split
  · exact reread_learns keyed
  · split
    · exact reread_learns keyed
    · rename_i vrl resolved
      have wide : ¬ author.bytes.length ≠ pubkeyLen := fun differs => differs author.width
      rw [upsertPubkey, if_neg wide]
      apply must_query
      intro now locked reply upserted executes
      have framed := executes.framed
      obtain ⟨rfl, left⟩ := executes
      refine ⟨_, rfl, ?_⟩
      have stands : upserted.keyed (state.1.upsert author.bytes).1 author.bytes := by
        rw [left]
        exact (state.1.upsert_spec author.bytes).1
      rw [Database.keyed_unique stands (framed.persists.keyed keyed)]
      apply must_query
      intro now locked reply replaced executes
      obtain ⟨rfl, known⟩ := replaceRelays_commits (framed.persists.keyed keyed) executes
      refine ⟨_, rfl, ?_⟩
      apply must_lookup
      intro found
      have learned (id : Nat) (relays : List String)
          (named : Named (((state.2 ++ [⟨.upsertPubkey author.bytes, .ok claimed.id⟩]) ++
            [⟨.replaceRelays claimed.id vrl.relays vrl.createdAt, .ok ()⟩]) ++
            [⟨.selectWriteRelays claimed.id, .ok found⟩]) id relays) :
          Named state.2 id relays ∨ (id = claimed.id ∧ relays = found) := by
        cases named_lookup named with
        | inr new => exact .inr new
        | inl old =>
          have before := named_append (fun _ other => by cases other) old
          exact .inl (named_append (fun _ other => by cases other) before)
      dsimp only
      split
      · rename_i empty
        apply must_lookup_last
        intro last
        refine ⟨last, rfl, known, ?_⟩
        intro id relays nonempty named
        cases named_lookup named with
        | inr new => exact .inr new
        | inl old =>
          cases learned id relays old with
          | inl earlier => exact .inl earlier
          | inr first => exact absurd (first.2.trans empty) nonempty
      · apply must_return
        exact ⟨found, rfl, known, fun id relays _ named => learned id relays named⟩

/-- The relays known of an author are those that the run named, if it named any. -/
private theorem knownRelays_learns (keyed : state.1.keyed claimed.id author.bytes) :
    Must sql.tracing (knownRelays gate fallback claimed author).run state (Learns claimed author state) := by
  unfold knownRelays
  apply must_lookup
  intro stored
  split
  · rename_i empty
    have resolves : Must sql.tracing (resolveWriteRelays gate fallback claimed author).run
        (state.1, state.2 ++ [⟨.selectWriteRelays claimed.id, .ok stored⟩]) (Learns claimed author _) :=
      resolveWriteRelays_learns keyed
    refine resolves.mono ?_
    intro result after learns
    obtain ⟨writeRelays, same, known, learned⟩ := learns
    refine ⟨writeRelays, same, known, ?_⟩
    intro id relays nonempty named
    cases learned id relays nonempty named with
    | inr new => exact .inr new
    | inl old =>
      cases named_lookup old with
      | inl earlier => exact .inl earlier
      | inr first => exact absurd (first.2.trans empty) nonempty
  · apply must_return
    exact ⟨stored, rfl, keyed, fun id relays _ named => named_lookup named⟩

/-- What is known of an author's write relays decides what the fallback recovers. -/
private theorem fallbackRecover_must (keyed : state.1.keyed claimed.id author.bytes) :
    Must sql.tracing (fallbackRecover gate fallback claimed author).run state fun result after =>
      ∃ list, result = .ok list ∧ after.1.keyed claimed.id author.bytes ∧
        (∀ vfl, list = some vfl → vfl.followerPubkey = author) ∧
        ∀ id relays, relays ≠ [] → Named after.2 id relays → Named state.2 id relays ∨
          (id = claimed.id ∧ list = recovered gate fallback author relays) := by
  rw [fallbackRecover_eq]
  refine (knownRelays_learns keyed).except_bind ?_ ?_
  · intro writeRelays after learns
    obtain ⟨_, same, known, learned⟩ := learns
    obtain rfl := Except.ok.inj same
    apply must_return
    refine ⟨_, rfl, known, fun vfl found => recoverFrom_follower found, ?_⟩
    intro id relays nonempty named
    refine (learned id relays nonempty named).imp_right ?_
    intro new
    refine ⟨new.1, ?_⟩
    rw [← new.2, recoverFrom, if_neg nonempty]
  · intro error after learns
    obtain ⟨_, impossible, _⟩ := learns
    cases impossible

/-- Applying a list leaves its author fetched. -/
private theorem applyValidated_must {vfl : ValidatedFollowList}
    (keyed : state.1.keyed claimed.id vfl.followerPubkey.bytes) :
    Must sql.tracing (applyValidated vfl).run state fun result after =>
      (∃ changed, result = .ok changed) ∧ Fetched after.1 claimed.id ∧
        ∀ id relays, Named after.2 id relays → Named state.2 id relays := by
  intro result after run
  obtain ⟨ok, _, row, found, status, _⟩ :=
    applyValidated_alone (fun _ => True) keyed trivial (fun _ _ => trivial) _ _ run.untraced
  refine ⟨ok, ⟨row, found, status⟩, ?_⟩
  intro id relays named
  have issues : (applyValidated vfl).run.Issues (ApplyStmt fun _ => True) :=
    applyValidated_issues applyStmt_permits trivial fun _ _ => trivial
  cases issues.traced run _ named with
  | inl old => exact old
  | inr applies => cases applies

/-- An author whose fallback was tried is fetched exactly if a list was recovered. -/
def Told (gate : GateParams) (fallback : Fallback) (claimed : ClaimedAuthor) (state : Database × Trace) : Prop :=
  ∀ author relays, author.bytes = claimed.pubkey → relays ≠ [] → Named state.2 claimed.id relays →
    (Fetched state.1 claimed.id ↔ (recovered gate fallback author relays).isSome)

/-- What one author of a batch leaves: it is told, and others' write relays were not looked up. -/
def Settled (gate : GateParams) (fallback : Fallback) (claimed : ClaimedAuthor)
    (before : Database × Trace) (result : Except StoreError Nat) (after : Database × Trace) : Prop :=
  (∃ counted, result = .ok counted) ∧ Told gate fallback claimed after ∧
    ∀ id relays, relays ≠ [] → id ≠ claimed.id → Named after.2 id relays → Named before.2 id relays

private theorem hit_settles {vfl : ValidatedFollowList} {middle : Database × Trace}
    (keyed : middle.1.keyed claimed.id vfl.followerPubkey.bytes)
    (others : ∀ id relays, relays ≠ [] → id ≠ claimed.id → Named middle.2 id relays → Named state.2 id relays)
    (told : ∀ relays, relays ≠ [] → Named middle.2 claimed.id relays →
      ∀ author : PublicKey, author.bytes = claimed.pubkey → (recovered gate fallback author relays).isSome) :
    Must sql.tracing (do
      let _ ← applyValidated vfl
      return 1 : StoreM Nat).run middle (Settled gate fallback claimed state) := by
  refine (applyValidated_must keyed).except_bind ?_ ?_
  · intro changed after holds
    obtain ⟨_, fetched, unnamed⟩ := holds
    apply must_return
    refine ⟨⟨1, rfl⟩, ?_, ?_⟩
    · intro author relays same nonempty named
      have isSome := told relays nonempty (unnamed claimed.id relays named) author same
      exact iff_of_true fetched isSome
    · intro id relays nonempty apart named
      exact others id relays nonempty apart (unnamed id relays named)
  · intro error after holds
    obtain ⟨⟨_, impossible⟩, _⟩ := holds
    cases impossible

private theorem miss_settles {middle : Database × Trace}
    (others : ∀ id relays, relays ≠ [] → id ≠ claimed.id → Named middle.2 id relays → Named state.2 id relays)
    (told : ∀ relays, relays ≠ [] → Named middle.2 claimed.id relays →
      ∀ author : PublicKey, author.bytes = claimed.pubkey → recovered gate fallback author relays = none) :
    Must sql.tracing (do
      setFetchStatus claimed.id .notFound stamp
      return 0 : StoreM Nat).run middle (Settled gate fallback claimed state) := by
  unfold setFetchStatus
  apply must_query
  intro now locked reply after executes
  obtain ⟨rfl, written⟩ := executes
  refine ⟨(), rfl, must_return ?_⟩
  have unnamed {id : Nat} {relays : List String}
      (named : Named (middle.2 ++ [⟨.updateStatus claimed.id .notFound stamp, .ok ()⟩]) id relays) :
      Named middle.2 id relays := named_append (fun _ other => by cases other) named
  refine ⟨⟨0, rfl⟩, ?_, fun id relays nonempty apart named => others id relays nonempty apart (unnamed named)⟩
  intro author relays same nonempty named
  have missed := told relays nonempty (unnamed named) author same
  have stamped : ¬ Fetched after claimed.id := by
    rintro ⟨row, found, status⟩
    rw [written, Database.updateRow_rows_self] at found
    obtain ⟨old, _, rfl⟩ := Option.map_eq_some_iff.mp found
    cases status
  exact iff_of_false stamped (by simp [missed])

/-- One author of a batch is settled. -/
private theorem resolveAuthor_settles {byAuthor : PublicKey → Option ValidatedFollowList}
    (indexed : ∀ author vfl, byAuthor author = some vfl → vfl.followerPubkey = author)
    (keyed : state.1.keyed claimed.id claimed.pubkey)
    (unnamed : ∀ relays, relays ≠ [] → ¬ Named state.2 claimed.id relays) :
    Must sql.tracing (resolveAuthor gate fallback stamp byAuthor claimed).run state
      (Settled gate fallback claimed state) := by
  have nothing (relays : List String) (nonempty : relays ≠ []) (named : Named state.2 claimed.id relays)
      {motive : Prop} : motive := absurd named (unnamed relays nonempty)
  have same (id : Nat) (relays : List String) (_ : relays ≠ []) (_ : id ≠ claimed.id)
      (named : Named state.2 id relays) : Named state.2 id relays := named
  unfold resolveAuthor
  split
  · exact miss_settles same fun relays nonempty named => nothing relays nonempty named
  · rename_i author parsed
    have key := PublicKey.fromSlice_eq_some_iff.mp parsed
    split
    · rename_i vfl listed
      have follower : vfl.followerPubkey.bytes = claimed.pubkey := by rw [indexed author vfl listed, key]
      exact hit_settles (follower ▸ keyed) same fun relays nonempty named => nothing relays nonempty named
    · dsimp only
      split
      · have recovers : Must sql.tracing (fallbackRecover gate fallback claimed author).run state _ :=
          fallbackRecover_must (key ▸ keyed)
        refine recovers.except_bind ?_ ?_
        · intro list middle holds
          obtain ⟨_, given, known, theirs, told⟩ := holds
          obtain rfl := Except.ok.inj given
          have others (id : Nat) (relays : List String) (nonempty : relays ≠ []) (apart : id ≠ claimed.id)
              (named : Named middle.2 id relays) : Named state.2 id relays := by
            cases told id relays nonempty named with
            | inl old => exact old
            | inr new => exact absurd new.1 apart
          have decided (relays : List String) (nonempty : relays ≠ []) (named : Named middle.2 claimed.id relays)
              (other : PublicKey) (bytes : other.bytes = claimed.pubkey) :
              list = recovered gate fallback other relays := by
            obtain rfl : other = author := PublicKey.bytes_injective (bytes.trans key.symm)
            cases told claimed.id relays nonempty named with
            | inl old => exact absurd old (unnamed relays nonempty)
            | inr new => exact new.2
          split
          · rename_i vfl
            apply hit_settles (theirs vfl rfl ▸ known) others
            intro relays nonempty named other bytes
            rw [← decided relays nonempty named other bytes]
            rfl
          · apply miss_settles others
            intro relays nonempty named other bytes
            exact (decided relays nonempty named other bytes).symm
        · intro error middle holds
          obtain ⟨_, impossible, _⟩ := holds
          cases impossible
      · exact miss_settles same fun relays nonempty named => nothing relays nonempty named

/-- One author of a batch leaves the other rows alone. -/
theorem resolveAuthor_untouched {byAuthor : PublicKey → Option ValidatedFollowList}
    (indexed : ∀ author vfl, byAuthor author = some vfl → vfl.followerPubkey = author)
    (keyed : db.keyed claimed.id claimed.pubkey) :
    Must sql (resolveAuthor gate fallback stamp byAuthor claimed).run db fun _ after =>
      Persists db after ∧ ∀ id, id ≠ claimed.id → db.Untouched after id := by
  intro result after run
  have ready : Ready [claimed] (db, {claimed.id}) := by
    intro other member
    obtain rfl := List.mem_singleton.mp member
    exact ⟨rfl, keyed⟩
  have worked : Safe (leasing fun _ => True) alone Worked (mayFail fun _ later => Ready [] later)
      (resolveAuthor gate fallback stamp byAuthor claimed).run (db, {claimed.id}) :=
    (resolveAuthor_worked indexed ready (by simp)).narrow alone_within
  have kept := worked.remember
    (fun desk => desk.2 ⊆ ({claimed.id} : Set Nat) ∧ Persists db desk.1 ∧ ∀ id, id ≠ claimed.id → db.Untouched desk.1 id)
    ⟨subset_rfl, .refl db, fun _ _ => ⟨fun _ found => found, fun _ => Iff.rfl⟩⟩
    (fun moved held => by have same := moved; subst same; exact held) ?_
  · obtain ⟨final, noted⟩ := run.noting ({claimed.id} : Set Nat)
    exact (kept.must _ _ noted).1.2
  · intro stmt before later worked held
    obtain ⟨inside, persists, untouched⟩ := held
    refine ⟨?_, persists.trans worked.framed.persists, ?_⟩
    · rw [worked.released]
      exact fun id member => inside member.1
    · intro id apart
      have other : stmt.outcome ≠ some id := fun writes => apart (inside (worked.owned id writes))
      have step := worked.framed.untouched worked.single other
      have earlier := untouched id apart
      exact ⟨fun row found => step.1 row (earlier.1 row found),
        fun followee => (step.2 followee).trans (earlier.2 followee)⟩

private theorem fetched_iff {before after : Database} (untouched : before.Untouched after id)
    (found : before.rows id = some row) : Fetched after id ↔ Fetched before id := by
  have kept := untouched.1 row found
  constructor
  · rintro ⟨other, there, status⟩
    obtain rfl := Option.some.inj (kept.symm.trans there)
    exact ⟨_, found, status⟩
  · rintro ⟨other, there, status⟩
    obtain rfl := Option.some.inj (found.symm.trans there)
    exact ⟨_, kept, status⟩

/-- Along a batch every author is told as soon as it is settled. -/
private theorem resolveAll_told {byAuthor : PublicKey → Option ValidatedFollowList} {applied : Nat}
    {rest batch : List ClaimedAuthor}
    (indexed : ∀ author vfl, byAuthor author = some vfl → vfl.followerPubkey = author)
    (distinct : (rest.map ClaimedAuthor.id).Nodup) (inside : rest ⊆ batch)
    (keyed : ∀ claimed ∈ batch, state.1.keyed claimed.id claimed.pubkey)
    (unnamed : ∀ claimed ∈ rest, ∀ relays, relays ≠ [] → ¬ Named state.2 claimed.id relays)
    (told : ∀ claimed ∈ batch, Told gate fallback claimed state) :
    Must sql.tracing (resolveAll gate fallback stamp byAuthor applied rest).run state fun result after =>
      (∃ count, result = .ok count) ∧ ∀ claimed ∈ batch, Told gate fallback claimed after := by
  induction rest generalizing applied state with
  | nil => exact must_return ⟨⟨applied, rfl⟩, told⟩
  | cons claimed rest ih =>
    obtain ⟨apart, others⟩ := List.nodup_cons.mp distinct
    have mine := keyed claimed (inside (List.mem_cons_self ..))
    have step : Must sql.tracing (resolveAuthor gate fallback stamp byAuthor claimed).run state
        fun result after => Settled gate fallback claimed state result after ∧ Persists state.1 after.1 ∧
          ∀ id, id ≠ claimed.id → state.1.Untouched after.1 id := by
      intro result after run
      exact ⟨resolveAuthor_settles indexed mine (unnamed claimed (List.mem_cons_self ..)) _ _ run,
        resolveAuthor_untouched indexed mine _ _ run.untraced⟩
    unfold resolveAll
    refine step.except_bind ?_ ?_
    · intro counted after holds
      obtain ⟨⟨_, settled, unlooked⟩, persists, untouched⟩ := holds
      refine ih others (fun other member => inside (List.mem_cons_of_mem _ member)) ?_ ?_ ?_
      · exact fun other member => persists.keyed (keyed other member)
      · intro other member relays nonempty named
        have different : other.id ≠ claimed.id := by
          intro same
          exact apart (same ▸ List.mem_map_of_mem member)
        exact unnamed other (List.mem_cons_of_mem _ member) relays nonempty
          (unlooked other.id relays nonempty different named)
      · intro other member author relays bytes nonempty named
        by_cases same : other.id = claimed.id
        · have standing := persists.keyed (keyed other member)
          rw [same] at standing named ⊢
          have bytesToo := bytes.trans (Database.keyed_key standing (persists.keyed mine))
          exact settled author relays bytesToo nonempty named
        · obtain ⟨columns, found⟩ := keyed other member
          rw [fetched_iff (untouched other.id same) found]
          exact told other member author relays bytes nonempty
            (unlooked other.id relays nonempty same named)
    · intro error after holds
      obtain ⟨⟨⟨_, impossible⟩, _⟩, _⟩ := holds
      cases impossible

/-- After a successful fetch a batch cannot fail, and tells its authors. -/
theorem processBatch_ok_told (claims : Claims db batch) (events : List Event) :
    Must sql.tracing (processBatch gate maxAttempts fallback batch (.ok events)).run (db, []) fun reply after =>
      (∃ count, reply = .ok count) ∧ ∀ claimed ∈ batch, Told gate fallback claimed after := by
  have untold (claimed : ClaimedAuthor) : Told gate fallback claimed (db, []) := by
    intro author relays bytes nonempty named
    cases named
  have keyed (claimed : ClaimedAuthor) (member : claimed ∈ batch) : db.keyed claimed.id claimed.pubkey := by
    obtain ⟨columns, found, _⟩ := claims.rows claimed member
    exact ⟨columns, found⟩
  unfold processBatch
  split
  · exact must_ret.mpr ⟨⟨0, rfl⟩, fun claimed _ => untold claimed⟩
  · exact resolveAll_told (fun _ _ found => indexByAuthor_follower found) claims.distinct
      (List.Subset.refl batch) keyed (fun _ _ _ _ named => by cases named) (fun claimed _ => untold claimed)

/-- A batch tells every author whose write relays it looked up. -/
theorem processBatch_told (claims : Claims db batch)
    (run : Runs sql.tracing (processBatch gate maxAttempts fallback batch unionFetch).run (db, []) reply after) :
    ∀ claimed ∈ batch, Told gate fallback claimed after := by
  cases unionFetch with
  | ok events => exact (processBatch_ok_told claims events _ _ run).2
  | error error =>
    intro claimed _ author relays bytes nonempty named
    have issues := processBatch_error_issues gate maxAttempts fallback batch error
    cases issues.traced run _ named with
    | inl impossible => cases impossible
    | inr requeue =>
      obtain ⟨_, _, _, impossible⟩ := requeue
      cases impossible

section Closures

/-- The fallback of a batch as the daemon sets it up, given what the relays return in each call. -/
def daemonFallback (enabled : Bool) (maxWriteRelays : Nat) (score : PublicKey → String → Rat)
    (lists relayLists : PublicKey → RelayFetch Id) (curated : List String) : Fallback where
  enabled := enabled
  maxWriteRelays := maxWriteRelays
  score := score
  fallbackFetch := fun author writeRelays => fallbackFetch (lists author) author writeRelays
  relayListFetch := fun author => relayListFetch (relayLists author) curated author

/-- What each relay returns in one call for an author. -/
def callOutcomes (fetch : RelayFetch Id) (author : PublicKey) (kind : Kind) (relays : List String) :
    List (Except RelayError (List Event)) :=
  outcomes (fun visit relay => fetch visit relay [author] kind) 0 relays

/-- Some relay returned a valid list of the author, within the clamp and the cap. -/
def Offers (gate : GateParams) (author : PublicKey) (outcomes : List (Except RelayError (List Event))) :
    Prop :=
  ∃ event, Admissible gate.verify (returned outcomes) gate.wantKind gate.now gate.futureClampSecs author event ∧
    (followeeSet event).card ≤ gate.followCap

/-- No relay erred, and the newest of the author's valid lists is within the cap. -/
def Yields (gate : GateParams) (author : PublicKey) (outcomes : List (Except RelayError (List Event))) :
    Prop :=
  AllAnswer outcomes ∧ ∃ winner, Nip01Winner
    (Admissible gate.verify (returned outcomes) gate.wantKind gate.now gate.futureClampSecs author) winner ∧
    (followeeSet winner).card ≤ gate.followCap

variable {enabled : Bool} {maxWriteRelays : Nat} {score : PublicKey → String → Rat}
  {lists relayLists : PublicKey → RelayFetch Id} {curated : List String}

/-- The fallback recovers a list exactly when its relays together yield one. -/
theorem recovered_isSome_iff (verifier : Verifier) (verified : gate.verify = verifier.verify)
    (relays : List String) :
    (recovered gate (daemonFallback enabled maxWriteRelays score lists relayLists curated) author relays).isSome ↔
      Yields gate author (callOutcomes (lists author) author Kind.contactList (selectRelays
        (daemonFallback enabled maxWriteRelays score lists relayLists curated) author relays)) := by
  have fetched (raw : List Event) : fallbackFetch (lists author) author (selectRelays
      (daemonFallback enabled maxWriteRelays score lists relayLists curated) author relays) = .ok raw ↔ _ :=
    fetchEach_eq_ok_iff [] 0
  constructor
  · intro found
    obtain ⟨vfl, last⟩ := Option.isSome_iff_exists.mp found
    obtain ⟨raw, winner, followees, answered, wins, _, extracted, _⟩ := recovered_eq_some verified last
    obtain ⟨all, rfl⟩ := (fetched raw).mp answered
    exact ⟨all, winner, verified ▸ wins, (followeePubkeys_spec extracted).2.2⟩
  · intro yields
    obtain ⟨all, winner, wins, small⟩ := yields
    have answered := (fetched _).mpr ⟨all, rfl⟩
    exact recovered_isSome verified answered (verified ▸ wins) small

/-- One call of each fetch keeps what a relay returned exactly when no relay of the call errs (or
there was nothing to keep), and for the author's list when the newest one is within the cap. -/
theorem fallback_keeps_iff (verifier : Verifier) (verified : gate.verify = verifier.verify)
    (claims : Claims db batch) (member : claimed ∈ batch) (bytes : author.bytes = claimed.pubkey)
    (run : Runs sql.tracing (processBatch gate maxAttempts
      (daemonFallback enabled maxWriteRelays score lists relayLists curated) batch unionFetch).run
      (db, []) reply after)
    (named : Named after.2 claimed.id writeRelays) (known : writeRelays ≠ []) :
    ((Offers gate author (callOutcomes (lists author) author Kind.contactList (selectRelays
          (daemonFallback enabled maxWriteRelays score lists relayLists curated) author writeRelays)) →
        Fetched after.1 claimed.id) ↔
      (Offers gate author (callOutcomes (lists author) author Kind.contactList (selectRelays
          (daemonFallback enabled maxWriteRelays score lists relayLists curated) author writeRelays)) →
        Yields gate author (callOutcomes (lists author) author Kind.contactList (selectRelays
          (daemonFallback enabled maxWriteRelays score lists relayLists curated) author writeRelays)))) ∧
    (Keeps (relayListFetch (relayLists author) curated author) Kind.relayList
        (callOutcomes (relayLists author) author Kind.relayList curated) ↔
      ((∃ event ∈ returned (callOutcomes (relayLists author) author Kind.relayList curated),
          event.kind = Kind.relayList) →
        AllAnswer (callOutcomes (relayLists author) author Kind.relayList curated))) := by
  have told := processBatch_told claims run claimed member author writeRelays bytes known named
  have yields := told.trans (recovered_isSome_iff verifier verified writeRelays)
  refine ⟨?_, fetchEach_keeps_iff Kind.relayList⟩
  constructor
  · exact fun keeps offered => yields.mp (keeps offered)
  · exact fun condition offered => yields.mpr (condition offered)

end Closures

section Example

/-- A claimed author with two write relays. -/
def listedRow : Database where
  rows := claimedRow.rows
  nextId := claimedRow.nextId
  follows := claimedRow.follows
  relays := fun id => if id = 1 then [⟨"wss://down", .write, 0⟩, ⟨"wss://up", .both, 0⟩] else []
  ids := claimedRow.ids
  pubkey_unique := claimedRow.pubkey_unique
  follows_references := claimedRow.follows_references
  follows_check := claimedRow.follows_check
  relays_references := by
    intro id inhabited
    by_cases same : id = 1
    · rw [same]
      decide
    · simp [same] at inhabited
  relays_primary := by
    intro id
    by_cases same : id = 1 <;> simp [same]

/-- The first of them errs, and the other returns the author's list. -/
def oneDown : RelayFetch Id :=
  fun _ relay _ _ => if relay = "wss://up" then .ok [newerEvent] else .error (.fetchTimeout relay)

def oneDownFallback : Fallback :=
  daemonFallback true 2 (fun _ _ => 0) (fun _ => oneDown) (fun _ => oneDown) []

/-- What the author's two relays return in one call. -/
def oneDownOutcomes : List (Except RelayError (List Event)) :=
  callOutcomes oneDown sampleAuthor Kind.contactList (selectRelays oneDownFallback sampleAuthor ["wss://down", "wss://up"])

private theorem oneDown_runs : ∃ reply after, Runs sql.tracing
    (processBatch versionsGate 3 oneDownFallback [Fleet.soleAuthor] (.ok [])).run (listedRow, []) reply after ∧
    Named after.2 1 ["wss://down", "wss://up"] := by
  obtain ⟨next, looks⟩ : ∃ next, (processBatch versionsGate 3 oneDownFallback [Fleet.soleAuthor] (.ok [])).run =
      .call (.selectWriteRelays 1) next := ⟨_, rfl⟩
  have answers : Stmt.Executes 0 ∅ (.selectWriteRelays 1) listedRow (.ok ["wss://down", "wss://up"]) listedRow := by
    refine ⟨rfl, _, rfl, by simp, ?_⟩
    intro url
    simp [listedRow, eq_comm]
  obtain ⟨reply, after, rest, _⟩ := (May.tracing sql_total (next (.ok ["wss://down", "wss://up"]))
    (listedRow, [] ++ [⟨.selectWriteRelays 1, .ok ["wss://down", "wss://up"]⟩]) : May sql.tracing _ _ _)
  refine ⟨reply, after, looks ▸ .call ⟨⟨0, ∅, trivial, answers⟩, rfl⟩ rest, ?_⟩
  exact rest.trace_grows (List.mem_append_right _ (List.mem_singleton_self _))

private theorem listedRow_claims : Claims listedRow [Fleet.soleAuthor] where
  distinct := claimedRow_claims.distinct
  rows := claimedRow_claims.rows

private theorem oneDown_selected :
    (selectRelays oneDownFallback sampleAuthor ["wss://down", "wss://up"]).Perm ["wss://down", "wss://up"] := by
  unfold selectRelays
  have short : (List.insertionSort (fun a b => oneDownFallback.score sampleAuthor b ≤
      oneDownFallback.score sampleAuthor a) ["wss://down", "wss://up"]).length ≤ 2 := by
    rw [List.length_insertionSort]
    rfl
  have whole : oneDownFallback.maxWriteRelays = 2 := rfl
  rw [whole, List.take_of_length_le short]
  exact List.perm_insertionSort _ _

private theorem mem_oneDownOutcomes : .error (.fetchTimeout "wss://down") ∈ oneDownOutcomes ∧
    .ok [newerEvent] ∈ oneDownOutcomes := by
  have listed (relay : String) (member : relay ∈ ["wss://down", "wss://up"]) :
      oneDown 0 relay [sampleAuthor] Kind.contactList ∈ oneDownOutcomes := by
    have chosen := oneDown_selected.mem_iff.mpr member
    unfold oneDownOutcomes callOutcomes
    generalize selectRelays oneDownFallback sampleAuthor ["wss://down", "wss://up"] = selected at chosen
    generalize 0 = visit
    induction selected generalizing visit with
    | nil => cases chosen
    | cons head rest ih =>
      cases List.mem_cons.mp chosen with
      | inl same =>
        rw [same]
        exact List.mem_cons_self ..
      | inr later => exact List.mem_cons_of_mem _ (ih later (visit + 1))
  exact ⟨listed "wss://down" (by simp), listed "wss://up" (by simp)⟩

/-- The erring relay costs the author the list that the other returned. -/
theorem fallback_discards : ∃ reply after, Runs sql.tracing
    (processBatch versionsGate 3 oneDownFallback [Fleet.soleAuthor] (.ok [])).run (listedRow, []) reply after ∧
    Named after.2 1 ["wss://down", "wss://up"] ∧ Offers versionsGate sampleAuthor oneDownOutcomes ∧
    ¬ Fetched after.1 1 := by
  obtain ⟨reply, after, run, named⟩ := oneDown_runs
  obtain ⟨down, up⟩ := mem_oneDownOutcomes
  refine ⟨reply, after, run, named, ?_, ?_⟩
  · have received : newerEvent ∈ returned oneDownOutcomes := List.mem_flatMap.mpr ⟨_, up, by simp⟩
    exact ⟨newerEvent, ⟨received, by decide, rfl, rfl, by decide⟩, by decide⟩
  · have told := processBatch_told listedRow_claims run Fleet.soleAuthor (List.mem_singleton_self _)
      sampleAuthor _ rfl (by simp) named
    intro fetched
    obtain ⟨all, _⟩ := (recovered_isSome_iff versionsVerifier rfl ["wss://down", "wss://up"]).mp
      (told.mp fetched)
    obtain ⟨events, impossible⟩ := all _ down
    cases impossible

/-- The theorem at that author. -/
theorem fallback_keeps_oneDown : ∃ reply after, Runs sql.tracing
    (processBatch versionsGate 3 oneDownFallback [Fleet.soleAuthor] (.ok [])).run (listedRow, []) reply after ∧
    Named after.2 1 ["wss://down", "wss://up"] ∧
    ((Offers versionsGate sampleAuthor oneDownOutcomes → Fetched after.1 1) ↔
      (Offers versionsGate sampleAuthor oneDownOutcomes → Yields versionsGate sampleAuthor oneDownOutcomes)) := by
  obtain ⟨reply, after, run, named⟩ := oneDown_runs
  exact ⟨reply, after, run, named, (fallback_keeps_iff versionsVerifier rfl listedRow_claims
    (List.mem_singleton_self _) rfl run named (by simp)).1⟩

end Example

end WotCrawler.Daemon
