import WotCrawler.Crawl.Fencing
import WotCrawler.Crawl.NewestWins
import WotCrawler.Crawl.Outcome

/-! A batch as a whole, when batches run one at a time: every claimed author is resolved by its
NIP-01 winner, or else by `not_found`, and nothing else moves. -/

namespace WotCrawler.Crawl

open Effect Store Ingest Relay

/-- A batch that was claimed: distinct rows, each in progress under its key. -/
structure Claims (db : Database) (batch : List ClaimedAuthor) : Prop where
  distinct : (batch.map ClaimedAuthor.id).Nodup
  rows : ∀ claimed ∈ batch, ∃ columns, db.rows claimed.id = some ⟨claimed.pubkey, columns⟩ ∧
    columns.status = .inProgress

/-- The databases reached by running one batch at a time, without fallback, and between the
batches any statements but the edge transaction. -/
inductive Sequential (verifier : Verifier) : Database → Prop where
  | start : Sequential verifier Database.empty
  | batch (run : Sequential verifier before) (claims : Claims before batch)
      (verified : gate.verify = verifier.verify) (disabled : fallback.enabled = false)
      (processed : Runs sql (processBatch gate maxAttempts fallback batch unionFetch).run before reply after) :
      Sequential verifier after
  | frontier (run : Sequential verifier before) (edgeless : stmt.edits = none)
      (executed : sql.exec stmt before reply after) : Sequential verifier after

/-- Every row is blank or holds a verified event of its own key. -/
def Faithful (verifier : Verifier) (db : Database) : Prop :=
  ∀ id key, db.keyed id key → Blank db id ∨ ∃ event, verifier.verify event = true ∧
    event.pubkey.bytes = key ∧ Holds db id event

variable {verifier : Verifier} {gate : GateParams} {fallback : Fallback} {batch : List ClaimedAuthor}
  {claimed : ClaimedAuthor} {lists : ClaimedAuthor → Option ValidatedFollowList} {stamp : DateTime}
  {before after db : Database} {id : Nat}

/-- A statement keeps the rows faithful when the edges it writes are those of a verified event. -/
theorem Faithful.framed {stmt : Stmt} (faithful : Faithful verifier before) (framed : Framed stmt before after)
    (written : ∀ id key, stmt.edits = some id → after.keyed id key → ∃ event,
      verifier.verify event = true ∧ event.pubkey.bytes = key ∧ Holds after id event) :
    Faithful verifier after := by
  intro id key keyed
  by_cases edits : stmt.edits = some id
  · exact .inr (written id key edits keyed)
  · cases present : before.rows id with
    | none =>
      have blank : Blank after id := Blank.framed framed edits fun row found => by simp [present] at found
      exact .inl blank
    | some row =>
      have known := Database.keyed_of_row present
      have same := Database.keyed_key (framed.persists.keyed known) keyed
      cases faithful id key (same ▸ known) with
      | inl blank => exact .inl (Blank.framed framed edits fun _ _ => blank)
      | inr held =>
        obtain ⟨event, verified, author, holds⟩ := held
        exact .inr ⟨event, verified, author, holds.framed framed edits⟩

theorem Faithful.edgeless {stmt : Stmt} (faithful : Faithful verifier before)
    (framed : Framed stmt before after) (edgeless : stmt.edits = none) : Faithful verifier after := by
  apply faithful.framed framed
  intro id key edits
  rw [edgeless] at edits
  cases edits

/-- What a batch makes of one of its rows. -/
def Outcome (list : Option ValidatedFollowList) (stamp : DateTime) (before after : Database) (id : Nat) : Prop :=
  match list with
  | some vfl => ∃ row, after.rows id = some row ∧ row.columns.status = .fetched ∧
      row.columns.appliedEventId = some vfl.eventId.bytes
  | none => (∀ row, before.rows id = some row →
      after.rows id = some ⟨row.pubkey, row.columns.setStatus .notFound stamp⟩) ∧
      ∀ followee, (id, followee) ∈ after.follows ↔ (id, followee) ∈ before.follows

/-- How far a batch has come: the rows it resolved have their outcome, the others are as before. -/
structure Progress (verifier : Verifier) (lists : ClaimedAuthor → Option ValidatedFollowList)
    (stamp : DateTime) (batch : List ClaimedAuthor) (before : Database) (state : Desk) : Prop where
  persists : Persists before state.1
  faithful : Faithful verifier state.1
  untouched : ∀ id, id ∈ state.2 ∨ id ∉ batch.map ClaimedAuthor.id → before.Untouched state.1 id
  resolved : ∀ claimed ∈ batch, claimed.id ∉ state.2 → Outcome (lists claimed) stamp before state.1 claimed.id
  fresh : ∀ id row, before.rows id = none → state.1.rows id = some row → row.columns = Columns.default ∧
    ∃ claimed ∈ batch, ∃ vfl, lists claimed = some vfl ∧
      ∃ followee ∈ vfl.followeePubkeys, followee.bytes = row.pubkey

private theorem untouched_trans {between : Database} (first : before.Untouched between id)
    (second : between.Untouched after id) : before.Untouched after id :=
  ⟨fun row found => second.1 row (first.1 row found),
    fun followee => (second.2 followee).trans (first.2 followee)⟩

private theorem claimed_unique {other : ClaimedAuthor} (distinct : (batch.map ClaimedAuthor.id).Nodup)
    (member : claimed ∈ batch) (present : other ∈ batch) (same : claimed.id = other.id) : claimed = other :=
  List.inj_on_of_nodup_map distinct member present same

private theorem Outcome.untouched {list : Option ValidatedFollowList} {between : Database}
    (outcome : Outcome list stamp before between id) (kept : between.Untouched after id) :
    Outcome list stamp before after id := by
  cases list with
  | some vfl =>
    obtain ⟨row, found, rest⟩ := outcome
    exact ⟨row, kept.1 row found, rest⟩
  | none =>
    obtain ⟨stamped, edges⟩ := outcome
    exact ⟨fun row found => kept.1 _ (stamped row found),
      fun followee => (kept.2 followee).trans (edges followee)⟩

/-- Writing the outcome of a row that was as before. -/
private theorem Outcome.settles {list : Option ValidatedFollowList} {stmt : Stmt} {between : Database}
    (framed : Framed stmt between after) (kept : before.Untouched between id)
    (settles : Settles list stamp stmt id between after) : Outcome list stamp before after id := by
  cases list with
  | some vfl => exact settles.1
  | none =>
    obtain ⟨edgeless, stamped⟩ := settles
    refine ⟨fun row found => stamped row (kept.1 row found), ?_⟩
    intro followee
    have same := framed.follows id followee (by simp [edgeless])
    exact same.trans (kept.2 followee)

/-- The lists of a batch are those of verified events of its authors. -/
def Backed (verifier : Verifier) (lists : ClaimedAuthor → Option ValidatedFollowList) : Prop :=
  ∀ claimed vfl, lists claimed = some vfl → ∃ event followCap followees, verifier.verify event = true ∧
    event.pubkey.bytes = claimed.pubkey ∧ followeePubkeys event followCap = some followees ∧
    vfl = .fromEvent event followees

/-- What one statement of a batch adds. -/
theorem Progress.step {stmt : Stmt} {early late : Desk} (claims : Claims before batch)
    (backed : Backed verifier lists) (progress : Progress verifier lists stamp batch before early)
    (resolves : Resolves lists stamp batch stmt early late) :
    Progress verifier lists stamp batch before late := by
  have framed := resolves.framed
  have pending (id : Nat) (member : id ∈ late.2) : id ∈ early.2 ∧ stmt.outcome ≠ some id := by
    rw [resolves.released] at member
    exact member
  have apart {id : Nat} (outside : id ∉ batch.map ClaimedAuthor.id) : stmt.outcome ≠ some id := by
    intro writes
    obtain ⟨_, claimed, member, rfl, _⟩ := resolves.owned id writes
    exact outside (List.mem_map_of_mem member)
  refine ⟨progress.persists.trans framed.persists, ?_, ?_, ?_, ?_⟩
  · apply progress.faithful.framed framed
    intro id key edits keyed
    obtain ⟨_, claimed, member, rfl, settles⟩ := resolves.owned id (Stmt.outcome_of_edits edits)
    cases listed : lists claimed with
    | none =>
      rw [listed] at settles
      rw [settles.1] at edits
      cases edits
    | some vfl =>
      rw [listed] at settles
      obtain ⟨event, followCap, followees, verified, author, extracted, rfl⟩ := backed claimed vfl listed
      obtain ⟨columns, found, _⟩ := claims.rows claimed member
      have known : before.keyed claimed.id claimed.pubkey := ⟨columns, found⟩
      have same := Database.keyed_key ((progress.persists.trans framed.persists).keyed known) keyed
      exact ⟨event, verified, author.trans same, (settles.2 edits).holds extracted⟩
  · intro id place
    cases place with
    | inl member =>
      obtain ⟨old, other⟩ := pending id member
      exact untouched_trans (progress.untouched id (.inl old)) (framed.untouched resolves.single other)
    | inr outside =>
      exact untouched_trans (progress.untouched id (.inr outside))
        (framed.untouched resolves.single (apart outside))
  · intro claimed member gone
    by_cases writes : stmt.outcome = some claimed.id
    · obtain ⟨old, other, present, same, settles⟩ := resolves.owned claimed.id writes
      obtain rfl := claimed_unique claims.distinct present member same
      exact Outcome.settles framed (progress.untouched _ (.inl old)) settles
    · have resolved : claimed.id ∉ early.2 := by
        intro old
        rw [resolves.released] at gone
        exact gone ⟨old, writes⟩
      exact (progress.resolved claimed member resolved).untouched (framed.untouched resolves.single writes)
  · intro id row absent found
    have foreign : id ∉ batch.map ClaimedAuthor.id := by
      intro member
      obtain ⟨claimed, present, rfl⟩ := List.mem_map.mp member
      obtain ⟨columns, there, _⟩ := claims.rows claimed present
      rw [absent] at there
      cases there
    cases earlier : early.1.rows id with
    | some old =>
      have kept := framed.columns resolves.single id old earlier (apart foreign)
      obtain rfl := Option.some.inj (kept.symm.trans found)
      exact progress.fresh id old absent earlier
    | none =>
      obtain ⟨upserts, fresh⟩ := framed.fresh id row earlier found
      obtain ⟨claimed, member, vfl, listed, named⟩ := resolves.named row.pubkey upserts
      refine ⟨fresh, claimed, member, vfl, listed, ?_⟩
      cases named with
      | inr followee => exact followee
      | inl own =>
        obtain ⟨columns, there, _⟩ := claims.rows claimed member
        have known : before.keyed claimed.id claimed.pubkey := ⟨columns, there⟩
        have standing := (progress.persists.trans framed.persists).keyed known
        have same := Database.keyed_unique standing (own ▸ Database.keyed_of_row found)
        exact absurd (List.mem_map_of_mem member) (same ▸ foreign)

/-- A batch over a fetched union, from its first statement to its last. -/
theorem processBatch_progress (faithful : Faithful verifier before) (claims : Claims before batch)
    (verified : gate.verify = verifier.verify) (disabled : fallback.enabled = false) {events : List Event}
    (run : Runs sql (processBatch gate maxAttempts fallback batch (.ok events)).run before reply after) :
    ∃ pending, Progress verifier (gate.listFor batch events) (timestampToDatetime gate.now) batch before
      (after, pending) ∧ (∀ claimed ∈ batch, claimed.id ∉ pending) ∧
      reply = .ok (resolvedCount (gate.listFor batch events) batch) := by
  have backed : Backed verifier (gate.listFor batch events) := by
    intro claimed vfl listed
    obtain ⟨winner, followees, wins, author, extracted, made⟩ := listFor_eq_some verifier verified listed
    obtain ⟨_, _, best, _⟩ := wins
    exact ⟨winner, gate.followCap, followees, best.member.2.1, author, extracted, made⟩
  have keyed (claimed : ClaimedAuthor) (member : claimed ∈ batch) :
      before.keyed claimed.id claimed.pubkey := by
    obtain ⟨columns, found, _⟩ := claims.rows claimed member
    exact ⟨columns, found⟩
  have ready : Ready batch (before, {id | id ∈ batch.map ClaimedAuthor.id}) :=
    fun claimed member => ⟨List.mem_map_of_mem member, keyed claimed member⟩
  have start : Progress verifier (gate.listFor batch events) (timestampToDatetime gate.now) batch before
      (before, {id | id ∈ batch.map ClaimedAuthor.id}) := by
    refine ⟨.refl before, faithful, (fun _ _ => ⟨fun _ found => found, fun _ => Iff.rfl⟩), ?_, ?_⟩
    · intro claimed member gone
      exact absurd (List.mem_map_of_mem member) gone
    · intro id row absent found
      exact absurd (absent.symm.trans found) (by simp)
  have resolved : Safe (leasing fun _ => True) alone
      (Resolves (gate.listFor batch events) (timestampToDatetime gate.now) batch)
      (succeeds fun count later => (∀ claimed ∈ batch, claimed.id ∉ later.2) ∧
        count = resolvedCount (gate.listFor batch events) batch)
      (processBatch gate maxAttempts fallback batch (.ok events)).run
      (before, {id | id ∈ batch.map ClaimedAuthor.id}) :=
    processBatch_resolves alone_within disabled claims.distinct ready events
  have kept := resolved.remember
    (Progress verifier (gate.listFor batch events) (timestampToDatetime gate.now) batch before) start
    (fun moved progress => by have same := moved; subst same; exact progress)
    (fun resolves progress => progress.step claims backed resolves)
  obtain ⟨pending, noted⟩ := run.noting {id | id ∈ batch.map ClaimedAuthor.id}
  obtain ⟨progress, ended⟩ := kept.must _ _ noted
  cases reply with
  | error error => exact ended.elim
  | ok count => exact ⟨pending, progress, ended.1, congrArg Except.ok ended.2⟩

/-- What a batch comes to when its union could not be fetched. -/
structure Requeued (maxAttempts : Int) (stamp : DateTime) (batch : List ClaimedAuthor)
    (before after : Database) : Prop where
  requeued : ∀ claimed ∈ batch, ∀ row, before.rows claimed.id = some row →
    after.rows claimed.id = some ⟨row.pubkey, row.columns.requeue maxAttempts stamp⟩
  untouched : ∀ id, id ∉ batch.map ClaimedAuthor.id → after.rows id = before.rows id
  follows : after.follows = before.follows

/-- A row that has attempts left for one more requeue. -/
def Requeueable (db : Database) (batch : List ClaimedAuthor) : Prop :=
  ∀ claimed ∈ batch, ∀ row, db.rows claimed.id = some row → row.columns.fetchAttempts < 32767

theorem requeueAll_spec (distinct : (batch.map ClaimedAuthor.id).Nodup)
    (run : Runs sql (requeueAll maxAttempts stamp batch).run before reply after) :
    (Faithful verifier before → Faithful verifier after) ∧
      (reply = .ok () → Requeued maxAttempts stamp batch before after) ∧
      (Requeueable before batch → reply = .ok ()) := by
  induction batch generalizing before with
  | nil =>
    obtain ⟨rfl, rfl⟩ := runs_ret_iff.mp run
    exact ⟨fun faithful => faithful, fun _ => ⟨by simp, fun _ _ => rfl, rfl⟩, fun _ => rfl⟩
  | cons claimed rest ih =>
    obtain ⟨apart, others⟩ := List.nodup_cons.mp distinct
    obtain ⟨answer, between, ⟨now, locked, _, executes⟩, left⟩ := runs_call_iff.mp run
    have framed := executes.framed
    simp only [Stmt.Executes] at executes
    split at executes
    · rename_i exhausted
      obtain ⟨rfl, rfl⟩ := executes
      obtain ⟨rfl, rfl⟩ := runs_ret_iff.mp left
      refine ⟨fun faithful => faithful, (fun impossible => by cases impossible), ?_⟩
      intro requeueable
      obtain ⟨row, found, past⟩ := (Option.any_eq_true _ _).mp exhausted
      have room := requeueable claimed (List.mem_cons_self ..) row found
      simp only [decide_eq_true_eq] at past
      omega
    · obtain ⟨rfl, rfl⟩ := executes
      have kept (id : Nat) (other : id ≠ claimed.id) :
          (before.updateRow claimed.id (Columns.requeue maxAttempts stamp)).rows id = before.rows id :=
        Database.updateRow_rows_of_ne _ _ other
      obtain ⟨faithful, requeued, succeeded⟩ := ih others left
      refine ⟨fun old => faithful (old.edgeless framed rfl), ?_, ?_⟩
      · intro done
        obtain ⟨rows, untouched, follows⟩ := requeued done
        refine ⟨?_, ?_, follows⟩
        · intro other member row found
          cases List.mem_cons.mp member with
          | inl head =>
            subst head
            rw [untouched other.id apart, Database.updateRow_rows_self, found]
            rfl
          | inr tail =>
            apply rows other tail row
            rw [kept]
            · exact found
            · intro same
              exact apart (same ▸ List.mem_map_of_mem tail)
        · intro id outside
          obtain ⟨different, elsewhere⟩ := not_or.mp (fun member => outside (List.mem_cons.mpr member))
          rw [untouched id elsewhere, kept id different]
      · intro requeueable
        apply succeeded
        intro other member row found
        rw [kept] at found
        · exact requeueable other (List.mem_cons_of_mem _ member) row found
        · intro same
          exact apart (same ▸ List.mem_map_of_mem member)

/-- One batch after another, the rows stay faithful. -/
theorem Sequential.faithful (reached : Sequential verifier db) : Faithful verifier db := by
  induction reached with
  | start =>
    rintro id key ⟨columns, found⟩
    cases found
  | @batch before batch gate fallback maxAttempts unionFetch reply after run claims verified disabled processed ih =>
    cases unionFetch with
    | ok events =>
      obtain ⟨pending, progress, _⟩ := processBatch_progress ih claims verified disabled processed
      exact progress.faithful
    | error error =>
      unfold processBatch at processed
      split at processed
      · obtain ⟨_, rfl⟩ := runs_ret_iff.mp processed
        exact ih
      · obtain ⟨result, between, requeued, rest⟩ := runs_bind_iff.mp processed
        have kept := (requeueAll_spec claims.distinct requeued).1 ih
        cases result with
        | ok done =>
          obtain ⟨_, rfl⟩ := runs_ret_iff.mp rest
          exact kept
        | error error =>
          obtain ⟨_, rfl⟩ := runs_ret_iff.mp rest
          exact kept
  | frontier run edgeless executed ih =>
    obtain ⟨now, locked, _, executes⟩ := executed
    exact ih.edgeless executes.framed edgeless

/-- What a batch comes to when its union was fetched. -/
structure Resolved (verifier : Verifier) (gate : GateParams) (events : List Event)
    (batch : List ClaimedAuthor) (before after : Database) (count : Nat) : Prop where
  fetched : ∀ claimed ∈ batch, ∀ winner, Wins verifier gate events claimed winner →
    (∃ row, after.rows claimed.id = some row ∧ row.columns.status = .fetched) ∧ Holds after claimed.id winner
  missed : ∀ claimed ∈ batch, (¬ ∃ winner, Wins verifier gate events claimed winner) →
    (∃ row, after.rows claimed.id = some row ∧ row.columns.status = .notFound) ∧
      ∀ followee, (claimed.id, followee) ∈ after.follows ↔ (claimed.id, followee) ∈ before.follows
  settled : ∀ claimed ∈ batch, ∀ row, after.rows claimed.id = some row → row.columns.status ≠ .inProgress
  untouched : ∀ id, id ∉ batch.map ClaimedAuthor.id → before.Untouched after id
  fresh : ∀ id row, before.rows id = none → after.rows id = some row → row.columns = Columns.default ∧
    ∃ claimed ∈ batch, ∃ winner, Wins verifier gate events claimed winner ∧
      ∃ followee ∈ followeeSet winner, followee.bytes = row.pubkey
  count : count = (batch.filter (fun claimed =>
    (after.rows claimed.id).any (fun row => row.columns.status = .fetched))).length

/-- A row that records the event of an author's winner holds it. -/
private theorem holds_winner (faithful : Faithful verifier db) {winner event : Event}
    (verified : verifier.verify winner = true) (same : event.id = winner.id)
    (keyed : db.keyed id key) {row : PubkeyRow} (found : db.rows id = some row)
    (applied : row.columns.appliedEventId = some event.id.bytes) : Holds db id winner := by
  cases faithful id key keyed with
  | inl blank =>
    have unapplied := blank.1 row found
    rw [applied] at unapplied
    cases unapplied
  | inr held =>
    obtain ⟨held, heldVerified, _, holds⟩ := held
    obtain ⟨other, there, recorded, _⟩ := holds.applied
    obtain rfl := Option.some.inj (there.symm.trans found)
    have ids := EventId.bytes_injective (Option.some.inj (recorded.symm.trans applied))
    exact holds.of_copy verifier heldVerified verified (ids.trans same)

private theorem resolved_of_progress {events : List Event} (claims : Claims before batch)
    (verified : gate.verify = verifier.verify) {pending : Set Nat}
    (progress : Progress verifier (gate.listFor batch events) (timestampToDatetime gate.now) batch before
      (after, pending)) (done : ∀ claimed ∈ batch, claimed.id ∉ pending) :
    Resolved verifier gate events batch before after (resolvedCount (gate.listFor batch events) batch) := by
  have outcome (claimed : ClaimedAuthor) (member : claimed ∈ batch) :=
    progress.resolved claimed member (done claimed member)
  have hit (claimed : ClaimedAuthor) (vfl : ValidatedFollowList) (member : claimed ∈ batch)
      (listed : gate.listFor batch events claimed = some vfl) : ∃ row, after.rows claimed.id = some row ∧
        row.columns.status = .fetched ∧ row.columns.appliedEventId = some vfl.eventId.bytes := by
    have holds := outcome claimed member
    rwa [listed] at holds
  have miss (claimed : ClaimedAuthor) (member : claimed ∈ batch)
      (listless : gate.listFor batch events claimed = none) :
      (∃ row, after.rows claimed.id = some row ∧ row.columns.status = .notFound) ∧
        ∀ followee, (claimed.id, followee) ∈ after.follows ↔ (claimed.id, followee) ∈ before.follows := by
    have holds := outcome claimed member
    rw [listless] at holds
    obtain ⟨columns, found, _⟩ := claims.rows claimed member
    exact ⟨⟨_, holds.1 _ found, rfl⟩, holds.2⟩
  refine ⟨?_, ?_, ?_, ?_, ?_, ?_⟩
  · intro claimed member winner wins
    obtain ⟨vfl, listed⟩ := listFor_isSome verifier verified member wins
    obtain ⟨row, found, status, applied⟩ := hit claimed vfl member listed
    obtain ⟨emitted, followees, best, _, _, rfl⟩ := listFor_eq_some verifier verified listed
    obtain ⟨author, parsed, newest, _⟩ := wins
    obtain ⟨other, reparsed, newestToo, _⟩ := best
    obtain rfl := Option.some.inj (parsed.symm.trans reparsed)
    obtain ⟨columns, present, _⟩ := claims.rows claimed member
    have keyed : after.keyed claimed.id claimed.pubkey := progress.persists.keyed ⟨columns, present⟩
    exact ⟨⟨row, found, status⟩, holds_winner progress.faithful newest.member.2.1
      (newestToo.id_eq newest) keyed found applied⟩
  · intro claimed member winless
    cases listed : gate.listFor batch events claimed with
    | none => exact miss claimed member listed
    | some vfl =>
      obtain ⟨winner, _, wins, _⟩ := listFor_eq_some verifier verified listed
      exact absurd ⟨winner, wins⟩ winless
  · intro claimed member row found
    cases listed : gate.listFor batch events claimed with
    | none =>
      obtain ⟨other, there, status⟩ := (miss claimed member listed).1
      obtain rfl := Option.some.inj (there.symm.trans found)
      simp [status]
    | some vfl =>
      obtain ⟨other, there, status, _⟩ := hit claimed vfl member listed
      obtain rfl := Option.some.inj (there.symm.trans found)
      simp [status]
  · exact fun id outside => progress.untouched id (.inr outside)
  · intro id row absent found
    obtain ⟨fresh, claimed, member, vfl, listed, followee, named, key⟩ := progress.fresh id row absent found
    obtain ⟨winner, followees, wins, _, extracted, rfl⟩ := listFor_eq_some verifier verified listed
    have same := (followeePubkeys_spec extracted).2.1
    exact ⟨fresh, claimed, member, winner, wins, followee, same ▸ List.mem_toFinset.mpr named, key⟩
  · unfold resolvedCount
    congr 1
    apply List.filter_congr
    intro claimed member
    cases listed : gate.listFor batch events claimed with
    | none =>
      obtain ⟨row, found, status⟩ := (miss claimed member listed).1
      simp [found, status]
    | some vfl =>
      obtain ⟨row, found, status, _⟩ := hit claimed vfl member listed
      simp [found, status]

/-- A batch resolves every claimed author by its NIP-01 winner or as `not_found`, counts those
fetched, and touches nothing else; without a union each claimed row is requeued once. -/
theorem batch_resolved (reached : Sequential verifier before) (claims : Claims before batch)
    (verified : gate.verify = verifier.verify) (disabled : fallback.enabled = false) :
    (∀ events, May sql (processBatch gate maxAttempts fallback batch (.ok events)).run before (fun _ _ => True) ∧
      Must sql (processBatch gate maxAttempts fallback batch (.ok events)).run before fun reply after =>
        ∃ count, reply = .ok count ∧ Resolved verifier gate events batch before after count) ∧
    ∀ error, May sql (processBatch gate maxAttempts fallback batch (.error error)).run before (fun _ _ => True) ∧
      Must sql (processBatch gate maxAttempts fallback batch (.error error)).run before fun reply after =>
        (∀ count, reply = .ok count → count = 0 ∧
          Requeued maxAttempts (timestampToDatetime gate.now) batch before after) ∧
        (Requeueable before batch → reply = .ok 0) := by
  have total (prog : Prog Sql (Except StoreError Nat)) : May sql prog before (fun _ _ => True) :=
    May.of_total sql_total prog before
  refine ⟨fun events => ⟨total _, ?_⟩, fun error => ⟨total _, ?_⟩⟩
  · intro reply after run
    obtain ⟨pending, progress, done, rfl⟩ := processBatch_progress reached.faithful claims verified disabled run
    exact ⟨_, rfl, resolved_of_progress claims verified progress done⟩
  · intro reply after run
    unfold processBatch at run
    split at run
    · rename_i empty
      obtain ⟨rfl, rfl⟩ := runs_ret_iff.mp run
      refine ⟨?_, fun _ => rfl⟩
      intro count answered
      refine ⟨(Except.ok.inj answered).symm, ?_⟩
      exact ⟨(fun claimed member => by simp [empty] at member), fun _ _ => rfl, rfl⟩
    · obtain ⟨result, between, requeued, rest⟩ := runs_bind_iff.mp run
      obtain ⟨_, all, succeeded⟩ : (Faithful verifier before → Faithful verifier between) ∧ _ ∧ _ :=
        requeueAll_spec claims.distinct requeued
      cases result with
      | ok done =>
        obtain ⟨rfl, rfl⟩ := runs_ret_iff.mp rest
        exact ⟨fun count answered => ⟨(Except.ok.inj answered).symm, all rfl⟩, fun _ => rfl⟩
      | error error =>
        obtain ⟨rfl, rfl⟩ := runs_ret_iff.mp rest
        refine ⟨(fun count impossible => by cases impossible), ?_⟩
        intro requeueable
        cases succeeded requeueable

/-- One claimed author whose list the union holds in two versions. -/
def versionsGate : GateParams := ⟨versionsVerifier.verify, Kind.contactList, 100, 0, 10⟩

private theorem claimedRow_reached : Sequential versionsVerifier claimedRow := by
  have seeded : Sequential versionsVerifier Fleet.oneRow := .frontier .start rfl oneRow_upserts
  exact .frontier seeded rfl oneRow_claims

theorem claimedRow_claims : Claims claimedRow [Fleet.soleAuthor] where
  distinct := List.nodup_singleton _
  rows := by
    intro claimed member
    obtain rfl := List.mem_singleton.mp member
    have row : claimedRow.rows 1 = some ⟨List.replicate 32 1, Columns.default.claim 0⟩ := by decide
    exact ⟨_, row, rfl⟩

/-- The theorem at that author. -/
theorem batch_resolved_versions : Sequential versionsVerifier claimedRow ∧ Claims claimedRow [Fleet.soleAuthor] ∧
    Must sql (processBatch versionsGate 3 noOpFallback [Fleet.soleAuthor] (.ok [olderEvent, newerEvent])).run claimedRow
      fun reply after => ∃ count, reply = .ok count ∧
        Resolved versionsVerifier versionsGate [olderEvent, newerEvent] [Fleet.soleAuthor] claimedRow after count :=
  ⟨claimedRow_reached, claimedRow_claims,
    ((batch_resolved claimedRow_reached claimedRow_claims rfl rfl).1 [olderEvent, newerEvent]).2⟩

end WotCrawler.Crawl
