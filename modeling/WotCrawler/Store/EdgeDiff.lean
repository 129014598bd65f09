import WotCrawler.Store.Interleaving

/-! The edge writer with its transaction opened up. One call at a time, it replaces the follower's
edges by the list; a call that fails at any statement changes nothing. -/

namespace WotCrawler.Store

open Effect Sequence Ingest

/-- The statements of `apply_follow_list`, those of its transaction one by one. -/
inductive EdgeStmt where
  | selectAppliedEvent (followerId : Nat)
  | confirmFetched (followerId : Nat)
  | selectFollowees (followerId : Nat)
  | beginTx
  | deleteFollow (followerId followeeId : Nat)
  | insertFollow (followerId followeeId : Nat)
  | updateApplied (followerId : Nat) (eventId : Bytes) (createdAt : DateTime) (changed : Bool)
  | commitTx

/-- What a statement returns when it succeeds. -/
abbrev EdgeStmt.Ret : EdgeStmt → Type
  | .selectAppliedEvent _ => Option Bytes
  | .selectFollowees _ => List Nat
  | _ => Unit

/-- The committed tables, and those that the open transaction has written. -/
structure Session where
  committed : Database
  working : Option Database

namespace Session

/-- Outside any transaction. -/
def idle (db : Database) : Session := ⟨db, none⟩

/-- A statement of the open transaction, which its error ends without a trace. -/
def Changes (change : Database → Except StoreError Database) (before : Session)
    (reply : Except StoreError Unit) (after : Session) : Prop :=
  ∃ working, before.working = some working ∧
    match change working with
    | .ok next => reply = .ok () ∧ after = ⟨before.committed, some next⟩
    | .error error => reply = .error error ∧ after = idle before.committed

end Session

/-- What a statement may reply and leave behind, given the transaction's `now()`. -/
def EdgeStmt.Executes (now : DateTime) : (stmt : EdgeStmt) → Session → Except StoreError stmt.Ret →
    Session → Prop
  | .selectAppliedEvent followerId, before, reply, after => after = before ∧
      reply = match before.committed.rows followerId with
        | some row => .ok row.columns.appliedEventId
        | none => .error (.sqlx .rowNotFound)
  | .confirmFetched followerId, before, reply, after =>
      reply = .ok () ∧ after = ⟨before.committed.updateRow followerId (Columns.confirm now), before.working⟩
  | .selectFollowees followerId, before, reply, after => after = before ∧
      ∃ rows, reply = .ok rows ∧ rows.Nodup ∧
        ∀ followee, followee ∈ rows ↔ (followerId, followee) ∈ before.committed.follows
  | .beginTx, before, reply, after => reply = .ok () ∧ after = ⟨before.committed, some before.committed⟩
  | .deleteFollow followerId followeeId, before, reply, after =>
      Session.Changes (fun db => .ok (db.deleteFollow followerId followeeId)) before reply after
  | .insertFollow followerId followeeId, before, reply, after =>
      Session.Changes (fun db => db.insertFollow followerId followeeId) before reply after
  | .updateApplied followerId eventId createdAt changed, before, reply, after =>
      Session.Changes (fun db => .ok (db.updateRow followerId (Columns.apply now eventId createdAt changed)))
        before reply after
  | .commitTx, before, reply, after =>
      ∃ working, before.working = some working ∧ reply = .ok () ∧ after = .idle working

abbrev EdgeSql : Signature where
  Op := EdgeStmt
  Ret := fun stmt => Except StoreError stmt.Ret

/-- One caller's session: each statement is executed, or fails as it may and undoes its transaction. -/
def session (fails : EdgeStmt → StoreError → Prop) : Machine EdgeSql Session where
  exec := fun stmt before reply after =>
    (∃ now, stmt.Executes now before reply after) ∨
      ∃ error, fails stmt error ∧ reply = .error error ∧ after = .idle before.committed

namespace EdgeDiff

abbrev EdgeM := ExceptT StoreError (Prog EdgeSql)

def execute (stmt : EdgeStmt) : EdgeM stmt.Ret := ExceptT.mk (@Prog.perform EdgeSql stmt)

def forEach (stmt : Nat → EdgeStmt) : List Nat → EdgeM Unit
  | [] => return ()
  | followeeId :: rest => do
    let _ ← execute (stmt followeeId)
    forEach stmt rest

def applyFollowList (followerId : Nat) (eventId : Bytes) (createdAt : DateTime)
    (followeeIds : List Nat) : EdgeM Bool := do
  let currentEvent ← execute (.selectAppliedEvent followerId)
  if currentEvent = some eventId then
    execute (.confirmFetched followerId)
    return false
  else
    let newSet := (followeeIds.filter (fun id => id ≠ followerId)).dedup
    let currentSet ← execute (.selectFollowees followerId)
    let added := newSet.filter (fun id => id ∉ currentSet)
    let removed := currentSet.filter (fun id => id ∉ newSet)
    let changed := !added.isEmpty || !removed.isEmpty
    execute .beginTx
    forEach (.deleteFollow followerId) removed
    forEach (.insertFollow followerId) added
    execute (.updateApplied followerId eventId createdAt changed)
    execute .commitTx
    return true

end EdgeDiff

namespace Call

def statements (call : Call) : Prog EdgeSql (Except StoreError Bool) :=
  (EdgeDiff.applyFollowList call.follower call.eventId call.createdAt call.followeeIds).run

/-- The follower and the followees have rows. -/
def Known (call : Call) (db : Database) : Prop :=
  (db.rows call.follower).isSome ∧ ∀ followee ∈ call.followeeIds, (db.rows followee).isSome

def newSet (call : Call) : List Nat := (call.followeeIds.filter (fun id => id ≠ call.follower)).dedup

def added (call : Call) (current : List Nat) : List Nat := call.newSet.filter (fun id => id ∉ current)

def removed (call : Call) (current : List Nat) : List Nat := current.filter (fun id => id ∉ call.newSet)

def changed (call : Call) (current : List Nat) : Bool :=
  !(call.added current).isEmpty || !(call.removed current).isEmpty

/-- The edges of the call's follower, read in some order. -/
def Reads (call : Call) (db : Database) (current : List Nat) : Prop :=
  current.Nodup ∧ ∀ followee, followee ∈ current ↔ (call.follower, followee) ∈ db.follows

/-- What a call that succeeds returns and leaves behind. -/
inductive Writes (call : Call) (before : Database) : Bool → Database → Prop where
  | confirmed (found : before.rows call.follower = some row)
      (same : row.columns.appliedEventId = some call.eventId) :
      Writes call before false (before.updateRow call.follower (Columns.confirm now))
  | replaced (found : before.rows call.follower = some row)
      (other : row.columns.appliedEventId ≠ some call.eventId) (reads : call.Reads before current)
      (done : before.applyDiff now call.follower (call.removed current) (call.added current) call.eventId
        call.createdAt (call.changed current) = .ok after) :
      Writes call before true after

variable {call : Call} {before after : Database} {current : List Nat}

theorem mem_newSet {followee : Nat} : followee ∈ call.newSet ↔ followee ∈ call.listed := by
  simp [newSet, listed, and_comm]

theorem Reads.edge (reads : call.Reads before current) {followee : Nat} :
    followee ∈ current ↔ followee ∈ before.followees call.follower :=
  (reads.2 followee).trans Database.mem_followees.symm

/-- The difference is empty exactly when the list is what is there. -/
theorem Reads.changed_iff (reads : call.Reads before current) :
    call.changed current = true ↔ call.listed ≠ before.followees call.follower := by
  have same : call.changed current = false ↔ call.listed = before.followees call.follower := by
    simp only [changed, added, removed, Bool.or_eq_false_iff, Bool.not_eq_false', List.isEmpty_iff,
      List.filter_eq_nil_iff, decide_eq_true_eq, not_not, mem_newSet, reads.edge, Finset.ext_iff]
    constructor
    · rintro ⟨inside, outside⟩ followee
      exact ⟨inside followee, outside followee⟩
    · intro same
      exact ⟨fun followee => (same followee).mp, fun followee => (same followee).mpr⟩
  rw [ne_eq, ← same, Bool.not_eq_false]

/-- The transaction's edges: the follower's are those listed, the others' stay. -/
theorem Reads.follows (reads : call.Reads before current)
    (done : before.applyDiff now call.follower (call.removed current) (call.added current) call.eventId
      call.createdAt (call.changed current) = .ok after) :
    after.followees call.follower = call.listed ∧
      ∀ edge, edge.1 ≠ call.follower → (edge ∈ after.follows ↔ edge ∈ before.follows) := by
  obtain ⟨_, follows⟩ := Database.applyDiff_spec done
  refine ⟨?_, ?_⟩
  · ext followee
    have present : followee ∈ current ↔ (call.follower, followee) ∈ before.follows := reads.2 followee
    rw [Database.mem_followees, follows, ← present]
    simp only [removed, added, List.mem_filter, decide_eq_true_eq, mem_newSet, Prod.mk.injEq, true_and, ne_eq]
    grind
  · intro edge apart
    have taken (followee : Nat) : edge ≠ (call.follower, followee) := fun same => apart (congrArg Prod.fst same)
    simp [follows, taken]

/-- A successful call has counted the fetch, and the change if the edges are not what they were. -/
def Counted (call : Call) (before after : Database) : Prop :=
  ∃ row kept now, before.rows call.follower = some row ∧ after.rows call.follower = some kept ∧
    kept.pubkey = row.pubkey ∧ kept.columns.status = .fetched ∧
    kept.columns.appliedEventId = some call.eventId ∧
    kept.columns.appliedCreatedAt =
      (if row.columns.appliedEventId = some call.eventId then row.columns.appliedCreatedAt else some call.createdAt) ∧
    kept.columns.lastFetchedAt = some now ∧
    kept.columns.fetchCount = row.columns.fetchCount + 1 ∧
    kept.columns.changeCount = row.columns.changeCount +
      (if after.followees call.follower ≠ before.followees call.follower then 1 else 0) ∧
    kept.columns.lastChangedAt =
      if after.followees call.follower ≠ before.followees call.follower then some now
      else row.columns.lastChangedAt

/-- The program that takes the transaction for one statement writes the same. -/
theorem Writes.runs {value : Bool} (writes : call.Writes before value after) :
    Runs sql call.prog before (.ok value) after := by
  cases writes with
  | @confirmed row now found same =>
    have selected : (Stmt.selectAppliedEvent call.follower).Executes 0 ∅ before (.ok (some call.eventId)) before :=
      ⟨rfl, by rw [found, ← same]⟩
    refine .call ⟨0, ∅, trivial, selected⟩ ?_
    change Runs sql (if some call.eventId = some call.eventId then _ else _ : StoreM Bool).run before _ _
    rw [if_pos rfl]
    exact .call ⟨now, ∅, trivial, rfl, rfl⟩ .ret
  | @replaced row current now _ found other reads done =>
    have selected : (Stmt.selectAppliedEvent call.follower).Executes 0 ∅ before
        (.ok row.columns.appliedEventId) before := ⟨rfl, by rw [found]⟩
    have read : (Stmt.selectFollowees call.follower).Executes 0 ∅ before (.ok current) before :=
      ⟨rfl, current, rfl, reads.1, reads.2⟩
    have applied : Stmt.Executes now ∅ (.applyDiff call.follower (call.removed current) (call.added current)
        call.eventId call.createdAt (call.changed current)) before (.ok ()) after := by
      simp only [Stmt.Executes, done, Commits, and_self]
    refine .call ⟨0, ∅, trivial, selected⟩ ?_
    change Runs sql (if row.columns.appliedEventId = some call.eventId then _ else _ : StoreM Bool).run before _ _
    rw [if_neg other]
    exact .call ⟨0, ∅, trivial, read⟩ (.call ⟨now, ∅, trivial, applied⟩ .ret)

/-- What a successful call makes of the tables. -/
structure Replaced (call : Call) (before after : Database) : Prop where
  fresh : ∀ row, before.rows call.follower = some row → row.columns.appliedEventId ≠ some call.eventId →
    after.followees call.follower = call.listed
  same : ∀ row, before.rows call.follower = some row → row.columns.appliedEventId = some call.eventId →
    after.follows = before.follows
  others : ∀ edge, edge.1 ≠ call.follower → (edge ∈ after.follows ↔ edge ∈ before.follows)
  counted : call.Counted before after
  rows : ∀ id, id ≠ call.follower → after.rows id = before.rows id

/-- What a call that succeeds writes is the list, counted. -/
theorem Writes.effect {value : Bool} (writes : call.Writes before value after) :
    call.Replaced before after := by
  cases writes with
  | @confirmed row now found same =>
    have kept : (before.updateRow call.follower (Columns.confirm now)).rows call.follower =
        some ⟨row.pubkey, row.columns.confirm now⟩ := by simp [found]
    refine ⟨?_, fun _ _ _ => rfl, fun _ _ => Iff.rfl, ?_, fun id apart => Database.updateRow_rows_of_ne _ _ apart⟩
    · intro other present differs
      obtain rfl := Option.some.inj (found.symm.trans present)
      exact absurd same differs
    · have edges : (before.updateRow call.follower (Columns.confirm now)).followees call.follower =
          before.followees call.follower := rfl
      refine ⟨row, _, now, found, kept, rfl, rfl, same, (if_pos same).symm, rfl, rfl, ?_, ?_⟩
      · simp [edges, Columns.confirm]
      · simp [edges, Columns.confirm]
  | @replaced row current now _ found other reads done =>
    obtain ⟨edges, others⟩ := reads.follows done
    have rows := (Database.applyDiff_spec done).1
    have kept : after.rows call.follower =
        some ⟨row.pubkey, row.columns.apply now call.eventId call.createdAt (call.changed current)⟩ := by
      rw [rows]
      simp [found]
    refine ⟨fun _ _ _ => edges, ?_, others, ?_, ?_⟩
    · intro second present same
      obtain rfl := Option.some.inj (found.symm.trans present)
      exact absurd same other
    · refine ⟨row, _, now, found, kept, rfl, rfl, rfl, (if_neg other).symm, rfl, rfl, ?_, ?_⟩
      · rw [edges]
        simp only [Columns.apply, reads.changed_iff]
      · rw [edges]
        simp only [Columns.apply, reads.changed_iff]
    · intro id apart
      rw [rows]
      exact Database.updateRow_rows_of_ne _ _ apart

end Call

namespace EdgeDiff

/-- An insert adds a new edge between two different rows. -/
def Clean (stmt : EdgeStmt) (session : Session) : Prop :=
  match stmt with
  | .insertFollow followerId followeeId => ∃ working, session.working = some working ∧
      followerId ≠ followeeId ∧ (followerId, followeeId) ∉ working.follows ∧
      (working.rows followerId).isSome ∧ (working.rows followeeId).isSome
  | _ => True

/-- How a call ends: it has written, or a statement failed and nothing changed. -/
def Ends (fails : EdgeStmt → StoreError → Prop) (call : Call) (db : Database) :
    Except StoreError Bool → Session → Prop
  | .ok value, left => ∃ after, left = .idle after ∧ call.Writes db value after
  | .error error, left => left = .idle db ∧ ∃ stmt, fails stmt error

section Walk

variable {fails : EdgeStmt → StoreError → Prop} {db working : Database} {post : Except StoreError β → Session → Prop}

/-- A program whose inserts are clean, and its end. -/
abbrev Walks (fails : EdgeStmt → StoreError → Prop) (post : α → Session → Prop) (prog : Prog EdgeSql α)
    (state : Session) : Prop :=
  Safe (session fails) .solitary (fun stmt before _ => Clean stmt before) post prog state

/-- An error that a statement meets ends the program as described. -/
def Undone (fails : EdgeStmt → StoreError → Prop) (db : Database) (post : Except StoreError β → Session → Prop) :
    Prop :=
  ∀ stmt error, fails stmt error → post (.error error) (.idle db)

/-- The rule of one statement, which is executed or ends the program. -/
private theorem execute_walks {stmt : EdgeStmt} {state : Session} {middle : stmt.Ret → Session → Prop}
    (undone : Undone fails db post) (outer : state.committed = db) (clean : Clean stmt state)
    (step : ∀ now reply after, stmt.Executes now state reply after → ∃ value, reply = .ok value ∧ middle value after) :
    Walks fails (Safe.orFails middle post) (execute stmt).run state := by
  apply Safe.perform
  intro before reply after same executed
  obtain rfl : before = state := same
  refine ⟨clean, ?_⟩
  intro later still
  obtain rfl : later = after := still
  rcases executed with ⟨now, executes⟩ | ⟨error, failed, rfl, rfl⟩
  · obtain ⟨value, rfl, holds⟩ := step now reply later executes
    exact holds
  · exact outer ▸ undone stmt error failed

/-- What a change of the open transaction leaves, when it succeeds. -/
private theorem changes_ok {change : Database → Except StoreError Database} {reply : Except StoreError Unit}
    (changes : Session.Changes change ⟨db, some working⟩ reply after) (done : change working = .ok next) :
    reply = .ok () ∧ after = ⟨db, some next⟩ := by
  obtain ⟨_, same, changed⟩ := changes
  obtain rfl := Option.some.inj same
  rw [done] at changed
  exact changed

/-- The deletions, one by one. -/
private theorem deletes_walk (undone : Undone fails db post) (followerId : Nat) (removed : List Nat)
    (working : Database) :
    Walks fails (Safe.orFails (fun _ left => left = ⟨db, some (removed.foldl
        (fun db followee => db.deleteFollow followerId followee) working)⟩) post)
      (forEach (.deleteFollow followerId) removed).run ⟨db, some working⟩ := by
  induction removed generalizing working with
  | nil => exact Safe.ret fun _ same => same
  | cons followee rest ih =>
    have first : Walks fails (Safe.orFails (fun _ left => left = ⟨db, some (working.deleteFollow followerId followee)⟩)
        (Safe.orFails (fun (_ : Unit) left => left = ⟨db, some (rest.foldl
          (fun db followee => db.deleteFollow followerId followee) (working.deleteFollow followerId followee))⟩) post))
        (execute (.deleteFollow followerId followee)).run ⟨db, some working⟩ := by
      apply execute_walks undone rfl (by trivial)
      intro now reply after executes
      have changes : Session.Changes (fun db => .ok (db.deleteFollow followerId followee))
        ⟨db, some working⟩ reply after := executes
      exact ⟨(), changes_ok changes rfl⟩
    unfold forEach
    apply first.except_bind
    rintro _ later rfl
    exact ih _

/-- The inserts, one by one, each of a new edge. -/
private theorem inserts_walk (undone : Undone fails db post) (followerId : Nat) (added : List Nat)
    (working : Database) (nodup : added.Nodup) (present : (working.rows followerId).isSome)
    (fresh : ∀ followee ∈ added, followerId ≠ followee ∧ (working.rows followee).isSome ∧
      (followerId, followee) ∉ working.follows) :
    Walks fails (Safe.orFails (fun _ left => ∃ next, left = ⟨db, some next⟩ ∧
        added.foldlM (fun db followee => db.insertFollow followerId followee) working = .ok next) post)
      (forEach (.insertFollow followerId) added).run ⟨db, some working⟩ := by
  induction added generalizing working with
  | nil => exact Safe.ret fun _ same => ⟨working, same, rfl⟩
  | cons followee rest ih =>
    obtain ⟨apart, there, absent⟩ := fresh followee (List.mem_cons_self ..)
    obtain ⟨once, distinct⟩ := List.nodup_cons.mp nodup
    obtain ⟨next, inserted⟩ : ∃ next, working.insertFollow followerId followee = .ok next := by
      unfold Database.insertFollow
      simp [apart, present, there]
    obtain ⟨_, _, _, rows, _, _, follows⟩ := Database.insertFollow_eq_ok_iff.mp inserted
    have first : Walks fails (Safe.orFails (fun _ left => left = ⟨db, some next⟩)
        (Safe.orFails (fun (_ : Unit) left => ∃ last, left = ⟨db, some last⟩ ∧
          (followee :: rest).foldlM (fun db followee => db.insertFollow followerId followee) working = .ok last) post))
        (execute (.insertFollow followerId followee)).run ⟨db, some working⟩ := by
      have clean : Clean (.insertFollow followerId followee) ⟨db, some working⟩ :=
        ⟨working, rfl, apart, absent, present, there⟩
      apply execute_walks undone rfl clean
      intro now reply after executes
      have changes : Session.Changes (fun db => db.insertFollow followerId followee)
        ⟨db, some working⟩ reply after := executes
      exact ⟨(), changes_ok changes inserted⟩
    have others : ∀ other ∈ rest, followerId ≠ other ∧ (next.rows other).isSome ∧
        (followerId, other) ∉ next.follows := by
      intro other member
      obtain ⟨different, known, missing⟩ := fresh other (List.mem_cons_of_mem _ member)
      have new : other ≠ followee := fun same => once (same ▸ member)
      rw [rows, follows]
      refine ⟨different, known, ?_⟩
      simp [missing, new]
    unfold forEach
    apply first.except_bind
    rintro _ later rfl
    apply (ih next distinct (rows ▸ present) others).mono
    intro result left ended
    cases result with
    | error error => exact ended
    | ok value =>
      obtain ⟨last, same, done⟩ := ended
      refine ⟨last, same, ?_⟩
      rw [List.foldlM_cons, inserted]
      exact done

variable {call : Call}

theorem ends_undone : Undone fails db (Ends fails call db) := fun stmt _ failed => ⟨rfl, stmt, failed⟩

/-- The transaction, from its `BEGIN` to its `COMMIT`. -/
private theorem transaction_walks {row : PubkeyRow} {current : List Nat} (known : call.Known db)
    (found : db.rows call.follower = some row) (other : row.columns.appliedEventId ≠ some call.eventId)
    (reads : call.Reads db current) :
    Walks fails (Ends fails call db) (do
      execute .beginTx
      forEach (.deleteFollow call.follower) (call.removed current)
      forEach (.insertFollow call.follower) (call.added current)
      execute (.updateApplied call.follower call.eventId call.createdAt (call.changed current))
      execute .commitTx
      return true : EdgeM Bool).run (.idle db) := by
  have begun : Walks fails (Safe.orFails (fun _ left => left = ⟨db, some db⟩) (Ends fails call db))
      (execute .beginTx).run (.idle db) := by
    apply execute_walks ends_undone rfl (by trivial)
    rintro now reply after ⟨rfl, rfl⟩
    exact ⟨(), rfl, rfl⟩
  apply begun.except_bind
  rintro _ _ rfl
  apply (deletes_walk ends_undone call.follower (call.removed current) db).except_bind
  rintro _ _ rfl
  obtain ⟨rows, deleted⟩ := Database.deleteFollows_spec db call.follower (call.removed current)
  have nodup : (call.added current).Nodup := (List.nodup_dedup _).filter _
  have present : ((call.removed current).foldl (fun db followee => db.deleteFollow call.follower followee) db).rows
      call.follower = some row := rows ▸ found
  have fresh : ∀ followee ∈ call.added current, call.follower ≠ followee ∧
      (((call.removed current).foldl (fun db followee => db.deleteFollow call.follower followee) db).rows
        followee).isSome ∧ (call.follower, followee) ∉
      ((call.removed current).foldl (fun db followee => db.deleteFollow call.follower followee) db).follows := by
    intro followee member
    obtain ⟨new, missing⟩ := List.mem_filter.mp member
    have listed := Call.mem_newSet.mp new
    obtain ⟨apart, inside⟩ := Finset.mem_erase.mp listed
    rw [rows, deleted]
    refine ⟨apart.symm, known.2 followee (List.mem_toFinset.mp inside), ?_⟩
    rintro ⟨edge, _⟩
    exact of_decide_eq_true missing ((reads.2 followee).mpr edge)
  apply (inserts_walk ends_undone call.follower _ _ nodup (by simp [present]) fresh).except_bind
  rintro _ _ ⟨inserted, rfl, done⟩
  have updated : Walks fails (Safe.orFails (fun _ left => ∃ now, left = ⟨db, some (inserted.updateRow call.follower
      (Columns.apply now call.eventId call.createdAt (call.changed current)))⟩) (Ends fails call db))
      (execute (.updateApplied call.follower call.eventId call.createdAt (call.changed current))).run
      ⟨db, some inserted⟩ := by
    apply execute_walks ends_undone rfl (by trivial)
    intro now reply after executes
    have changes : Session.Changes (fun db => .ok (db.updateRow call.follower
      (Columns.apply now call.eventId call.createdAt (call.changed current)))) ⟨db, some inserted⟩ reply after :=
      executes
    obtain ⟨rfl, rfl⟩ := changes_ok changes rfl
    exact ⟨(), rfl, now, rfl⟩
  apply updated.except_bind
  rintro _ _ ⟨now, rfl⟩
  have applied : db.applyDiff now call.follower (call.removed current) (call.added current) call.eventId
      call.createdAt (call.changed current) = .ok (inserted.updateRow call.follower
        (Columns.apply now call.eventId call.createdAt (call.changed current))) := by
    unfold Database.applyDiff
    simp only [done]
    rfl
  have committed : Walks fails (Safe.orFails (fun _ left => left = .idle (inserted.updateRow call.follower
      (Columns.apply now call.eventId call.createdAt (call.changed current)))) (Ends fails call db))
      (execute .commitTx).run ⟨db, some (inserted.updateRow call.follower
        (Columns.apply now call.eventId call.createdAt (call.changed current)))⟩ := by
    apply execute_walks ends_undone rfl (by trivial)
    rintro _ reply after ⟨_, same, rfl, rfl⟩
    obtain rfl := Option.some.inj same
    exact ⟨(), rfl, rfl⟩
  apply committed.except_bind
  rintro _ _ rfl
  exact Safe.ret fun later same => ⟨_, same, .replaced found other reads applied⟩

/-- A call alone over existing rows: its inserts are clean, and it writes or changes nothing. -/
theorem statements_walk (known : call.Known db) :
    Walks fails (Ends fails call db) call.statements (.idle db) := by
  obtain ⟨row, found⟩ := Option.isSome_iff_exists.mp known.1
  have selected : Walks fails (Safe.orFails (fun applied left => left = .idle db ∧
      applied = row.columns.appliedEventId) (Ends fails call db))
      (execute (.selectAppliedEvent call.follower)).run (.idle db) := by
    apply execute_walks ends_undone rfl (by trivial)
    rintro now reply after ⟨rfl, rfl⟩
    have there : (Session.idle db).committed.rows call.follower = some row := found
    exact ⟨row.columns.appliedEventId, by rw [there], rfl, rfl⟩
  unfold Call.statements applyFollowList
  apply selected.except_bind
  rintro _ _ ⟨rfl, rfl⟩
  split
  · rename_i same
    have confirmed : Walks fails (Safe.orFails (fun _ left => ∃ now, left = .idle (db.updateRow call.follower
        (Columns.confirm now))) (Ends fails call db)) (execute (.confirmFetched call.follower)).run (.idle db) := by
      apply execute_walks ends_undone rfl (by trivial)
      rintro now reply after ⟨rfl, rfl⟩
      exact ⟨(), rfl, now, rfl⟩
    apply confirmed.except_bind
    rintro _ _ ⟨now, rfl⟩
    exact Safe.ret fun later still => ⟨_, still, .confirmed found same⟩
  · rename_i other
    have read : Walks fails (Safe.orFails (fun current left => left = .idle db ∧ call.Reads db current)
        (Ends fails call db)) (execute (.selectFollowees call.follower)).run (.idle db) := by
      apply execute_walks ends_undone rfl (by trivial)
      rintro now reply after ⟨rfl, rows, rfl, nodup, members⟩
      exact ⟨rows, rfl, rfl, nodup, members⟩
    apply read.except_bind
    rintro current _ ⟨rfl, reads⟩
    exact transaction_walks known found other reads

end Walk

/-- A call that was made: the tables it found, its result and the tables it left. -/
structure Made where
  call : Call
  before : Database
  result : Except StoreError Bool
  after : Database

/-- Calls over existing rows, each made when the one before has returned. -/
inductive OneByOne (fails : EdgeStmt → StoreError → Prop) (start : Database) : List Made → Database → Prop where
  | refl : OneByOne fails start [] start
  | made (run : OneByOne fails start history before) (known : call.Known before)
      (ran : Runs (session fails) call.statements (.idle before) result ⟨after, working⟩) :
      OneByOne fails start (history ++ [⟨call, before, result, after⟩]) after

/-- What holds of a call that was made. -/
structure Made.Wholesale (fails : EdgeStmt → StoreError → Prop) (made : Made) : Prop where
  succeeded : ∀ changed, made.result = .ok changed → made.call.Replaced made.before made.after
  failed : ∀ error, made.result = .error error → made.after = made.before ∧ ∃ stmt, fails stmt error
  clean : Safe (session fails) .solitary (fun stmt before _ => Clean stmt before) (fun _ _ => True)
    made.call.statements (.idle made.before)

/-- The edge writer is wholesale replacement: in any sequence of calls over existing rows, a call
that succeeds leaves the follower's edges as the list names them, or untouched where the event was
applied before, and counts what it changed; a call fails only by a statement that fails, and then
leaves the tables as they were; and no insert meets an edge that exists or a self-follow. -/
theorem one_by_one_wholesale {fails : EdgeStmt → StoreError → Prop} {start final : Database} {history : List Made}
    (run : OneByOne fails start history final) : ∀ made ∈ history, made.Wholesale fails := by
  induction run with
  | refl => exact fun made member => by cases member
  | @made history before result after working call run known ran ih =>
    intro made member
    rcases List.mem_append.mp member with earlier | last
    · exact ih made earlier
    · obtain rfl := List.mem_singleton.mp last
      have walks := (statements_walk known : Walks fails (Ends fails call before) call.statements (.idle before))
      have ended := walks.must result ⟨after, working⟩ ran
      refine ⟨?_, ?_, walks.mono fun _ _ _ => trivial⟩
      · intro changed same
        obtain rfl : result = .ok changed := same
        obtain ⟨left, idle, writes⟩ := ended
        obtain rfl : after = left := congrArg Session.committed idle
        exact writes.effect
      · intro error same
        obtain rfl : result = .error error := same
        exact ⟨congrArg Session.committed ended.1, ended.2⟩

/-- A call over existing rows that succeeds statement by statement succeeds alike with its
transaction as one statement. -/
theorem statements_refine {call : Call} {changed : Bool} (known : call.Known before)
    (ran : Runs (session fails) call.statements (.idle before) (.ok changed) ⟨after, working⟩) :
    Runs sql call.prog before (.ok changed) after := by
  obtain ⟨left, idle, writes⟩ := (statements_walk known).must (.ok changed) ⟨after, working⟩ ran
  obtain rfl : after = left := congrArg Session.committed idle
  exact writes.runs

section Example

/-- The session in which no statement fails. -/
private abbrev steady : Machine EdgeSql Session := session fun _ _ => False

private theorem steady_call {stmt : EdgeStmt} {next : Except StoreError stmt.Ret → Prog EdgeSql α}
    {reply : Except StoreError stmt.Ret} (executes : stmt.Executes 0 before reply between)
    (rest : Runs steady (next reply) between value after) : Runs steady (.call stmt next) before value after :=
  .call (.inl ⟨0, executes⟩) rest

/-- The first of two lists, written to the empty one. -/
private def firstInserted : Database := (threeRows.insertFollow 1 2).toOption.getD threeRows

private def firstWritten : Database := firstInserted.updateRow 1 (Columns.apply 0 [1] 10 true)

private theorem firstCall_runs : Runs steady firstCall.statements (.idle threeRows) (.ok true) (.idle firstWritten) := by
  have select : (EdgeStmt.selectAppliedEvent 1).Executes 0 (.idle threeRows) (.ok none) (.idle threeRows) := ⟨rfl, rfl⟩
  have read : (EdgeStmt.selectFollowees 1).Executes 0 (.idle threeRows) (.ok []) (.idle threeRows) := by
    have edgeless : (Session.idle threeRows).committed.follows = ∅ := rfl
    refine ⟨rfl, [], rfl, List.nodup_nil, ?_⟩
    simp [edgeless]
  have start : EdgeStmt.beginTx.Executes 0 (.idle threeRows) (.ok ()) ⟨threeRows, some threeRows⟩ := ⟨rfl, rfl⟩
  have insert : (EdgeStmt.insertFollow 1 2).Executes 0 ⟨threeRows, some threeRows⟩ (.ok ())
      ⟨threeRows, some firstInserted⟩ := ⟨threeRows, rfl, rfl, rfl⟩
  have update : (EdgeStmt.updateApplied 1 [1] 10 true).Executes 0 ⟨threeRows, some firstInserted⟩ (.ok ())
      ⟨threeRows, some firstWritten⟩ := ⟨firstInserted, rfl, rfl, rfl⟩
  have commit : EdgeStmt.commitTx.Executes 0 ⟨threeRows, some firstWritten⟩ (.ok ()) (.idle firstWritten) :=
    ⟨_, rfl, rfl, rfl⟩
  exact steady_call select (steady_call read (steady_call start (steady_call insert
    (steady_call update (steady_call commit .ret)))))

/-- The second, written to the first: its one edge takes the place of the other. -/
private def secondDeleted : Database := firstWritten.deleteFollow 1 2

private def secondInserted : Database := (secondDeleted.insertFollow 1 3).toOption.getD secondDeleted

private def secondWritten : Database := secondInserted.updateRow 1 (Columns.apply 0 [2] 20 true)

private theorem secondCall_runs :
    Runs steady secondCall.statements (.idle firstWritten) (.ok true) (.idle secondWritten) := by
  have select : (EdgeStmt.selectAppliedEvent 1).Executes 0 (.idle firstWritten) (.ok (some [1])) (.idle firstWritten) :=
    ⟨rfl, rfl⟩
  have read : (EdgeStmt.selectFollowees 1).Executes 0 (.idle firstWritten) (.ok [2]) (.idle firstWritten) := by
    have edge : (Session.idle firstWritten).committed.follows = {(1, 2)} := by decide
    refine ⟨rfl, [2], rfl, List.nodup_singleton 2, ?_⟩
    simp [edge]
  have start : EdgeStmt.beginTx.Executes 0 (.idle firstWritten) (.ok ()) ⟨firstWritten, some firstWritten⟩ := ⟨rfl, rfl⟩
  have delete : (EdgeStmt.deleteFollow 1 2).Executes 0 ⟨firstWritten, some firstWritten⟩ (.ok ())
      ⟨firstWritten, some secondDeleted⟩ := ⟨firstWritten, rfl, rfl, rfl⟩
  have insert : (EdgeStmt.insertFollow 1 3).Executes 0 ⟨firstWritten, some secondDeleted⟩ (.ok ())
      ⟨firstWritten, some secondInserted⟩ := ⟨secondDeleted, rfl, rfl, rfl⟩
  have update : (EdgeStmt.updateApplied 1 [2] 20 true).Executes 0 ⟨firstWritten, some secondInserted⟩ (.ok ())
      ⟨firstWritten, some secondWritten⟩ := ⟨secondInserted, rfl, rfl, rfl⟩
  have commit : EdgeStmt.commitTx.Executes 0 ⟨firstWritten, some secondWritten⟩ (.ok ()) (.idle secondWritten) :=
    ⟨_, rfl, rfl, rfl⟩
  exact steady_call select (steady_call read (steady_call start (steady_call delete (steady_call insert
    (steady_call update (steady_call commit .ret))))))

/-- The theorem at the two calls, one after the other. -/
theorem one_by_one_wholesale_two : (1, 2) ∈ firstWritten.follows ∧ secondWritten.follows = {(1, 3)} ∧
    ∀ made ∈ [Made.mk firstCall threeRows (.ok true) firstWritten, Made.mk secondCall firstWritten (.ok true) secondWritten],
      made.Wholesale fun _ _ => False := by
  have first : OneByOne (fun _ _ => False) threeRows [⟨firstCall, threeRows, .ok true, firstWritten⟩] firstWritten :=
    .made .refl ⟨by decide, by decide⟩ firstCall_runs
  have both : OneByOne (fun _ _ => False) threeRows [⟨firstCall, threeRows, .ok true, firstWritten⟩,
      ⟨secondCall, firstWritten, .ok true, secondWritten⟩] secondWritten :=
    .made first ⟨by decide, by decide⟩ secondCall_runs
  exact ⟨by decide, by decide, one_by_one_wholesale both⟩

end Example

end EdgeDiff

end WotCrawler.Store
