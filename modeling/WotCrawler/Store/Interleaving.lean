import WotCrawler.Effect.Pool
import WotCrawler.Sequence.Patch
import WotCrawler.Store.Frame
import WotCrawler.Store.Writer

/-! Any number of edge writers, statement by statement: when the edges stay those of one list. -/

namespace WotCrawler.Store

open Effect Sequence

/-- The arguments of one call of `apply_follow_list`. -/
structure Call where
  follower : Nat
  eventId : Bytes
  createdAt : DateTime
  followeeIds : List Nat

namespace Call

def prog (call : Call) : Prog Sql (Except StoreError Bool) :=
  (applyFollowList call.follower call.eventId call.createdAt call.followeeIds).run

/-- The followees of a call, without its follower. -/
def listed (call : Call) : Finset Nat := call.followeeIds.toFinset.erase call.follower

end Call

/-- A call in progress, and the edges it last read. -/
structure Writing where
  call : Call
  seen : Finset Nat

def observe (stmt : Stmt) (before : Database) (writing : Writing) : Writing :=
  match stmt with
  | .selectFollowees follower => { writing with seen := before.followees follower }
  | _ => writing

theorem observe_call (stmt : Stmt) (before : Database) (writing : Writing) :
    (observe stmt before writing).call = writing.call := by
  cases stmt <;> rfl

abbrev observing : Machine Sql (Database × Writing) := sql.noting observe

abbrev Writers := Pool Sql Database Writing (Except StoreError Bool)

/-- The edges of the follower changed, since the call read them, only as its own list asks. -/
def Fresh (writing : Writing) (db : Database) : Prop :=
  (∀ followee ∈ db.followees writing.call.follower, followee ∉ writing.seen →
      followee ∈ writing.call.listed) ∧
    ∀ followee ∈ writing.seen, followee ∉ db.followees writing.call.follower →
      followee ∉ writing.call.listed

/-- The runs of the writers, given what lists the events stand for: calls start, make their next
statement or see the database change by anything but an edge transaction. -/
inductive Interleaving (contents : Nat → Bytes → Finset Nat) (commits : Writing → Database → Prop) :
    Writers → Writers → Prop where
  | refl : Interleaving contents commits pool pool
  | start (run : Interleaving contents commits initial pool)
      (genuine : call.listed = contents call.follower call.eventId) :
      Interleaving contents commits initial (pool.spawn ⟨⟨call, ∅⟩, call.prog⟩)
  | write (run : Interleaving contents commits initial pool)
      (step : pool.Calls observing index stmt note noted after)
      (commit : stmt.edits ≠ none → commits note pool.shared) :
      Interleaving contents commits initial after
  | other (run : Interleaving contents commits initial pool) (edgeless : stmt.edits = none)
      (executed : sql.exec stmt pool.shared reply left) :
      Interleaving contents commits initial (pool.disturb left)

/-- Every row's edges are the list of the event it records, or there are none. -/
def Unmixed (contents : Nat → Bytes → Finset Nat) (db : Database) : Prop :=
  ∀ id row, db.rows id = some row → ∀ followee, (id, followee) ∈ db.follows ↔
    ∃ eventId, row.columns.appliedEventId = some eventId ∧ followee ∈ contents id eventId

/-- What a call's statements write: the difference between its list and the edges it read. -/
def WritesDiff (stmt : Stmt) (note : Writing) : Prop :=
  match stmt with
  | .applyDiff follower removed added eventId _ _ => follower = note.call.follower ∧
      eventId = note.call.eventId ∧ removed.toFinset = note.seen \ note.call.listed ∧
      added.toFinset = note.call.listed \ note.seen
  | _ => True

/-- Others do not change what a call has seen. -/
def separate : Reliance (Database × Writing) where
  rely := fun before after => after.2 = before.2
  refl := fun _ => rfl
  trans := fun first second => second.trans first

private theorem statement_safe {stmt : Stmt} {state : Database × Writing}
    {middle : stmt.Ret → Database × Writing → Prop}
    (writes : WritesDiff stmt state.2)
    (leaves : ∀ reply before after, before.2 = state.2 → observing.exec stmt before (.ok reply) after →
      ∀ later, later.2 = after.2 → middle reply later) :
    Safe observing separate (fun stmt before _ => WritesDiff stmt before.2)
      (Safe.orFails middle (fun (_ : Except StoreError Bool) _ => True)) (query stmt).run state := by
  apply Safe.perform
  intro before reply after moved executed
  have same : before.2 = state.2 := moved
  refine ⟨same ▸ writes, ?_⟩
  intro later rest
  cases reply with
  | ok value => exact leaves value before after same executed later rest
  | error error => trivial

/-- A call's last statement, whatever the reply. -/
private theorem closing_safe {stmt : Stmt} {state : Database × Writing} {value : Bool}
    (writes : WritesDiff stmt state.2) :
    Safe observing separate (fun stmt before _ => WritesDiff stmt before.2) (fun _ _ => True)
      (do let _ ← query stmt; return value : StoreM Bool).run state := by
  have written : Safe observing separate (fun stmt before _ => WritesDiff stmt before.2)
      (Safe.orFails (fun _ _ => True) (fun (_ : Except StoreError Bool) _ => True))
      (query stmt).run state := statement_safe writes (fun _ _ _ _ _ _ _ => trivial)
  exact written.except_bind fun _ _ _ => Safe.ret fun _ _ => trivial

/-- Every call writes its own difference, whatever happens around it. -/
theorem Call.prog_safe (call : Call) (db : Database) (seen : Finset Nat) :
    Safe observing separate (fun stmt before _ => WritesDiff stmt before.2) (fun _ _ => True)
      call.prog (db, ⟨call, seen⟩) := by
  have selected : Safe observing separate (fun stmt before _ => WritesDiff stmt before.2)
      (Safe.orFails (fun _ later => later.2.call = call) (fun (_ : Except StoreError Bool) _ => True))
      (query (.selectAppliedEvent call.follower)).run (db, ⟨call, seen⟩) := by
    apply statement_safe (by trivial)
    rintro _ before after same ⟨_, noted⟩ later rest
    rw [rest, noted, same]
    rfl
  unfold prog applyFollowList
  apply selected.except_bind
  rintro current ⟨between, note⟩ rfl
  split
  · exact closing_safe (by trivial)
  · have read : Safe observing separate (fun stmt before _ => WritesDiff stmt before.2)
        (Safe.orFails (fun edges later => later.2 = ⟨note.call, edges.toFinset⟩)
          (fun (_ : Except StoreError Bool) _ => True))
        (query (.selectFollowees note.call.follower)).run (between, note) := by
      apply statement_safe (by trivial)
      rintro edges before after same ⟨⟨now, locked, _, executes⟩, noted⟩ later rest
      obtain ⟨_, rows, answered, _, members⟩ := executes
      obtain rfl := Except.ok.inj answered
      have edges : edges.toFinset = before.1.followees note.call.follower := by
        ext followee
        rw [List.mem_toFinset, members, Database.mem_followees]
      rw [rest, noted, same, edges]
      rfl
    apply read.except_bind
    rintro edges ⟨later, writing⟩ rfl
    apply closing_safe
    refine ⟨rfl, rfl, ?_, ?_⟩
    · ext followee
      simp [listed]
      tauto
    · ext followee
      simp [listed]
      tauto

variable {contents : Nat → Bytes → Finset Nat} {db after : Database} {note : Writing}

/-- A commit patches the follower's edges, and nobody else's. -/
private theorem commit_edges
    (done : db.applyDiff now note.call.follower removed added note.call.eventId createdAt changed =
      .ok after)
    (taken : removed.toFinset = note.seen \ note.call.listed)
    (put : added.toFinset = note.call.listed \ note.seen) :
    after.followees note.call.follower =
      (Patch.between note.seen note.call.listed).apply (db.followees note.call.follower) := by
  obtain ⟨_, follows⟩ := Database.applyDiff_spec done
  ext followee
  have removes : followee ∈ removed ↔ followee ∈ note.seen \ note.call.listed := by
    rw [← taken, List.mem_toFinset]
  have adds : followee ∈ added ↔ followee ∈ note.call.listed \ note.seen := by
    rw [← put, List.mem_toFinset]
  rw [Database.mem_followees, follows, Patch.apply, Patch.between, Finset.mem_union, Finset.mem_sdiff,
    ← removes, ← adds, Database.mem_followees]
  have taken : (∀ other ∈ removed, followee ≠ other) ↔ followee ∉ removed :=
    ⟨fun apart member => apart followee member rfl, fun missing other member same => missing (same ▸ member)⟩
  simp [taken]

/-- From unmixed edges a commit leads to unmixed edges exactly when it is fresh. -/
theorem commit_unmixed_iff (unmixed : Unmixed contents db)
    (present : db.rows note.call.follower = some row)
    (genuine : note.call.listed = contents note.call.follower note.call.eventId)
    (done : db.applyDiff now note.call.follower removed added note.call.eventId createdAt changed =
      .ok after)
    (taken : removed.toFinset = note.seen \ note.call.listed)
    (put : added.toFinset = note.call.listed \ note.seen) :
    Unmixed contents after ↔ Fresh note db := by
  have edges := commit_edges done taken put
  obtain ⟨rows, follows⟩ := Database.applyDiff_spec done
  have own : after.rows note.call.follower =
      some ⟨row.pubkey, row.columns.apply now note.call.eventId createdAt changed⟩ := by
    rw [rows]
    simp [present]
  have exact : Unmixed contents after ↔ after.followees note.call.follower = note.call.listed := by
    constructor
    · intro pure
      ext followee
      rw [Database.mem_followees, pure _ _ own, genuine]
      simp [Columns.apply]
    · intro listed id other found followee
      by_cases same : id = note.call.follower
      · subst same
        obtain rfl := Option.some.inj (own.symm.trans found)
        rw [← Database.mem_followees, listed, genuine]
        simp [Columns.apply]
      · rw [rows, Database.updateRow_rows_of_ne _ _ same] at found
        rw [← unmixed id other found, follows]
        simp [same]
  rw [exact, edges, Patch.apply_between_eq_iff]
  rfl

/-- Statements other than the edge transaction keep every list. -/
theorem Unmixed.framed {stmt : Stmt} (unmixed : Unmixed contents db) (framed : Framed stmt db after)
    (edgeless : ∀ id row, after.rows id = some row → stmt.edits ≠ some id) : Unmixed contents after := by
  intro id row found followee
  have other := edgeless id row found
  rw [framed.follows id followee other]
  cases present : db.rows id with
  | some old =>
    rw [unmixed id old present, (framed.list id old row present found other).1]
  | none =>
    rw [(framed.fresh id row present found).2]
    constructor
    · intro edge
      have referenced := (db.follows_references _ edge).1
      simp [present] at referenced
    · rintro ⟨eventId, recorded, _⟩
      cases recorded

/-- What the calls in progress and the tables keep. -/
structure Sound (contents : Nat → Bytes → Finset Nat) (pool : Writers) : Prop where
  guarded : pool.Guarded observing separate (fun stmt before _ => WritesDiff stmt before.2) (fun _ _ => True)
  genuine : ∀ (index : Nat) task, pool.tasks[index]? = some task →
    task.note.call.listed = contents task.note.call.follower task.note.call.eventId
  unmixed : Unmixed contents pool.shared

/-- A fresh step keeps the lists unmixed. -/
theorem Sound.write {pool left : Writers} {stmt : Stmt} {noted : Writing} {index : Nat}
    (sound : Sound contents pool)
    (step : pool.Calls observing index stmt note noted left)
    (commit : stmt.edits ≠ none → Fresh note pool.shared) : Unmixed contents left.shared := by
  obtain ⟨reply, ⟨now, locked, _, executes⟩, _⟩ := step.executed
  obtain ⟨next, found⟩ := step.found
  have framed := executes.framed
  cases stmt with
  | applyDiff follower removed added eventId createdAt changed =>
    obtain ⟨rfl, rfl, taken, put⟩ := sound.guarded.keeps step
    have committed : Commits (pool.shared.applyDiff now note.call.follower removed added
        note.call.eventId createdAt changed) pool.shared reply left.shared := executes
    cases done : pool.shared.applyDiff now note.call.follower removed added note.call.eventId
        createdAt changed with
    | error error =>
      rw [done] at committed
      rw [committed.2]
      exact sound.unmixed
    | ok after =>
      rw [done] at committed
      rw [committed.2]
      cases present : pool.shared.rows note.call.follower with
      | some row =>
        have fresh := commit (by simp [Stmt.edits])
        exact (commit_unmixed_iff sound.unmixed present (sound.genuine index _ found) done taken put).mpr fresh
      | none =>
        obtain ⟨rows, _⟩ := Database.applyDiff_spec done
        apply sound.unmixed.framed (committed.2 ▸ framed)
        intro id row found edits
        obtain rfl := Option.some.inj edits
        rw [rows] at found
        simp [present] at found
  | _ => exact sound.unmixed.framed framed (fun _ _ _ other => by cases other)

/-- Every state of a run whose commits are fresh is sound. -/
private theorem Interleaving.sound {initial pool : Writers} (run : Interleaving contents Fresh initial pool)
    (sound : Sound contents initial) : Sound contents pool := by
  induction run with
  | refl => exact sound
  | @start pool call run genuine ih =>
    obtain ⟨guarded, known, unmixed⟩ := ih
    refine ⟨guarded.spawn (call.prog_safe pool.shared ∅), ?_, unmixed⟩
    intro index task present
    cases Pool.spawn_tasks present with
    | inl old => exact known index task old
    | inr new =>
      obtain ⟨_, rfl⟩ := new
      exact genuine
  | write run step commit ih =>
    obtain ⟨reply, executed, noted⟩ := step.executed
    obtain ⟨next, found⟩ := step.found
    refine ⟨ih.guarded.calls step (fun _ _ _ _ => rfl), ?_, ih.write step commit⟩
    intro other task present
    cases step.tasks present with
    | inl called =>
      have same := congrArg Writing.call (called.2.trans noted)
      rw [observe_call] at same
      rw [same]
      exact ih.genuine _ _ found
    | inr old => exact ih.genuine other task old.2
  | other run edgeless executed ih =>
    obtain ⟨guarded, known, unmixed⟩ := ih
    obtain ⟨now, locked, _, executes⟩ := executed
    refine ⟨guarded.disturb (fun _ _ _ => rfl), known, ?_⟩
    exact unmixed.framed executes.framed (fun _ _ _ other => by rw [edgeless] at other; cases other)

/-- No mixed list: whatever calls run at once and however their statements interleave, as long
as every commit finds that the follower's edges changed, since the call read them, only as its
own list asks, every row's edges are those of the event it records. -/
theorem unmixed_of_fresh (unmixed : Unmixed contents db)
    (run : Interleaving contents Fresh ⟨db, []⟩ pool) : Unmixed contents pool.shared := by
  have initial : Sound contents (⟨db, []⟩ : Writers) :=
    ⟨(fun _ _ none => by cases none), (fun _ _ none => by cases none), unmixed⟩
  exact (run.sound initial).unmixed

section Example

/-- The program of a call that has read the edges of its follower. -/
private def Call.commit (call : Call) (current : List Nat) : Prog Sql (Except StoreError Bool) :=
  (do
    let newSet := (call.followeeIds.filter (fun id => id ≠ call.follower)).dedup
    query (.applyDiff call.follower (current.filter (fun id => id ∉ newSet))
      (newSet.filter (fun id => id ∉ current)) call.eventId call.createdAt
      (!(newSet.filter (fun id => id ∉ current)).isEmpty || !(current.filter (fun id => id ∉ newSet)).isEmpty))
    return true : StoreM Bool).run

private theorem Call.prog_reads (call : Call) : ∃ next rest,
    call.prog = .call (.selectAppliedEvent call.follower) next ∧
      next (.ok none) = .call (.selectFollowees call.follower) rest ∧
      ∀ current, rest (.ok current) = call.commit current :=
  ⟨_, _, rfl, rfl, fun _ => rfl⟩

private theorem Interleaving.read {commits : Writing → Database → Prop} {pool : Writers} {index : Nat}
    {call : Call} (run : Interleaving contents commits initial pool)
    (found : pool.tasks[index]? = some ⟨⟨call, seen⟩, call.prog⟩)
    (present : pool.shared.rows call.follower = some row) (unapplied : row.columns.appliedEventId = none) :
    ∃ current : List Nat, current.toFinset = pool.shared.followees call.follower ∧
      Interleaving contents commits initial ⟨pool.shared, pool.tasks.set index
        ⟨⟨call, pool.shared.followees call.follower⟩, call.commit current⟩⟩ := by
  obtain ⟨next, rest, starts, reads, commits⟩ := call.prog_reads
  have bound := (List.getElem?_eq_some_iff.mp found).1
  rw [starts] at found
  have applied : Stmt.Executes 0 ∅ (.selectAppliedEvent call.follower) pool.shared (.ok none) pool.shared :=
    ⟨rfl, by rw [present, ← unapplied]⟩
  have first := run.write (.call found ⟨⟨0, ∅, trivial, applied⟩, rfl⟩) (fun edits => absurd rfl edits)
  rw [reads] at first
  have edges : Stmt.Executes 0 ∅ (.selectFollowees call.follower) pool.shared
      (.ok (pool.shared.followees call.follower).toList) pool.shared :=
    ⟨rfl, _, rfl, Finset.nodup_toList _, fun followee => by
      rw [Finset.mem_toList, Database.mem_followees]⟩
  have second := first.write (.call (List.getElem?_set_self bound) ⟨⟨0, ∅, trivial, edges⟩, rfl⟩)
    (fun edits => absurd rfl edits)
  rw [commits, List.set_set] at second
  exact ⟨_, Finset.toList_toFinset _, second⟩

private theorem Call.commit_writes (call : Call) (current : List Nat) :
    ∃ removed added changed next,
      call.commit current = .call (.applyDiff call.follower removed added call.eventId call.createdAt
        changed) next ∧ next (.ok ()) = .ret (.ok true) ∧
        removed.toFinset = current.toFinset \ call.listed ∧
        added.toFinset = call.listed \ current.toFinset := by
  refine ⟨_, _, _, _, rfl, rfl, ?_, ?_⟩
  · ext followee
    simp [listed]
    tauto
  · ext followee
    simp [listed]
    tauto

private theorem Interleaving.commit {commits : Writing → Database → Prop} {pool : Writers} {index : Nat}
    {current : List Nat} (run : Interleaving contents commits initial pool)
    (found : pool.tasks[index]? = some ⟨note, note.call.commit current⟩)
    (seen : current.toFinset = note.seen) (unmixed : Unmixed contents pool.shared)
    (genuine : note.call.listed = contents note.call.follower note.call.eventId)
    (present : (pool.shared.rows note.call.follower).isSome)
    (listed : ∀ followee ∈ note.call.listed, (pool.shared.rows followee).isSome)
    (allowed : commits note pool.shared) :
    ∃ after, Interleaving contents commits initial
        ⟨after, pool.tasks.set index ⟨note, .ret (.ok true)⟩⟩ ∧
      Persists pool.shared after ∧ after.followees note.call.follower =
        (Patch.between note.seen note.call.listed).apply (pool.shared.followees note.call.follower) ∧
      (Unmixed contents after ↔ Fresh note pool.shared) := by
  obtain ⟨removed, added, changed, next, writes, returns, taken, put⟩ := note.call.commit_writes current
  rw [seen] at taken put
  have members (followee : Nat) (member : followee ∈ added) : followee ∈ note.call.listed := by
    rw [← List.mem_toFinset, put] at member
    exact (Finset.mem_sdiff.mp member).1
  obtain ⟨after, done⟩ : ∃ after, pool.shared.applyDiff 0 note.call.follower removed added
      note.call.eventId note.call.createdAt changed = .ok after := by
    apply Database.applyDiff_isOk present
    intro followee member
    exact ⟨(Finset.ne_of_mem_erase (members followee member)).symm, listed followee (members followee member)⟩
  have executes : Stmt.Executes 0 ∅ (.applyDiff note.call.follower removed added note.call.eventId
      note.call.createdAt changed) pool.shared (.ok ()) after := by
    simp only [Stmt.Executes, done, Commits, and_self]
  rw [writes] at found
  have step := run.write (.call found ⟨⟨0, ∅, trivial, executes⟩, rfl⟩) (fun _ => allowed)
  rw [returns] at step
  obtain ⟨row, found⟩ := Option.isSome_iff_exists.mp present
  exact ⟨after, step, executes.framed.persists, commit_edges done taken put,
    commit_unmixed_iff unmixed found genuine done taken put⟩

/-- A follower and two other rows, without edges. -/
def threeRows : Database :=
  (((Database.empty.upsert (List.replicate 32 1)).2.upsert (List.replicate 32 2)).2.upsert
    (List.replicate 32 3)).2

/-- Two lists of the follower, each with one followee. -/
def firstCall : Call := ⟨1, [1], 10, [2]⟩

def secondCall : Call := ⟨1, [2], 20, [3]⟩

def twoLists (_ : Nat) (eventId : Bytes) : Finset Nat := if eventId = [1] then {2} else {3}

private theorem threeRows_rows {id : Nat} (bounds : id = 1 ∨ id = 2 ∨ id = 3) :
    ∃ row, threeRows.rows id = some row ∧ row.columns.appliedEventId = none := by
  rcases bounds with rfl | rfl | rfl
  · exact ⟨⟨List.replicate 32 1, Columns.default⟩, by decide, rfl⟩
  · exact ⟨⟨List.replicate 32 2, Columns.default⟩, by decide, rfl⟩
  · exact ⟨⟨List.replicate 32 3, Columns.default⟩, by decide, rfl⟩

private theorem Unmixed.upsert (unmixed : Unmixed contents db) (pubkey : Bytes) :
    Unmixed contents (db.upsert pubkey).2 := by
  have executes : Stmt.Executes 0 ∅ (.upsertPubkey pubkey) db (.ok (db.upsert pubkey).1)
    (db.upsert pubkey).2 := ⟨rfl, rfl⟩
  exact unmixed.framed executes.framed (fun _ _ _ edits => by cases edits)

private theorem threeRows_unmixed : Unmixed twoLists threeRows := by
  have empty : Unmixed twoLists Database.empty := by
    intro id row found
    cases found
  exact ((empty.upsert _).upsert _).upsert _

/-- Both calls, before their first statements. -/
private def bothStarted : Writers where
  shared := threeRows
  tasks := [⟨⟨firstCall, ∅⟩, firstCall.prog⟩, ⟨⟨secondCall, ∅⟩, secondCall.prog⟩]

private theorem bothStarted_runs (commits : Writing → Database → Prop) :
    Interleaving twoLists commits ⟨threeRows, []⟩ bothStarted := by
  have first : firstCall.listed = twoLists firstCall.follower firstCall.eventId := by decide
  have second : secondCall.listed = twoLists secondCall.follower secondCall.eventId := by decide
  exact (Interleaving.refl.start first).start second

private theorem firstCall_fresh : Fresh ⟨firstCall, ∅⟩ threeRows := by
  constructor
  · intro followee edge
    have absent : followee ∈ (∅ : Finset Nat) := edge
    cases absent
  · intro followee seen
    cases seen

/-- Both calls read that there are no edges, and the first commits. -/
private theorem firstCommits (commits : Writing → Database → Prop)
    (allowed : commits ⟨firstCall, ∅⟩ threeRows) : ∃ after current, current.toFinset = ∅ ∧
      Interleaving twoLists commits ⟨threeRows, []⟩ ⟨after,
        [⟨⟨firstCall, ∅⟩, .ret (.ok true)⟩, ⟨⟨secondCall, ∅⟩, secondCall.commit current⟩]⟩ ∧
      Persists threeRows after ∧ after.followees 1 = {2} ∧ Unmixed twoLists after := by
  obtain ⟨row, present, unapplied⟩ := threeRows_rows (.inl rfl)
  have edgeless : threeRows.followees 1 = ∅ := rfl
  have firstStands : bothStarted.tasks[0]? = some ⟨⟨firstCall, ∅⟩, firstCall.prog⟩ := rfl
  obtain ⟨first, firstSeen, run⟩ := (bothStarted_runs commits).read firstStands present unapplied
  have secondStands : (bothStarted.tasks.set 0
      ⟨⟨firstCall, threeRows.followees 1⟩, firstCall.commit first⟩)[1]? =
      some ⟨⟨secondCall, ∅⟩, secondCall.prog⟩ := rfl
  obtain ⟨second, secondSeen, run⟩ := run.read secondStands present unapplied
  have firstRead : ((bothStarted.tasks.set 0
      ⟨⟨firstCall, ∅⟩, firstCall.commit first⟩).set 1
      ⟨⟨secondCall, ∅⟩, secondCall.commit second⟩)[0]? =
      some ⟨⟨firstCall, ∅⟩, firstCall.commit first⟩ := rfl
  have genuine : firstCall.listed = twoLists firstCall.follower firstCall.eventId := by decide
  have follower : (threeRows.rows 1).isSome := by decide
  have listed : ∀ followee ∈ firstCall.listed, (threeRows.rows followee).isSome := by decide
  obtain ⟨after, run, persists, edges, exact⟩ := run.commit firstRead (firstSeen.trans edgeless)
    threeRows_unmixed genuine follower listed allowed
  refine ⟨after, second, secondSeen.trans edgeless, run, persists, ?_, ?_⟩
  · have patched : (Patch.between ∅ firstCall.listed).apply (threeRows.followees 1) = {2} := by decide
    exact edges.trans patched
  · exact exact.mpr firstCall_fresh

private theorem secondFollowee {after : Database} (persists : Persists threeRows after) :
    ∀ followee ∈ secondCall.listed, (after.rows followee).isSome := by
  intro followee member
  have same : followee ∈ ({3} : Finset Nat) := member
  obtain rfl := Finset.mem_singleton.mp same
  obtain ⟨row, present, _⟩ := threeRows_rows (.inr (.inr rfl))
  obtain ⟨columns, kept⟩ := persists 3 row present
  simp [kept]

/-- Two calls read before either commits: the second commit leaves both lists' edges. -/
theorem interleaving_mixes : ∃ pool, Interleaving twoLists (fun _ _ => True) ⟨threeRows, []⟩ pool ∧
    Unmixed twoLists threeRows ∧ (∀ task ∈ pool.tasks, ∃ value, task.prog = .ret value) ∧
    ¬ Unmixed twoLists pool.shared := by
  obtain ⟨between, current, seen, run, persists, edges, unmixed⟩ :=
    firstCommits (fun _ _ => True) trivial
  have stands : ([⟨⟨firstCall, ∅⟩, .ret (.ok true)⟩, ⟨⟨secondCall, ∅⟩, secondCall.commit current⟩] :
      List (Task Sql Writing (Except StoreError Bool)))[1]? =
      some ⟨⟨secondCall, ∅⟩, secondCall.commit current⟩ := rfl
  have genuine : secondCall.listed = twoLists secondCall.follower secondCall.eventId := by decide
  obtain ⟨row, present, _⟩ := threeRows_rows (.inl rfl)
  obtain ⟨columns, kept⟩ := persists 1 row present
  have follower : (between.rows 1).isSome := by simp [kept]
  obtain ⟨after, run, _, _, exact⟩ := run.commit stands seen unmixed genuine follower
    (secondFollowee persists) trivial
  refine ⟨_, run, threeRows_unmixed, ?_, ?_⟩
  · intro task member
    cases List.mem_cons.mp member with
    | inl first => exact ⟨_, congrArg Task.prog first⟩
    | inr rest => exact ⟨_, congrArg Task.prog (List.mem_singleton.mp rest)⟩
  · intro mixed
    obtain ⟨appeared, _⟩ := exact.mp mixed
    have edge : 2 ∈ between.followees 1 := by simp [edges]
    have wanted : 2 ∈ secondCall.listed := appeared 2 edge (Finset.notMem_empty 2)
    exact absurd wanted (by decide)

/-- The theorem at the run of one commit, which reads before it writes. -/
theorem unmixed_of_fresh_first : ∃ pool, Interleaving twoLists Fresh ⟨threeRows, []⟩ pool ∧
    pool.shared.followees 1 = {2} ∧ Unmixed twoLists pool.shared := by
  obtain ⟨after, current, _, run, _, edges, _⟩ := firstCommits Fresh firstCall_fresh
  exact ⟨_, run, edges, unmixed_of_fresh threeRows_unmixed run⟩

end Example

end WotCrawler.Store
