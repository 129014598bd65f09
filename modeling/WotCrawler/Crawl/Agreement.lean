import WotCrawler.Crawl.Graph
import WotCrawler.Crawl.NewestWins

/-! What the rows of a crawl say of the graph, and that every statement of a worker keeps them
saying it. -/

namespace WotCrawler.Crawl

open Effect Store Ingest Relay

/-- What a row says of its author, by its status. -/
def RowAgrees (graph : ScriptedGraph) (db : Database) (id : Nat) (author : PublicKey) : FetchStatus → Prop
  | .discovered => Blank db id
  | .inProgress => Blank db id
  | .fetched => ∃ event, graph.list author = some event ∧ Holds db id event
  | .notFound => graph.list author = none ∧ Blank db id
  | .failed => False

/-- Every row is that of an author which the anchor reaches, and agrees with the graph. -/
def Agrees (graph : ScriptedGraph) (anchor : PublicKey) (db : Database) : Prop :=
  ∀ id row, db.rows id = some row → ∃ author, graph.Reaches anchor author ∧ author.bytes = row.pubkey ∧
    RowAgrees graph db id author row.columns.status

/-- What each statement of a crawl's worker does: it names reached authors only, and resolves its
own rows as the graph has them. -/
structure Charts (graph : ScriptedGraph) (anchor : PublicKey) (stmt : Stmt) (before after : Desk) : Prop where
  framed : Framed stmt before.1 after.1
  released : after.2 = release stmt before.1 before.2
  single : stmt.ranges = false
  named : ∀ key, stmt = .upsertPubkey key → ∃ author, graph.Reaches anchor author ∧ author.bytes = key
  owned : ∀ id, stmt.outcome = some id → id ∈ before.2 ∧ ∃ author row, before.1.keyed id author.bytes ∧
    after.1.rows id = some row ∧ (row.columns.status = .fetched ∨ row.columns.status = .notFound) ∧
    (Blank before.1 id → RowAgrees graph after.1 id author row.columns.status)

variable {graph : ScriptedGraph} {anchor : PublicKey} {before after : Database} {id : Nat}

/-- A row that a statement does not edit says what it said. -/
theorem RowAgrees.framed {stmt : Stmt} {author : PublicKey} {status : FetchStatus}
    (agrees : RowAgrees graph before id author status) (framed : Framed stmt before after)
    (other : stmt.edits ≠ some id) : RowAgrees graph after id author status := by
  have blank (holds : Blank before id) : Blank after id := Blank.framed framed other fun _ _ => holds
  cases status with
  | discovered => exact blank agrees
  | inProgress => exact blank agrees
  | fetched =>
    obtain ⟨event, listed, holds⟩ := agrees
    exact ⟨event, listed, holds.framed framed other⟩
  | notFound => exact ⟨agrees.1, blank agrees.2⟩
  | failed => exact agrees

/-- A new row says nothing yet. -/
theorem Agrees.fresh {stmt : Stmt} {row : PubkeyRow} (framed : Framed stmt before after)
    (named : ∀ key, stmt = .upsertPubkey key → ∃ author, graph.Reaches anchor author ∧ author.bytes = key)
    (absent : before.rows id = none) (found : after.rows id = some row) :
    ∃ author, graph.Reaches anchor author ∧ author.bytes = row.pubkey ∧
      RowAgrees graph after id author row.columns.status := by
  obtain ⟨upserts, fresh⟩ := framed.fresh id row absent found
  obtain ⟨author, reached, key⟩ := named row.pubkey upserts
  refine ⟨author, reached, key, ?_⟩
  rw [fresh]
  apply Blank.framed framed
  · rw [upserts]
    intro edits
    cases edits
  · intro old present
    rw [absent] at present
    cases present

/-- A worker's statement keeps the rows in agreement. -/
theorem Agrees.charts {stmt : Stmt} {before after : Desk} (agrees : Agrees graph anchor before.1)
    (charts : Charts graph anchor stmt before after)
    (pending : ∀ id ∈ before.2, ∃ row, before.1.rows id = some row ∧ row.columns.status = .inProgress) :
    Agrees graph anchor after.1 := by
  intro id row found
  cases present : before.1.rows id with
  | none => exact Agrees.fresh charts.framed charts.named present found
  | some old =>
    obtain ⟨author, reached, key, said⟩ := agrees id old present
    by_cases writes : stmt.outcome = some id
    · obtain ⟨mine, other, made, keyed, there, _, resolved⟩ := charts.owned id writes
      obtain rfl := Option.some.inj (found.symm.trans there)
      have same : other = author :=
        PublicKey.bytes_injective ((Database.keyed_key keyed (Database.keyed_of_row present)).trans key.symm)
      subst same
      obtain ⟨leased, here, status⟩ := pending id mine
      obtain rfl := Option.some.inj (present.symm.trans here)
      rw [status] at said
      refine ⟨other, reached, ?_, resolved said⟩
      exact Database.keyed_key (charts.framed.persists.keyed keyed) (Database.keyed_of_row found)
    · have kept := charts.framed.columns charts.single id old present writes
      obtain rfl := Option.some.inj (kept.symm.trans found)
      have unedited : stmt.edits ≠ some id := fun edits => writes (Stmt.outcome_of_edits edits)
      exact ⟨author, reached, key, said.framed charts.framed unedited⟩

/-- How a worker ends: it returned a count, and every row of its batch is resolved. -/
def Done (result : Except StoreError Nat) (later : Desk) : Prop :=
  (∃ count, result = .ok count) ∧ later.2 = ∅

section Worker

variable {verifier : Verifier} {admits : Event → Bool} {settings : Settings} {batch : List ClaimedAuthor} {events : List Event}
  {claimed : ClaimedAuthor} {stamp : DateTime}

/-- What resolves a row charts it. -/
private theorem settles_charts (serves : graph.Serves verifier admits settings)
    (fetched : graph.Scripts batch events)
    {stmt : Stmt} (framed : Framed stmt before after) {author : PublicKey} (member : claimed ∈ batch)
    (key : author.bytes = claimed.pubkey) (keyed : before.keyed claimed.id claimed.pubkey)
    (settles : Settles (settings.gate.listFor batch events claimed) stamp stmt claimed.id before after) :
    ∃ row, after.rows claimed.id = some row ∧
      (row.columns.status = .fetched ∨ row.columns.status = .notFound) ∧
      (Blank before claimed.id → RowAgrees (graph.admitted admits) after claimed.id author row.columns.status) := by
  cases listed : settings.gate.listFor batch events claimed with
  | none =>
    rw [listed] at settles
    obtain ⟨edgeless, stamped⟩ := settles
    obtain ⟨columns, present⟩ := keyed
    have unedited : stmt.edits ≠ some claimed.id := by rw [edgeless]; exact fun impossible => by cases impossible
    refine ⟨_, stamped _ present, .inr rfl, ?_⟩
    intro blank
    exact ⟨serves.listFor_none member fetched key listed, Blank.framed framed unedited fun _ _ => blank⟩
  | some vfl =>
    rw [listed] at settles
    obtain ⟨⟨row, found, status, applied⟩, edited⟩ := settles
    refine ⟨row, found, .inl status, ?_⟩
    intro blank
    rw [status]
    obtain ⟨owner, event, followees, same, list, extracted, rfl⟩ :=
      serves.listFor_some fetched listed
    obtain rfl : owner = author := PublicKey.bytes_injective (same.trans key.symm)
    by_cases edits : stmt.edits = some claimed.id
    · exact ⟨event, list, (edited edits).holds extracted⟩
    · have unapplied := (Blank.framed framed edits fun _ _ => blank).1 row found
      rw [applied] at unapplied
      cases unapplied

private theorem resolves_charts (serves : graph.Serves verifier admits settings)
    (fetched : graph.Scripts batch events)
    (reached : ∀ claimed ∈ batch, ∃ author, (graph.admitted admits).Reaches anchor author ∧ author.bytes = claimed.pubkey)
    {stmt : Stmt} {before after : Desk} (keyed : ∀ claimed ∈ batch, before.1.keyed claimed.id claimed.pubkey)
    (resolves : Resolves (settings.gate.listFor batch events) stamp batch stmt before after) :
    Charts (graph.admitted admits) anchor stmt before after := by
  refine ⟨resolves.framed, resolves.released, resolves.single, ?_, ?_⟩
  · intro key upserts
    obtain ⟨claimed, member, vfl, listed, named⟩ := resolves.named key upserts
    obtain ⟨author, reach, same⟩ := reached claimed member
    cases named with
    | inl own => exact ⟨author, reach, same.trans own.symm⟩
    | inr followee =>
      obtain ⟨followee, inside, rfl⟩ := followee
      obtain ⟨owner, event, followees, key, list, extracted, rfl⟩ :=
        serves.listFor_some fetched listed
      obtain rfl : owner = author := PublicKey.bytes_injective (key.trans same.symm)
      refine ⟨followee, reach.tail ?_, rfl⟩
      rw [ScriptedGraph.followees_of_list list, ← (followeePubkeys_spec extracted).2.1]
      exact List.mem_toFinset.mpr inside
  · intro id writes
    obtain ⟨mine, claimed, member, rfl, settles⟩ := resolves.owned id writes
    obtain ⟨author, _, same⟩ := reached claimed member
    have known := keyed claimed member
    obtain ⟨row, found, status, agrees⟩ := settles_charts serves fetched resolves.framed member same known settles
    exact ⟨mine, author, row, same ▸ known, found, status, agrees⟩

/-- A worker over its claimed batch, whatever the others do meanwhile. -/
theorem worker_charts (serves : graph.Serves verifier admits settings)
    (returns : settings.fetchUnion batch fetched) (nodup : (batch.map ClaimedAuthor.id).Nodup)
    {db : Database} (keyed : ∀ claimed ∈ batch, db.keyed claimed.id claimed.pubkey)
    (reached : ∀ claimed ∈ batch, ∃ author, (graph.admitted admits).Reaches anchor author ∧ author.bytes = claimed.pubkey) :
    Safe (leasing fun _ => True) leased (Charts (graph.admitted admits) anchor) Done (settings.worker batch fetched)
      (db, {id | id ∈ batch.map ClaimedAuthor.id}) := by
  obtain ⟨events, rfl, scripted⟩ := serves.fetches batch fetched returns
  have ready : Ready batch (db, {id | id ∈ batch.map ClaimedAuthor.id}) :=
    fun claimed member => ⟨List.mem_map_of_mem member, keyed claimed member⟩
  have resolved : Safe (leasing fun _ => True) leased
      (Resolves (settings.gate.listFor batch events) (timestampToDatetime settings.gate.now) batch)
      (succeeds fun count later => (∀ claimed ∈ batch, claimed.id ∉ later.2) ∧
        count = resolvedCount (settings.gate.listFor batch events) batch)
      (settings.worker batch (.ok events)) (db, {id | id ∈ batch.map ClaimedAuthor.id}) := by
    unfold Settings.worker
    exact processBatch_resolves (fun moved => moved) rfl nodup ready events
  have charted : Safe (leasing fun _ => True) leased (Charts (graph.admitted admits) anchor) _
      (settings.worker batch (.ok events)) (db, {id | id ∈ batch.map ClaimedAuthor.id}) := resolved.weaken
    (fun state => (∀ claimed ∈ batch, state.1.keyed claimed.id claimed.pubkey) ∧
      state.2 ⊆ {id | id ∈ batch.map ClaimedAuthor.id}) ⟨keyed, fun _ member => member⟩ ?_ ?_
  · apply charted.mono
    intro result later holds
    obtain ⟨⟨_, within⟩, ended⟩ := holds
    cases result with
    | error error => exact ended.elim
    | ok count =>
      refine ⟨⟨count, rfl⟩, ?_⟩
      apply Set.eq_empty_of_forall_notMem
      intro id member
      obtain ⟨claimed, listed, rfl⟩ := List.mem_map.mp (within member)
      exact ended.1 claimed listed member
  · intro before after moved kept
    refine ⟨fun claimed member => moved.2.1.keyed (kept.1 claimed member), ?_⟩
    rw [moved.1]
    exact kept.2
  · intro stmt before after kept resolves
    refine ⟨resolves_charts serves scripted reached kept.1 resolves, ?_, ?_⟩
    · exact fun claimed member => resolves.framed.persists.keyed (kept.1 claimed member)
    · rw [resolves.released]
      exact fun id member => kept.2 member.1

end Worker

end WotCrawler.Crawl
