import WotCrawler.Crawl.Lease

/-! What the store keeps of the lists applied over many fetch cycles: the last one, which is
the newest only when it was applied last. -/

namespace WotCrawler.Crawl

open Effect Store Ingest

/-- The runs of the store: calls of `apply_validated` with valid follow lists one after another,
and between them any statements but the edge transaction. -/
inductive History (verifier : Verifier) : List Event → Database → Prop where
  | start : History verifier [] Database.empty
  | apply (run : History verifier events before) (verified : verifier.verify event = true)
      (kind : event.kind = Kind.contactList)
      (extracted : followeePubkeys event followCap = some followees)
      (applied : Runs sql (applyValidated (.fromEvent event followees)).run before reply after) :
      History verifier (events ++ [event]) after
  | frontier (run : History verifier events before) (edgeless : stmt.edits = none)
      (executed : sql.exec stmt before reply after) : History verifier events after

variable {verifier : Verifier} {author : PublicKey} {event winner : Event} {events : List Event}
  {db before after : Database} {id : Nat}

/-- The last event applied for an author. -/
def lastOf (events : List Event) (author : PublicKey) : Option Event :=
  (events.filter (fun event => event.pubkey = author)).getLast?

theorem lastOf_append (events : List Event) (event : Event) :
    lastOf (events ++ [event]) = Function.update (lastOf events) event.pubkey (some event) := by
  funext author
  unfold lastOf
  by_cases same : author = event.pubkey
  · subst same
    simp
  · have other : ¬ event.pubkey = author := fun equal => same equal.symm
    simp [same, other]

theorem mem_of_lastOf (found : lastOf events author = some event) :
    event ∈ events ∧ event.pubkey = author := by
  have member := List.mem_of_getLast? found
  simpa using List.mem_filter.mp member

/-- A row to which no list was applied. -/
def Blank (db : Database) (id : Nat) : Prop :=
  (∀ row, db.rows id = some row → row.columns.appliedEventId = none) ∧
    ∀ followee, (id, followee) ∉ db.follows

/-- Every author's row holds the last event, or is blank where there is none. -/
structure Matches (last : PublicKey → Option Event) (db : Database) : Prop where
  holds : ∀ author event, last author = some event → ∃ id, db.keyed id author.bytes ∧ Holds db id event
  blank : ∀ author id, last author = none → db.keyed id author.bytes → Blank db id

/-- A row whose edges a statement does not write holds what it held. -/
theorem Holds.framed {stmt : Stmt} (framed : Framed stmt before after) (other : stmt.edits ≠ some id)
    (holds : Holds before id event) : Holds after id event := by
  obtain ⟨row, found, applied, createdAt⟩ := holds.applied
  obtain ⟨columns, kept⟩ := framed.persists id row found
  obtain ⟨sameId, sameTime⟩ := framed.list id row _ found kept other
  refine ⟨⟨_, kept, sameId.trans applied, sameTime.trans createdAt⟩, ?_⟩
  intro key
  rw [framed.persists.followsKey_iff (fun followee => framed.follows id followee other)]
  exact holds.edges key

theorem Blank.framed {stmt : Stmt} (framed : Framed stmt before after) (other : stmt.edits ≠ some id)
    (blank : ∀ row, before.rows id = some row → Blank before id) : Blank after id := by
  cases present : before.rows id with
  | some row =>
    obtain ⟨unapplied, edgeless⟩ := blank row present
    refine ⟨?_, fun followee edge => edgeless followee ((framed.follows id followee other).mp edge)⟩
    intro kept found
    exact (framed.list id row kept present found other).1.trans (unapplied row present)
  | none =>
    refine ⟨?_, ?_⟩
    · intro row found
      rw [(framed.fresh id row present found).2]
      rfl
    · intro followee edge
      have old := (framed.follows id followee other).mp edge
      have referenced := (before.follows_references _ old).1
      simp [present] at referenced

/-- Statements other than the edge transaction change no list. -/
theorem Matches.framed {stmt : Stmt} {last : PublicKey → Option Event} (known : Matches last before)
    (framed : Framed stmt before after) (edgeless : stmt.edits = none) : Matches last after := by
  have other (id : Nat) : stmt.edits ≠ some id := by simp [edgeless]
  refine ⟨?_, ?_⟩
  · intro author event found
    obtain ⟨id, keyed, holds⟩ := known.holds author event found
    exact ⟨id, framed.persists.keyed keyed, holds.framed framed (other id)⟩
  · intro author id absent keyed
    apply Blank.framed framed (other id)
    intro row found
    apply known.blank author id absent
    have present := Database.keyed_of_row found
    rwa [Database.keyed_key (framed.persists.keyed present) keyed] at present

/-- The edge transaction makes its event the last of its author. -/
theorem Matches.edited {stmt : Stmt} {last : PublicKey → Option Event} (known : Matches last before)
    (framed : Framed stmt before after) (edits : stmt.edits = some id)
    (keyed : before.keyed id event.pubkey.bytes) (holds : Holds after id event) :
    Matches (Function.update last event.pubkey (some event)) after := by
  have other (author : PublicKey) (row : Nat) (apart : author ≠ event.pubkey)
      (present : after.keyed row author.bytes) : stmt.edits ≠ some row := by
    rw [edits]
    intro same
    obtain rfl := Option.some.inj same
    exact apart (PublicKey.bytes_injective (Database.keyed_key present (framed.persists.keyed keyed)))
  refine ⟨?_, ?_⟩
  · intro author newest found
    by_cases same : author = event.pubkey
    · subst same
      rw [Function.update_self] at found
      obtain rfl := Option.some.inj found
      exact ⟨id, framed.persists.keyed keyed, holds⟩
    · rw [Function.update_of_ne same] at found
      obtain ⟨row, present, held⟩ := known.holds author newest found
      have kept := framed.persists.keyed present
      exact ⟨row, kept, held.framed framed (other author row same kept)⟩
  · intro author row absent present
    by_cases same : author = event.pubkey
    · subst same
      rw [Function.update_self] at absent
      cases absent
    · rw [Function.update_of_ne same] at absent
      apply Blank.framed framed (other author row same present)
      intro old found
      apply known.blank author row absent
      have keyed := Database.keyed_of_row found
      rwa [Database.keyed_key (framed.persists.keyed keyed) present] at keyed

/-- While an event is being applied, it is the last of its author or not yet. -/
private theorem Matches.applies {last : PublicKey → Option Event} {stmt : Stmt} {before after : Desk}
    (extracted : followeePubkeys event followCap = some followees)
    (applies : Applies (.fromEvent event followees) stmt before after)
    (known : Matches last before.1 ∨ Matches (Function.update last event.pubkey (some event)) before.1) :
    Matches last after.1 ∨ Matches (Function.update last event.pubkey (some event)) after.1 := by
  cases edits : stmt.edits with
  | none => exact known.imp (fun old => old.framed applies.framed edits) (fun new => new.framed applies.framed edits)
  | some id =>
    have keyed := (applies.owned id (Stmt.outcome_of_edits edits)).2
    have holds := (applies.lists id edits).holds extracted
    cases known with
    | inl old => exact .inr (old.edited applies.framed edits keyed holds)
    | inr new =>
      have again := new.edited applies.framed edits keyed holds
      rw [Function.update_idem] at again
      exact .inr again

/-- A row that holds another copy of its author's last event. -/
private theorem Matches.recorded {last : PublicKey → Option Event} (known : Matches last db)
    (genuine : ∀ author event, last author = some event → verifier.verify event = true)
    (verified : verifier.verify event = true) (keyed : db.keyed id event.pubkey.bytes)
    (applied : ∃ row, db.rows id = some row ∧ row.columns.appliedEventId = some event.id.bytes) :
    Matches (Function.update last event.pubkey (some event)) db := by
  obtain ⟨row, found, applied⟩ := applied
  have holds : Holds db id event := by
    cases earlier : last event.pubkey with
    | none =>
      have unapplied := (known.blank event.pubkey id earlier keyed).1 row found
      rw [applied] at unapplied
      cases unapplied
    | some copy =>
      obtain ⟨other, present, held⟩ := known.holds event.pubkey copy earlier
      obtain rfl := Database.keyed_unique present keyed
      obtain ⟨same, sameRow, sameId, _⟩ := held.applied
      obtain rfl := Option.some.inj (sameRow.symm.trans found)
      have ids := EventId.bytes_injective (Option.some.inj (sameId.symm.trans applied))
      exact held.of_copy verifier (genuine _ _ earlier) verified ids
  refine ⟨?_, ?_⟩
  · intro author newest latest
    by_cases same : author = event.pubkey
    · subst same
      rw [Function.update_self] at latest
      obtain rfl := Option.some.inj latest
      exact ⟨id, keyed, holds⟩
    · rw [Function.update_of_ne same] at latest
      exact known.holds author newest latest
  · intro author other absent present
    by_cases same : author = event.pubkey
    · subst same
      rw [Function.update_self] at absent
      cases absent
    · rw [Function.update_of_ne same] at absent
      exact known.blank author other absent present

/-- A call makes its event the last of its author. -/
theorem Matches.apply {last : PublicKey → Option Event} (known : Matches last before)
    (genuine : ∀ author event, last author = some event → verifier.verify event = true)
    (verified : verifier.verify event = true)
    (extracted : followeePubkeys event followCap = some followees)
    (applied : Runs sql (applyValidated (.fromEvent event followees)).run before reply after) :
    Matches (Function.update last event.pubkey (some event)) after := by
  have owns : Owns event.pubkey.bytes (before, Set.univ) := fun _ _ _ _ => Set.mem_univ _
  have safe : Safe (leasing fun _ => True) alone (Applies (.fromEvent event followees))
      (succeeds (Recorded alone (.fromEvent event followees)))
      (applyValidated (.fromEvent event followees)).run (before, Set.univ) :=
    applyValidated_safe alone_within owns
  have kept := safe.remember
    (fun state => Matches last state.1 ∨ Matches (Function.update last event.pubkey (some event)) state.1)
    (.inl known) (fun moved held => by have same := moved; subst same; exact held)
    (fun applies held => Matches.applies extracted applies held)
  obtain ⟨final, run⟩ := applied.noting Set.univ
  obtain ⟨ended, recorded⟩ := kept.must _ _ run
  cases ended with
  | inr new => exact new
  | inl old =>
    cases reply with
    | error error => exact recorded.elim
    | ok changed =>
      obtain ⟨settled, id, same, keyed, applied, _⟩ := recorded
      obtain rfl : (after, final) = settled := same
      exact old.recorded genuine verified keyed applied

/-- Along every history the rows hold the last events applied, all of them valid. -/
theorem History.matches (history : History verifier events db) :
    (∀ event ∈ events, verifier.verify event = true) ∧ Matches (lastOf events) db := by
  induction history with
  | start =>
    refine ⟨(fun _ member => by cases member), ?_, ?_⟩
    · intro author event found
      cases found
    · rintro author id _ ⟨columns, found⟩
      cases found
  | apply run verified kind extracted applied ih =>
    obtain ⟨genuine, known⟩ := ih
    refine ⟨?_, ?_⟩
    · intro event member
      cases List.mem_append.mp member with
      | inl old => exact genuine event old
      | inr new => rwa [List.mem_singleton.mp new]
    · rw [lastOf_append]
      exact known.apply (fun author event found => genuine event (mem_of_lastOf found).1) verified
        extracted applied
  | frontier run edgeless executed ih =>
    obtain ⟨now, locked, _, executes⟩ := executed
    exact ⟨ih.1, ih.2.framed executes.framed edgeless⟩

/-- Newest wins across fetch cycles exactly when the newest list was applied last: whatever was
applied, in whatever order, an author's row holds the NIP-01 winner of its history if and only
if the last call carried it. -/
theorem newest_wins_iff (history : History verifier events db)
    (wins : Nip01Winner (fun event => event ∈ events ∧ event.pubkey = author) winner) :
    (∃ id, db.keyed id author.bytes ∧ Holds db id winner) ↔
      ∃ last, lastOf events author = some last ∧ last.id = winner.id := by
  obtain ⟨genuine, known⟩ := history.matches
  obtain ⟨member, rfl⟩ := wins.member
  obtain ⟨last, found⟩ : ∃ last, lastOf events winner.pubkey = some last := by
    have inhabited : events.filter (fun event => event.pubkey = winner.pubkey) ≠ [] :=
      List.ne_nil_of_mem (List.mem_filter.mpr ⟨member, by simp⟩)
    exact ⟨_, List.getLast?_eq_some_getLast inhabited⟩
  obtain ⟨id, keyed, holds⟩ := known.holds winner.pubkey last found
  constructor
  · rintro ⟨other, present, held⟩
    obtain rfl := Database.keyed_unique present keyed
    obtain ⟨row, there, applied, _⟩ := holds.applied
    obtain ⟨same, here, wanted, _⟩ := held.applied
    obtain rfl := Option.some.inj (there.symm.trans here)
    exact ⟨last, found, EventId.bytes_injective (Option.some.inj (applied.symm.trans wanted))⟩
  · rintro ⟨other, latest, same⟩
    obtain rfl := Option.some.inj (found.symm.trans latest)
    have lastVerified := genuine last (mem_of_lastOf found).1
    exact ⟨id, keyed, holds.of_copy verifier lastVerified (genuine winner member) same⟩

/-- Every valid list can be applied in every state of the store. -/
theorem History.extend (history : History verifier events db) (verified : verifier.verify event = true)
    (kind : event.kind = Kind.contactList) (extracted : followeePubkeys event followCap = some followees) :
    ∃ after, History verifier (events ++ [event]) after := by
  obtain ⟨reply, after, run, _⟩ := May.of_total sql_total (applyValidated (.fromEvent event followees)).run db
  exact ⟨after, history.apply verified kind extracted run⟩

/-- Two versions of one author's list, a newer and a stale one. -/
def newerEvent : Event := sampleEvent 1 20 ""

def olderEvent : Event := sampleEvent 2 10 ""

private theorem versions_eq {left right : Event} (first : left = newerEvent ∨ left = olderEvent)
    (second : right = newerEvent ∨ right = olderEvent) (same : left.id = right.id) : left = right := by
  have apart : newerEvent.id ≠ olderEvent.id := by decide
  cases first with
  | inl first =>
    cases second with
    | inl second => exact first.trans second.symm
    | inr second => exact absurd (first ▸ second ▸ same) apart
  | inr first =>
    cases second with
    | inl second => exact absurd (first ▸ second ▸ same) apart.symm
    | inr second => exact first.trans second.symm

def versionsVerifier : Verifier where
  verify := fun event => event = newerEvent ∨ event = olderEvent
  pubkey_eq := fun first second same =>
    congrArg Event.pubkey (versions_eq (of_decide_eq_true first) (of_decide_eq_true second) same)
  kind_eq := fun first second same =>
    congrArg Event.kind (versions_eq (of_decide_eq_true first) (of_decide_eq_true second) same)
  createdAt_eq := fun first second same =>
    congrArg Event.createdAt (versions_eq (of_decide_eq_true first) (of_decide_eq_true second) same)
  tags_eq := fun first second same =>
    congrArg Event.tags (versions_eq (of_decide_eq_true first) (of_decide_eq_true second) same)

private theorem newerEvent_wins : Nip01Winner
    (fun event => event ∈ [newerEvent, olderEvent] ∧ event.pubkey = sampleAuthor) newerEvent := by
  refine ⟨⟨by simp, rfl⟩, ?_⟩
  rintro event ⟨member, _⟩
  cases List.mem_cons.mp member with
  | inl newer => exact .inl (newer ▸ rfl)
  | inr rest =>
    have older := List.mem_singleton.mp rest
    exact .inr (.inl (by rw [older]; decide))

private theorem versions_history :
    ∃ db, History versionsVerifier [newerEvent, olderEvent] db := by
  have initial : History versionsVerifier [] Database.empty := .start
  have newerListed : followeePubkeys newerEvent 0 = some [] := by decide
  have olderListed : followeePubkeys olderEvent 0 = some [] := by decide
  obtain ⟨first, newer⟩ := initial.extend (by decide) (by decide) newerListed
  obtain ⟨second, older⟩ := newer.extend (by decide) (by decide) olderListed
  exact ⟨second, older⟩

/-- A stale mirror is heard last: the older list replaces the newer one already applied. -/
theorem newest_wins_fails : ∃ db, History versionsVerifier [newerEvent, olderEvent] db ∧
    Nip01Winner (fun event => event ∈ [newerEvent, olderEvent] ∧ event.pubkey = sampleAuthor) newerEvent ∧
    ¬ ∃ id, db.keyed id sampleAuthor.bytes ∧ Holds db id newerEvent := by
  obtain ⟨db, history⟩ := versions_history
  refine ⟨db, history, newerEvent_wins, ?_⟩
  rintro ⟨id, keyed, holds⟩
  have latest : lastOf [newerEvent, olderEvent] sampleAuthor = some olderEvent := by decide
  obtain ⟨other, present, held⟩ := history.matches.2.holds sampleAuthor olderEvent latest
  obtain rfl := Database.keyed_unique present keyed
  obtain ⟨row, there, applied, _⟩ := held.applied
  obtain ⟨same, here, wanted, _⟩ := holds.applied
  obtain rfl := Option.some.inj (there.symm.trans here)
  have ids := EventId.bytes_injective (Option.some.inj (applied.symm.trans wanted))
  exact absurd ids (by decide)

/-- The theorem at that history: the older list came last, so the newer one is not held. -/
theorem newest_wins_iff_versions : ∃ db, History versionsVerifier [newerEvent, olderEvent] db ∧
    ((∃ id, db.keyed id sampleAuthor.bytes ∧ Holds db id newerEvent) ↔
      ∃ last, lastOf [newerEvent, olderEvent] sampleAuthor = some last ∧ last.id = newerEvent.id) := by
  obtain ⟨db, history⟩ := versions_history
  exact ⟨db, history, newest_wins_iff history newerEvent_wins⟩

end WotCrawler.Crawl
