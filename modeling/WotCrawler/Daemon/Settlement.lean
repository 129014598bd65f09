import WotCrawler.Crawl.Batch
import WotCrawler.Daemon.Miss

/-! A batch with its fallback. It applies one list after another, that of each author who is answered by
the curated relays or by its write relays, stamps the others, and touches nothing else. -/

namespace WotCrawler.Daemon

open Effect Store Crawl Ingest

/-- Write relays to ask, of those stored. -/
structure Asks (fallback : Fallback) (stored : List RelayRow) (urls : List String) : Prop where
  few : urls.length ≤ fallback.maxWriteRelays
  written : ∀ url ∈ urls, ∃ row ∈ stored, row.url = url ∧ row.writes

/-- How an author is answered, by the curated union or else by the write relays that are stored in the
end. -/
inductive Answer (verifier : Verifier) (gate : GateParams) (fallback : Fallback) (union : List Event)
    (claimed : ClaimedAuthor) (stored : List RelayRow) : Option Event → Prop where
  | curated (wins : Wins verifier gate union claimed winner) : Answer verifier gate fallback union claimed stored (some winner)
  | recovered (unlisted : ¬ ∃ winner, Wins verifier gate union claimed winner) (enabled : fallback.enabled = true)
      (parsed : PublicKey.fromSlice claimed.pubkey = some author) (asks : Asks fallback stored urls)
      (recovers : Recovers verifier gate fallback author urls winner) :
      Answer verifier gate fallback union claimed stored (some winner)
  | unrecovered (unlisted : ¬ ∃ winner, Wins verifier gate union claimed winner) (enabled : fallback.enabled = true)
      (parsed : PublicKey.fromSlice claimed.pubkey = some author) (asks : Asks fallback stored urls)
      (lost : ¬ ∃ winner, Recovers verifier gate fallback author urls winner) :
      Answer verifier gate fallback union claimed stored none
  | unasked (unlisted : ¬ ∃ winner, Wins verifier gate union claimed winner)
      (silent : fallback.enabled = true → (PublicKey.fromSlice claimed.pubkey).isSome → ¬ ∃ row ∈ stored, row.writes) :
      Answer verifier gate fallback union claimed stored none

/-- What becomes of one author's row. -/
structure Resolution (verifier : Verifier) (gate : GateParams) (fallback : Fallback) (union : List Event)
    (before after : Database) (claimed : ClaimedAuthor) (answer : Option Event) : Prop where
  answered : Answer verifier gate fallback union claimed (after.relays claimed.id) answer
  fetched : ∀ winner ∈ answer, Fetched after claimed.id ∧ Holds after claimed.id winner
  missed : answer = none → (∃ row, after.rows claimed.id = some row ∧ row.columns.status = .notFound) ∧
    ∀ followee, (claimed.id, followee) ∈ after.follows ↔ (claimed.id, followee) ∈ before.follows
  relisted : after.relays claimed.id ≠ before.relays claimed.id → fallback.enabled = true ∧
    ∃ author raw event, PublicKey.fromSlice claimed.pubkey = some author ∧ fallback.relayListFetch author = .ok raw ∧
      Admissible verifier.verify raw Kind.relayList gate.now gate.futureClampSecs author event ∧
      after.relays claimed.id = listedRows event

/-- A database comes from another by applying valid lists, one after another, and by statements between them that
write no edges. -/
inductive Applies (verifier : Verifier) (before : Database) : List Event → Database → Prop where
  | refl : Applies verifier before [] before
  | apply (run : Applies verifier before events between) (verified : verifier.verify event = true)
      (kind : event.kind = Kind.contactList) (extracted : followeePubkeys event followCap = some followees)
      (applied : Runs sql (applyValidated (.fromEvent event followees)).run between reply after) :
      Applies verifier before (events ++ [event]) after
  | frontier (run : Applies verifier before events between) (edgeless : stmt.edits = none)
      (executed : sql.exec stmt between reply after) : Applies verifier before events after

/-- What is left alone: other rows and their relay lists, and new rows are followees of the lists applied. -/
structure Confined (ids : List Nat) (winners : List Event) (before after : Database) : Prop where
  persists : Persists before after
  untouched : ∀ id, id ∉ ids → before.Untouched after id ∧ after.relays id = before.relays id
  fresh : ∀ id row, before.rows id = none → after.rows id = some row → row.columns = Columns.default ∧
    ∃ winner ∈ winners, ∃ followee ∈ followeeSet winner, followee.bytes = row.pubkey

variable {verifier : Verifier} {gate : GateParams} {fallback : Fallback} {union log : List Event}
  {claimed : ClaimedAuthor} {author : PublicKey} {winner : Event} {followees : List PublicKey}
  {before between after : Database} {id : Nat} {stamp : DateTime}

section Applies

variable {early late : List Event}

theorem Applies.trans (first : Applies verifier before early between) (second : Applies verifier between late after) :
    Applies verifier before (early ++ late) after := by
  induction second with
  | refl => simpa using first
  | apply _ verified kind extracted applied ih =>
    rw [← List.append_assoc]
    exact ih.apply verified kind extracted applied
  | frontier _ edgeless executed ih => exact ih.frontier edgeless executed

/-- What is applied later continues a history. -/
theorem Applies.history (applies : Applies verifier before late after) (history : History verifier log before) :
    History verifier (log ++ late) after := by
  induction applies with
  | refl => simpa using history
  | apply _ verified kind extracted applied ih =>
    rw [← List.append_assoc]
    exact ih.apply verified kind extracted applied
  | frontier _ edgeless executed ih => exact ih.frontier edgeless executed

/-- A program that writes no edges applies nothing. -/
private theorem applies_frontiers {prog : Prog Sql α} {result : α}
    (edgeless : prog.Issues fun stmt : Stmt => stmt.edits = none) (run : Runs sql prog before result after) :
    Applies verifier before [] after :=
  edgeless.preserves run (fun edgeless executed applies => applies.frontier edgeless executed) .refl

end Applies

theorem Confined.refl (db : Database) : Confined [] [] db db where
  persists := .refl db
  untouched := fun _ _ => ⟨⟨fun _ found => found, fun _ => Iff.rfl⟩, rfl⟩
  fresh := fun id row absent found => by cases absent.symm.trans found

/-- One after another, where the rows resolved later are there from the start. -/
theorem Confined.trans {first second : List Nat} {early late : List Event} (left : Confined first early before between)
    (right : Confined second late between after) (known : ∀ id ∈ second, (before.rows id).isSome) :
    Confined (first ++ second) (early ++ late) before after where
  persists := left.persists.trans right.persists
  untouched := by
    intro id apart
    obtain ⟨one, two⟩ := not_or.mp fun member => apart (List.mem_append.mpr member)
    obtain ⟨⟨rows, edges⟩, relays⟩ := left.untouched id one
    obtain ⟨⟨later, further⟩, kept⟩ := right.untouched id two
    exact ⟨⟨fun row found => later row (rows row found), fun followee => (further followee).trans (edges followee)⟩,
      kept.trans relays⟩
  fresh := by
    intro id row absent found
    cases middle : between.rows id with
    | none =>
      obtain ⟨default, winner, member, named⟩ := right.fresh id row middle found
      exact ⟨default, winner, List.mem_append_right _ member, named⟩
    | some old =>
      have apart : id ∉ second := fun member => by simpa [absent] using known id member
      obtain rfl := Option.some.inj (((right.untouched id apart).1.1 old middle).symm.trans found)
      obtain ⟨default, winner, member, named⟩ := left.fresh id old absent middle
      exact ⟨default, winner, List.mem_append_left _ member, named⟩

section Resolution

variable {answer : Option Event}

/-- A row that is left alone afterwards stays resolved. -/
theorem Resolution.later (resolution : Resolution verifier gate fallback union before between claimed answer)
    (persists : Persists between after) (untouched : between.Untouched after claimed.id)
    (relays : after.relays claimed.id = between.relays claimed.id) :
    Resolution verifier gate fallback union before after claimed answer where
  answered := relays ▸ resolution.answered
  fetched := by
    intro winner same
    obtain ⟨⟨row, found, status⟩, holds⟩ := resolution.fetched winner same
    obtain ⟨kept, there, recorded⟩ := holds.applied
    refine ⟨⟨row, untouched.1 row found, status⟩, ⟨kept, untouched.1 kept there, recorded⟩, ?_⟩
    intro key
    rw [persists.followsKey_iff untouched.2]
    exact holds.edges key
  missed := by
    intro unanswered
    obtain ⟨⟨row, found, status⟩, edges⟩ := resolution.missed unanswered
    exact ⟨⟨row, untouched.1 row found, status⟩, fun followee => (untouched.2 followee).trans (edges followee)⟩
  relisted := by
    rw [relays]
    exact resolution.relisted

/-- And one that was left alone before is resolved as of the start. -/
theorem Resolution.earlier (resolution : Resolution verifier gate fallback union between after claimed answer)
    (untouched : before.Untouched between claimed.id) (relays : between.relays claimed.id = before.relays claimed.id) :
    Resolution verifier gate fallback union before after claimed answer where
  answered := resolution.answered
  fetched := resolution.fetched
  missed := by
    intro unanswered
    obtain ⟨stamped, edges⟩ := resolution.missed unanswered
    exact ⟨stamped, fun followee => (edges followee).trans (untouched.2 followee)⟩
  relisted := relays ▸ resolution.relisted

end Resolution

section Author

/-- What resolving one author leaves, whichever way it is answered. -/
structure AuthorSettled (verifier : Verifier) (claimed : ClaimedAuthor) (answer : Option Event)
    (before : Database) (reply : Except StoreError Nat) (after : Database) : Prop where
  counted : reply = .ok answer.toList.length
  applies : Applies verifier before answer.toList after
  persists : Persists before after
  others : ∀ id, id ≠ claimed.id → before.Untouched after id
  fresh : ∀ id row, before.rows id = none → after.rows id = some row → row.columns = Columns.default ∧
    ∃ winner ∈ answer, ∃ followee ∈ followeeSet winner, followee.bytes = row.pubkey
  fetched : ∀ winner ∈ answer, Fetched after claimed.id ∧ Holds after claimed.id winner
  missed : answer = none → (∃ row, after.rows claimed.id = some row ∧ row.columns.status = .notFound) ∧
    after.follows = before.follows
  relays : after.relays = before.relays

/-- The stamp of an author without an answer. -/
private theorem settled_stamp (known : (before.rows claimed.id).isSome)
    (run : Runs sql (settleMiss claimed stamp none).run before reply after) :
    AuthorSettled verifier claimed none before reply after := by
  obtain ⟨answer, stamped, executed, rest⟩ := runs_call_iff.mp run
  have applies : Applies verifier before [] stamped := .frontier .refl rfl executed
  obtain ⟨_, _, _, answered, written⟩ := executed
  subst answered
  obtain ⟨rfl, rfl⟩ := runs_ret_iff.mp rest
  have others (id : Nat) (apart : id ≠ claimed.id) : stamped.rows id = before.rows id := by
    rw [written, Database.updateRow_rows_of_ne _ _ apart]
  have follows : stamped.follows = before.follows := by rw [written, Database.updateRow_follows]
  obtain ⟨old, present⟩ := Option.isSome_iff_exists.mp known
  have own : stamped.rows claimed.id = some ⟨old.pubkey, old.columns.setStatus .notFound stamp⟩ := by
    rw [written, Database.updateRow_rows_self, present]
    rfl
  refine ⟨rfl, applies, ?_, ?_, ?_, ?_, ?_, by rw [written, Database.updateRow_relays]⟩
  · intro id row found
    by_cases same : id = claimed.id
    · subst same
      obtain rfl := Option.some.inj (found.symm.trans present)
      exact ⟨_, own⟩
    · exact ⟨row.columns, (others id same).trans found⟩
  · exact fun id apart => ⟨fun row found => (others id apart).trans found, fun followee => by rw [follows]⟩
  · intro id row absent found
    by_cases same : id = claimed.id
    · subst same
      cases absent.symm.trans present
    · cases absent.symm.trans ((others id same).symm.trans found)
  · exact fun winner none => by cases none
  · exact fun _ => ⟨⟨_, own, rfl⟩, follows⟩

/-- The list of an author with one. -/
private theorem settled_apply (history : History verifier log before) (verified : verifier.verify winner = true)
    (kind : winner.kind = Kind.contactList) (extracted : followeePubkeys winner followCap = some followees)
    (keyed : before.keyed claimed.id winner.pubkey.bytes)
    (run : Runs sql (settleMiss claimed stamp (some (.fromEvent winner followees))).run before reply after) :
    AuthorSettled verifier claimed (some winner) before reply after := by
  unfold settleMiss at run
  rw [ExceptT.run_bind] at run
  obtain ⟨result, applied, first, rest⟩ := runs_bind_iff.mp run
  obtain ⟨⟨changed, rfl⟩, done, applying, sparing⟩ := applyValidated_applying keyed _ _ first
  obtain ⟨rfl, rfl⟩ := runs_ret_iff.mp rest
  have applies : Applies verifier before [winner] applied := .apply .refl verified kind extracted first
  have last : lastOf (log ++ [winner]) winner.pubkey = some winner := by rw [lastOf_append, Function.update_self]
  obtain ⟨id, there, holds⟩ := (applies.history history).matches.2.holds winner.pubkey winner last
  obtain rfl := Database.keyed_unique there (applying.persists.keyed keyed)
  refine ⟨rfl, applies, applying.persists, applying.others, ?_, ?_, (fun none => by cases none), sparing.relays⟩
  · intro other row absent found
    obtain ⟨default, followee, named, same⟩ := applying.fresh other row absent found
    exact ⟨default, winner, rfl, followee, (followeePubkeys_spec extracted).2.1 ▸ List.mem_toFinset.mpr named, same⟩
  · intro other same
    obtain rfl := Option.some.inj same
    exact ⟨done, holds⟩

/-- The same from before the relay list was looked up. -/
private theorem AuthorSettled.resolves {answer : Option Event} {reply : Except StoreError Nat}
    (settled : AuthorSettled verifier claimed answer between reply after) (rows : between.rows = before.rows)
    (follows : between.follows = before.follows)
    (relays : ∀ id, id ≠ claimed.id → between.relays id = before.relays id)
    (answered : Answer verifier gate fallback union claimed (between.relays claimed.id) answer)
    (relisted : between.relays claimed.id ≠ before.relays claimed.id → fallback.enabled = true ∧
      ∃ author raw event, PublicKey.fromSlice claimed.pubkey = some author ∧ fallback.relayListFetch author = .ok raw ∧
        Admissible verifier.verify raw Kind.relayList gate.now gate.futureClampSecs author event ∧
        between.relays claimed.id = listedRows event) :
    Confined [claimed.id] answer.toList before after ∧ Resolution verifier gate fallback union before after claimed answer := by
  refine ⟨⟨?_, ?_, ?_⟩, ?_, settled.fetched, ?_, ?_⟩
  · exact fun id row found => settled.persists id row (rows ▸ found)
  · intro id apart
    have apart : id ≠ claimed.id := fun same => apart (List.mem_singleton.mpr same)
    obtain ⟨kept, edges⟩ := settled.others id apart
    refine ⟨⟨fun row found => kept row (rows ▸ found), ?_⟩, (congrFun settled.relays id).trans (relays id apart)⟩
    exact fun followee => follows ▸ edges followee
  · intro id row absent found
    obtain ⟨default, winner, same, named⟩ := settled.fresh id row (rows ▸ absent) found
    exact ⟨default, winner, Option.mem_toList.mpr same, named⟩
  · rw [settled.relays]
    exact answered
  · intro unanswered
    obtain ⟨stamped, edges⟩ := settled.missed unanswered
    exact ⟨stamped, fun followee => by rw [edges, follows]⟩
  · rw [settled.relays]
    exact relisted

/-- An author whom the curated union does not list is answered by its write relays. -/
private theorem missed_settled {byAuthor : PublicKey → Option ValidatedFollowList} {reply : Except StoreError Nat}
    (history : History verifier log before) (keyed : before.keyed claimed.id claimed.pubkey)
    (parsed : PublicKey.fromSlice claimed.pubkey = some author) (missed : byAuthor author = none)
    (unlisted : ¬ ∃ winner, Wins verifier gate union claimed winner) (enabled : fallback.enabled = true)
    (verified : gate.verify = verifier.verify) (lists : gate.wantKind = Kind.contactList)
    (run : Runs sql (resolveAuthor gate fallback stamp byAuthor claimed).run before reply after) :
    ∃ answer : Option Event, reply = .ok answer.toList.length ∧ Applies verifier before answer.toList after ∧
      Confined [claimed.id] answer.toList before after ∧
      Resolution verifier gate fallback union before after claimed answer := by
  rw [resolveAuthor_missed parsed missed enabled, ExceptT.run_bind] at run
  obtain ⟨result, between, first, rest⟩ := runs_bind_iff.mp run
  have own : before.keyed claimed.id author.bytes := PublicKey.fromSlice_eq_some_iff.mp parsed ▸ keyed
  obtain ⟨writeRelays, rfl, looked⟩ := knownRelays_must own _ _ first
  have relisting : Applies verifier before [] between :=
    applies_frontiers (knownRelays_issues rfl (fun _ => rfl) (fun _ _ _ => rfl)) first
  have others (id : Nat) (apart : id ≠ claimed.id) : between.relays id = before.relays id := by
    by_contra changed
    exact apart (looked.relays_changed verified changed).1
  have replaced (changed : between.relays claimed.id ≠ before.relays claimed.id) : fallback.enabled = true ∧
      ∃ author raw event, PublicKey.fromSlice claimed.pubkey = some author ∧ fallback.relayListFetch author = .ok raw ∧
        Admissible verifier.verify raw Kind.relayList gate.now gate.futureClampSecs author event ∧
        between.relays claimed.id = listedRows event := by
    obtain ⟨_, raw, event, found⟩ := looked.relays_changed verified changed
    exact ⟨enabled, author, raw, event, parsed, found⟩
  dsimp only at rest
  cases found : recoverFrom gate fallback author writeRelays with
  | none =>
    rw [found] at rest
    have stands : (between.rows claimed.id).isSome := by
      obtain ⟨columns, present⟩ := own
      exact Option.isSome_of_eq_some (looked.rows ▸ present)
    have settled : AuthorSettled verifier claimed none between reply after := settled_stamp stands rest
    have lost := recoverFrom_eq_none verified found
    refine ⟨none, settled.counted, relisting.trans settled.applies,
      settled.resolves looked.rows looked.follows others ?_ replaced⟩
    cases asked : askedRelays fallback author writeRelays with
    | none =>
      refine .unasked unlisted fun _ _ writes => ?_
      simpa [asked] using looked.asked_isSome.mpr writes
    | some urls =>
      obtain ⟨few, written⟩ := looked.asked_stored asked
      refine .unrecovered unlisted enabled parsed ⟨few, written⟩ ?_
      rintro ⟨winner, recovers⟩
      exact lost ⟨urls, asked, winner, recovers⟩
  | some vfl =>
    rw [found] at rest
    obtain ⟨urls, asked, winner, followees, recovers, rfl, extracted, rfl⟩ := recoverFrom_eq_some verified found
    have signed : verifier.verify winner = true ∧ winner.kind = gate.wantKind := by
      obtain ⟨_, _, best, _⟩ := recovers
      exact ⟨best.member.2.1, best.member.2.2.2.1⟩
    have known : between.keyed claimed.id winner.pubkey.bytes := by simpa [Database.keyed, looked.rows] using own
    have later : History verifier log between := by simpa using relisting.history history
    have settled := settled_apply later signed.1 (signed.2.trans lists) extracted known rest
    obtain ⟨few, written⟩ := looked.asked_stored asked
    exact ⟨some winner, settled.counted, relisting.trans settled.applies, settled.resolves looked.rows looked.follows
      others (.recovered unlisted enabled parsed ⟨few, written⟩ recovers) replaced⟩

/-- Whichever way an author is answered, its row is resolved by the answer and nothing else changes. -/
theorem resolveAuthor_settled {batch : List ClaimedAuthor} {reply : Except StoreError Nat}
    (history : History verifier log before)
    (keyed : before.keyed claimed.id claimed.pubkey) (member : claimed ∈ batch) (verified : gate.verify = verifier.verify)
    (lists : gate.wantKind = Kind.contactList)
    (run : Runs sql (resolveAuthor gate fallback stamp (indexByAuthor (ingestEvents gate.verify union gate.wantKind
      (requestedAuthors batch).toFinset gate.now gate.futureClampSecs gate.followCap)) claimed).run before reply after) :
    ∃ answer : Option Event, reply = .ok answer.toList.length ∧ Applies verifier before answer.toList after ∧
      Confined [claimed.id] answer.toList before after ∧
      Resolution verifier gate fallback union before after claimed answer := by
  have stands : (before.rows claimed.id).isSome := by
    obtain ⟨columns, present⟩ := keyed
    exact Option.isSome_of_eq_some present
  have still {answer : Option Event} (settled : AuthorSettled verifier claimed answer before reply after)
      (answered : Answer verifier gate fallback union claimed (before.relays claimed.id) answer) :=
    settled.resolves rfl rfl (fun _ _ => rfl) answered fun changed => absurd rfl changed
  have unlisted (listless : gate.listFor batch union claimed = none) : ¬ ∃ winner, Wins verifier gate union claimed winner := by
    rintro ⟨winner, wins⟩
    obtain ⟨vfl, listed⟩ := listFor_isSome verifier verified member wins
    cases listless.symm.trans listed
  cases parsed : PublicKey.fromSlice claimed.pubkey with
  | none =>
    have stamps : Runs sql (settleMiss claimed stamp none).run before reply after := by
      simp only [resolveAuthor, parsed] at run
      exact run
    have settled : AuthorSettled verifier claimed none before reply after := settled_stamp stands stamps
    have listless : gate.listFor batch union claimed = none := by simp [GateParams.listFor, listOf, parsed]
    have answered : Answer verifier gate fallback union claimed (before.relays claimed.id) none :=
      .unasked (unlisted listless) fun _ malformed => by simp [parsed] at malformed
    exact ⟨none, settled.counted, settled.applies, still settled answered⟩
  | some author =>
    cases listed : gate.listFor batch union claimed with
    | some vfl =>
      have found := listed
      simp only [GateParams.listFor, listOf, parsed, Option.bind_some] at found
      obtain ⟨winner, followees, wins, own, extracted, rfl⟩ := listFor_eq_some verifier verified listed
      have applies : Runs sql (settleMiss claimed stamp (some (.fromEvent winner followees))).run before reply after := by
        simp only [resolveAuthor, parsed, found] at run
        exact run
      have signed : verifier.verify winner = true ∧ winner.kind = gate.wantKind := by
        obtain ⟨_, _, best, _⟩ := wins
        exact ⟨best.member.2.1, best.member.2.2.2.1⟩
      have settled := settled_apply history signed.1 (signed.2.trans lists) extracted (own ▸ keyed) applies
      exact ⟨some winner, settled.counted, settled.applies, still settled (.curated wins)⟩
    | none =>
      have missed := listed
      simp only [GateParams.listFor, listOf, parsed, Option.bind_some] at missed
      cases enabled : fallback.enabled with
      | false =>
        have stamps : Runs sql (settleMiss claimed stamp none).run before reply after := by
          simp only [resolveAuthor, parsed, missed, enabled] at run
          exact run
        have settled : AuthorSettled verifier claimed none before reply after := settled_stamp stands stamps
        have answered : Answer verifier gate fallback union claimed (before.relays claimed.id) none :=
          .unasked (unlisted listed) fun on => by simp [enabled] at on
        exact ⟨none, settled.counted, settled.applies, still settled answered⟩
      | true => exact missed_settled history keyed parsed missed (unlisted listed) enabled verified lists run

end Author

section Batch

variable {batch rest : List ClaimedAuthor} {reply : Except StoreError Nat}

private theorem resolveAll_settled {applied : Nat} (history : History verifier log before) (inside : rest ⊆ batch)
    (distinct : (rest.map ClaimedAuthor.id).Nodup) (keyed : ∀ claimed ∈ rest, before.keyed claimed.id claimed.pubkey)
    (verified : gate.verify = verifier.verify) (lists : gate.wantKind = Kind.contactList)
    (run : Runs sql (resolveAll gate fallback stamp (indexByAuthor (ingestEvents gate.verify union gate.wantKind
      (requestedAuthors batch).toFinset gate.now gate.futureClampSecs gate.followCap)) applied rest).run before reply after) :
    ∃ answers : ClaimedAuthor → Option Event, reply = .ok (applied + (rest.filterMap answers).length) ∧
      Applies verifier before (rest.filterMap answers) after ∧
      Confined (rest.map ClaimedAuthor.id) (rest.filterMap answers) before after ∧
      ∀ claimed ∈ rest, Resolution verifier gate fallback union before after claimed (answers claimed) := by
  induction rest generalizing applied log before with
  | nil =>
    obtain ⟨rfl, rfl⟩ := runs_ret_iff.mp run
    exact ⟨fun _ => none, rfl, .refl, .refl before, fun _ member => by cases member⟩
  | cons claimed rest ih =>
    obtain ⟨apart, distinct⟩ := List.nodup_cons.mp distinct
    have others (other : ClaimedAuthor) (member : other ∈ rest) : other.id ∉ [claimed.id] := by
      rw [List.mem_singleton]
      exact fun same => apart (same ▸ List.mem_map_of_mem member)
    unfold resolveAll at run
    rw [ExceptT.run_bind] at run
    obtain ⟨result, between, first, more⟩ := runs_bind_iff.mp run
    obtain ⟨answer, rfl, head, confined, resolution⟩ :=
      resolveAuthor_settled history (keyed claimed (List.mem_cons_self ..)) (inside (List.mem_cons_self ..)) verified lists first
    have stands (other : ClaimedAuthor) (member : other ∈ rest) : between.keyed other.id other.pubkey :=
      confined.persists.keyed (keyed other (List.mem_cons_of_mem _ member))
    obtain ⟨answers, rfl, tail, confinedRest, resolutions⟩ :=
      ih (head.history history) (fun other member => inside (List.mem_cons_of_mem _ member)) distinct stands more
    have same : rest.filterMap (Function.update answers claimed answer) = rest.filterMap answers := by
      apply List.filterMap_congr
      intro other member
      exact Function.update_of_ne (fun same => others other member (List.mem_singleton.mpr (congrArg _ same))) ..
    have listed : (claimed :: rest).filterMap (Function.update answers claimed answer) =
        answer.toList ++ rest.filterMap answers := by
      rw [List.filterMap_cons, Function.update_self, same]
      cases answer <;> rfl
    refine ⟨Function.update answers claimed answer, ?_, ?_, ?_, ?_⟩
    · rw [listed, List.length_append, Nat.add_assoc]
    · rw [listed]
      exact head.trans tail
    · rw [listed]
      apply confined.trans confinedRest
      intro id member
      obtain ⟨other, present, rfl⟩ := List.mem_map.mp member
      obtain ⟨columns, found⟩ := keyed other (List.mem_cons_of_mem _ present)
      exact Option.isSome_of_eq_some found
    · intro other member
      rcases List.mem_cons.mp member with rfl | present
      · rw [Function.update_self]
        obtain ⟨untouched, relays⟩ := confinedRest.untouched other.id apart
        exact resolution.later confinedRest.persists untouched relays
      · have different : other ≠ claimed := fun same => others other present (List.mem_singleton.mpr (congrArg _ same))
        rw [Function.update_of_ne different]
        obtain ⟨untouched, relays⟩ := confined.untouched other.id (others other present)
        exact (resolutions other present).earlier untouched relays

/-- A batch whose union was fetched, with the fallback on or off, in every database that lists applied
one after another leave: where the database fails no statement from outside, it resolves each claimed author
by its NIP-01 winner in the union or else in what its stored write relays return, counts those, and makes of the
database it found what their lists make of it, applied one after another. -/
theorem batch_settled (history : History verifier log before) (claims : Claims before batch)
    (verified : gate.verify = verifier.verify) (lists : gate.wantKind = Kind.contactList) :
    May sql (processBatch gate maxAttempts fallback batch (.ok union)).run before (fun _ _ => True) ∧
      Must sql (processBatch gate maxAttempts fallback batch (.ok union)).run before fun reply after =>
        ∃ answers : ClaimedAuthor → Option Event, reply = .ok (batch.filterMap answers).length ∧
          Applies verifier before (batch.filterMap answers) after ∧
          Confined (batch.map ClaimedAuthor.id) (batch.filterMap answers) before after ∧
          ∀ claimed ∈ batch, Resolution verifier gate fallback union before after claimed (answers claimed) := by
  refine ⟨May.of_total sql_total _ before, ?_⟩
  intro reply after run
  unfold processBatch at run
  split at run
  · rename_i empty
    subst empty
    obtain ⟨rfl, rfl⟩ := runs_ret_iff.mp run
    exact ⟨fun _ => none, rfl, .refl, .refl before, fun _ member => by cases member⟩
  · have keyed (claimed : ClaimedAuthor) (member : claimed ∈ batch) : before.keyed claimed.id claimed.pubkey := by
      obtain ⟨columns, found, _⟩ := claims.rows claimed member
      exact ⟨columns, found⟩
    obtain ⟨answers, counted, rest⟩ :=
      resolveAll_settled history (List.Subset.refl batch) claims.distinct keyed verified lists run
    exact ⟨answers, by rw [counted, Nat.zero_add], rest⟩

end Batch

section Example

private theorem claimed_listed : ∃ before, History versionsVerifier [] before ∧ Claims before [Fleet.soleAuthor] ∧
    ∃ row ∈ before.relays 1, row.writes := by
  obtain ⟨before, replaced⟩ : ∃ before, claimedRow.replaceRelays 1 [("wss://up", .write)] 0 = .ok before :=
    Database.replaceRelays_isOk rfl
  have lists : sql.exec (.replaceRelays 1 [("wss://up", .write)] 0) claimedRow (.ok ()) before :=
    ⟨0, ∅, trivial, by simp [Stmt.Executes, Commits, replaced]⟩
  obtain ⟨rows, _, relays⟩ := Database.replaceRelays_spec replaced
  refine ⟨before, .frontier (.frontier (.frontier .start rfl oneRow_upserts) rfl oneRow_claims) rfl lists, ⟨?_, ?_⟩, ?_⟩
  · exact claimedRow_claims.distinct
  · rw [rows]
    exact claimedRow_claims.rows
  · simp [relays, relayRows, Sequence.keepFirst, RelayRow.writes]

/-- The curated relays know nothing of an author, whose write relay returns its list. -/
theorem batch_settled_recovers : ∃ before reply after,
    Runs sql (processBatch versionsGate 3 answering [Fleet.soleAuthor] (.ok [])).run before reply after ∧ Fetched after 1 := by
  obtain ⟨before, history, claims, written⟩ := claimed_listed
  obtain ⟨⟨reply, after, run, _⟩, must⟩ : May sql (processBatch versionsGate 3 answering [Fleet.soleAuthor] (.ok [])).run
      before (fun _ _ => True) ∧ _ := batch_settled history claims rfl rfl
  obtain ⟨answers, _, _, _, resolutions⟩ := must reply after run
  have resolution := resolutions Fleet.soleAuthor (List.mem_singleton_self _)
  have relays : after.relays 1 = before.relays 1 := by
    by_contra changed
    obtain ⟨_, _, _, _, _, impossible, _⟩ := resolution.relisted changed
    cases impossible
  refine ⟨before, reply, after, run, ?_⟩
  cases answer : answers Fleet.soleAuthor with
  | some winner => exact (resolution.fetched winner answer).1
  | none =>
    have answered := resolution.answered
    rw [answer] at answered
    cases answered with
    | unrecovered unlisted enabled parsed asks lost =>
      obtain rfl := Option.some.inj (parsed.symm.trans (show PublicKey.fromSlice Fleet.soleAuthor.pubkey = some sampleAuthor from rfl))
      exact absurd ⟨newerEvent, answering_recovers _⟩ lost
    | unasked unlisted silent => exact absurd (relays ▸ written) (silent rfl rfl)

end Example

end WotCrawler.Daemon
