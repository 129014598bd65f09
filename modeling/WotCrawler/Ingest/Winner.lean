import WotCrawler.Ingest.Gate

/-! The gate computes the NIP-01 winner of every requested author, whatever else the relays
returned. -/

namespace WotCrawler.Ingest

open Sequence

/-- The events of an author that may become its list: received, verified, of the wanted kind
and not dated past the clamp. -/
def Admissible (verify : Event → Bool) (events : List Event) (wantKind : Kind)
    (now futureClampSecs : Timestamp) (author : PublicKey) (event : Event) : Prop :=
  event ∈ events ∧ verify event = true ∧ event.pubkey = author ∧ event.kind = wantKind ∧
    event.createdAt ≤ now.saturatingAdd futureClampSecs

/-- The followees an event names, without its author. -/
def followeeSet (event : Event) : Finset PublicKey :=
  (publicKeys event.tags).toFinset.erase event.pubkey

theorem mem_keepFirst_id_iff [DecidableEq α] {items : List α} :
    item ∈ keepFirst id ∅ items ↔ item ∈ items := by
  constructor
  · exact fun member => (keepFirst_sublist id ∅ items).subset member
  · intro member
    rcases exists_mem_keepFirst id ∅ member with seen | ⟨kept, found, same⟩
    · simp at seen
    · have copy : kept = item := same
      exact copy ▸ found

private theorem keepFirst_followees_toFinset (event : Event) :
    (keepFirst id ∅ ((publicKeys event.tags).filter (fun key => key ≠ event.pubkey))).toFinset =
      followeeSet event := by
  ext key
  rw [List.mem_toFinset, mem_keepFirst_id_iff]
  simp [followeeSet, and_comm]

/-- Extraction succeeds exactly within the cap, and then lists the followee set once. -/
theorem followeePubkeys_spec (found : followeePubkeys event followCap = some followees) :
    followees.Nodup ∧ followees.toFinset = followeeSet event ∧ (followeeSet event).card ≤ followCap := by
  obtain ⟨rfl, within⟩ := followeePubkeys_eq_some_iff.mp found
  have nodup := keepFirst_nodup id ∅
    ((publicKeys event.tags).filter (fun key => key ≠ event.pubkey))
  rw [List.map_id] at nodup
  refine ⟨nodup, keepFirst_followees_toFinset event, ?_⟩
  rw [← keepFirst_followees_toFinset, List.toFinset_card_of_nodup nodup]
  exact within

theorem followeePubkeys_isSome (within : (followeeSet event).card ≤ followCap) :
    ∃ followees, followeePubkeys event followCap = some followees := by
  refine ⟨_, followeePubkeys_eq_some_iff.mpr ⟨rfl, ?_⟩⟩
  have nodup := keepFirst_nodup id ∅
    ((publicKeys event.tags).filter (fun key => key ≠ event.pubkey))
  rw [List.map_id] at nodup
  rw [← List.toFinset_card_of_nodup nodup, keepFirst_followees_toFinset]
  exact within

/-- The list of a group is its winner's. -/
theorem exists_of_resolveGroup (resolved : resolveGroup now futureClampSecs followCap group = some list) :
    ∃ winner followees, pickWinner group now futureClampSecs = some winner ∧
      followeePubkeys winner followCap = some followees ∧ list = ValidatedFollowList.fromEvent winner followees := by
  obtain ⟨winner, found, rest⟩ := Option.bind_eq_some_iff.mp resolved
  obtain ⟨followees, extracted, made⟩ := Option.bind_eq_some_iff.mp rest
  exact ⟨winner, followees, found, extracted, (Option.some.inj made).symm⟩

/-- The gate emits lists of accepted events only, whatever the verification says. -/
theorem exists_of_mem_ingestEvents {verify : Event → Bool}
    (emitted : list ∈ ingestEvents verify events wantKind requested now futureClampSecs followCap) :
    ∃ winner followees, winner ∈ events ∧ verify winner = true ∧ winner.kind = wantKind ∧
      winner.pubkey ∈ requested ∧ followeePubkeys winner followCap = some followees ∧
      list = ValidatedFollowList.fromEvent winner followees := by
  obtain ⟨⟨author, group⟩, entry, resolved⟩ := List.mem_filterMap.mp emitted
  obtain ⟨rfl, _⟩ := (mem_groupBy_iff _ _).mp entry
  obtain ⟨winner, followees, found, extracted, made⟩ := exists_of_resolveGroup resolved
  have kept := List.mem_of_mem_filter (pickWinner_spec found).1.1
  obtain ⟨received, accepted⟩ := List.mem_filter.mp ((keepFirst_sublist Event.id ∅ _).subset kept)
  obtain ⟨verified, kind, solicited⟩ := accept_iff.mp accepted
  exact ⟨winner, followees, received, verified, kind, solicited, extracted, made⟩

theorem follower_mem_requested {verify : Event → Bool}
    (emitted : list ∈ ingestEvents verify events wantKind requested now futureClampSecs followCap) :
    list.followerPubkey ∈ requested := by
  obtain ⟨winner, followees, _, _, _, solicited, _, rfl⟩ := exists_of_mem_ingestEvents emitted
  exact solicited

section Gate

variable (verifier : Verifier) (events : List Event) (wantKind : Kind)
  (requested : Finset PublicKey) (now futureClampSecs : Timestamp) (followCap : Nat)

theorem mem_of_mem_acceptedEvents
    (member : event ∈ acceptedEvents verifier.verify events wantKind requested) :
    event ∈ events ∧ verifier.verify event = true ∧ event.kind = wantKind ∧
      event.pubkey ∈ requested := by
  have filtered := (keepFirst_sublist Event.id ∅ _).subset member
  obtain ⟨received, accepted⟩ := List.mem_filter.mp filtered
  exact ⟨received, accept_iff.mp accepted⟩

/-- Every verified, solicited event is kept through a copy that agrees with it. -/
theorem exists_acceptedEvents (received : event ∈ events)
    (verified : verifier.verify event = true) (kind : event.kind = wantKind)
    (solicited : event.pubkey ∈ requested) :
    ∃ copy ∈ acceptedEvents verifier.verify events wantKind requested,
      copy.id = event.id ∧ copy.pubkey = event.pubkey ∧ copy.createdAt = event.createdAt := by
  have passes : event ∈ events.filter (fun event => accept verifier.verify event wantKind requested) :=
    List.mem_filter.mpr ⟨received, accept_iff.mpr ⟨verified, kind, solicited⟩⟩
  rcases exists_mem_keepFirst Event.id ∅ passes with seen | ⟨copy, kept, same⟩
  · simp at seen
  · have copyVerified := (mem_of_mem_acceptedEvents verifier events wantKind requested kept).2.1
    exact ⟨copy, kept, same, verifier.pubkey_eq copyVerified verified same,
      verifier.createdAt_eq copyVerified verified same⟩

/-- The accepted events of one author. -/
abbrev authorGroup (author : PublicKey) : List Event :=
  (acceptedEvents verifier.verify events wantKind requested).filter (fun event => event.pubkey = author)

/-- Resolution of an author's group finds the NIP-01 winner of its admissible events. -/
theorem pickWinner_group_winner (author : PublicKey)
    (found : pickWinner (authorGroup verifier events wantKind requested author) now futureClampSecs =
      some winner) :
    author ∈ requested ∧
      Nip01Winner (Admissible verifier.verify events wantKind now futureClampSecs author) winner := by
  obtain ⟨⟨grouped, inTime⟩, greatest⟩ := pickWinner_spec found
  obtain ⟨kept, owned⟩ := List.mem_filter.mp grouped
  have author_eq : winner.pubkey = author := by simpa using owned
  obtain ⟨received, verified, kind, solicited⟩ :=
    mem_of_mem_acceptedEvents verifier events wantKind requested kept
  refine ⟨author_eq ▸ solicited, ⟨received, verified, author_eq, kind, inTime⟩, ?_⟩
  rintro event ⟨eventReceived, eventVerified, eventAuthor, eventKind, eventInTime⟩
  -- A copy of the event stands for it in the group.
  obtain ⟨copy, copyKept, sameId, samePubkey, sameTime⟩ :=
    exists_acceptedEvents verifier events wantKind requested eventReceived eventVerified eventKind
      (eventAuthor.trans author_eq.symm ▸ solicited)
  have copyGrouped : copy ∈ authorGroup verifier events wantKind requested author :=
    List.mem_filter.mpr ⟨copyKept, by simp [samePubkey, eventAuthor]⟩
  have bounded := version_le_iff.mp (greatest copy copyGrouped (sameTime ▸ eventInTime))
  rw [sameTime, sameId] at bounded
  rcases bounded with newer | ⟨tied, lower⟩
  · exact Or.inr (Or.inl newer)
  · rcases lower.eq_or_lt with same | lower
    · exact Or.inl same.symm
    · exact Or.inr (Or.inr ⟨tied, lower⟩)

theorem pickWinner_group_isSome (author : PublicKey) (solicited : author ∈ requested)
    (admissible : Admissible verifier.verify events wantKind now futureClampSecs author event) :
    ∃ winner, pickWinner (authorGroup verifier events wantKind requested author) now futureClampSecs =
      some winner := by
  obtain ⟨received, verified, rfl, kind, inTime⟩ := admissible
  obtain ⟨copy, kept, _, samePubkey, sameTime⟩ :=
    exists_acceptedEvents verifier events wantKind requested received verified kind solicited
  rw [← Option.ne_none_iff_exists']
  intro absent
  have grouped : copy ∈ authorGroup verifier events wantKind requested event.pubkey :=
    List.mem_filter.mpr ⟨kept, by simp [samePubkey]⟩
  exact not_lt.mpr (sameTime ▸ inTime) (pickWinner_eq_none_iff.mp absent copy grouped)

/-- The list of an event depends on nothing that copies of it may disagree about. -/
theorem fromEvent_eq_of_copy (leftVerified : verifier.verify left = true)
    (rightVerified : verifier.verify right = true) (same : left.id = right.id) :
    followeePubkeys left followCap = followeePubkeys right followCap ∧
      ValidatedFollowList.fromEvent left = ValidatedFollowList.fromEvent right := by
  have pubkey := verifier.pubkey_eq leftVerified rightVerified same
  have createdAt := verifier.createdAt_eq leftVerified rightVerified same
  have tags := verifier.tags_eq leftVerified rightVerified same
  constructor
  · simp [followeePubkeys, pubkey, tags]
  · funext followees
    simp [ValidatedFollowList.fromEvent, pubkey, createdAt, same]

/-- The gate emits exactly the lists of the winners of the requested authors. -/
theorem mem_ingestEvents_iff :
    list ∈ ingestEvents verifier.verify events wantKind requested now futureClampSecs followCap ↔
      ∃ winner followees, winner.pubkey ∈ requested ∧
        Nip01Winner
          (Admissible verifier.verify events wantKind now futureClampSecs winner.pubkey) winner ∧
        followeePubkeys winner followCap = some followees ∧
        list = ValidatedFollowList.fromEvent winner followees := by
  constructor
  · intro emitted
    obtain ⟨⟨author, group⟩, entry, resolved⟩ := List.mem_filterMap.mp emitted
    obtain ⟨rfl, _⟩ := (mem_groupBy_iff _ _).mp entry
    obtain ⟨winner, followees, found, extracted, made⟩ := exists_of_resolveGroup resolved
    obtain ⟨solicited, wins⟩ := pickWinner_group_winner verifier events wantKind requested now
      futureClampSecs author found
    obtain rfl := wins.member.2.2.1
    exact ⟨winner, followees, solicited, wins, extracted, made⟩
  · rintro ⟨winner, followees, solicited, wins, extracted, rfl⟩
    obtain ⟨copy, found⟩ := pickWinner_group_isSome verifier events wantKind requested now
      futureClampSecs winner.pubkey solicited wins.member
    obtain ⟨_, copyWins⟩ := pickWinner_group_winner verifier events wantKind requested now
      futureClampSecs winner.pubkey found
    obtain ⟨sameFollowees, sameList⟩ := fromEvent_eq_of_copy verifier followCap
      copyWins.member.2.1 wins.member.2.1 (copyWins.id_eq wins)
    refine List.mem_filterMap.mpr ⟨(winner.pubkey, authorGroup verifier events wantKind requested
      winner.pubkey), (mem_groupBy_iff _ _).mpr ⟨rfl, ?_⟩, ?_⟩
    · exact List.ne_nil_of_mem (pickWinner_spec found).1.1
    · rw [← sameList]
      simp [resolveGroup, found, sameFollowees, extracted]

theorem author_nodup :
    ((ingestEvents verifier.verify events wantKind requested now futureClampSecs followCap).map
      ValidatedFollowList.followerPubkey).Nodup := by
  have valid := groupBy_grouped Event.pubkey
    (acceptedEvents verifier.verify events wantKind requested)
  refine (filterMap_keys_sublist ?_).nodup valid.keys
  rintro ⟨author, group⟩ entry list resolved
  obtain ⟨rfl, _⟩ := (mem_groupBy_iff _ _).mp entry
  obtain ⟨winner, followees, found, _, rfl⟩ := exists_of_resolveGroup resolved
  obtain ⟨_, wins⟩ := pickWinner_group_winner verifier events wantKind requested now
    futureClampSecs author found
  exact wins.member.2.2.1

/-- Two runs of the gate that emit the same lists emit them equally often. -/
theorem ingestEvents_perm_of_mem_iff {others : List Event}
    (same : ∀ list,
      list ∈ ingestEvents verifier.verify others wantKind requested now futureClampSecs followCap ↔
        list ∈ ingestEvents verifier.verify events wantKind requested now futureClampSecs followCap) :
    (ingestEvents verifier.verify others wantKind requested now futureClampSecs followCap).Perm
      (ingestEvents verifier.verify events wantKind requested now futureClampSecs followCap) := by
  have nodup (events : List Event) :=
    (author_nodup verifier events wantKind requested now futureClampSecs followCap).of_map _
  exact (List.perm_ext_iff_of_nodup (nodup others) (nodup events)).mpr same

/-- An author with admissible events has a winner among them. -/
theorem exists_winner
    (admissible : Admissible verifier.verify events wantKind now futureClampSecs author event) :
    ∃ winner,
      Nip01Winner (Admissible verifier.verify events wantKind now futureClampSecs author) winner := by
  obtain ⟨winner, found⟩ := pickWinner_group_isSome verifier events wantKind {author} now
    futureClampSecs author (Finset.mem_singleton_self _) admissible
  exact ⟨winner, (pickWinner_group_winner verifier events wantKind {author} now futureClampSecs
    author found).2⟩

private theorem emits_author_iff (author : PublicKey) :
    (∃ list ∈ ingestEvents verifier.verify events wantKind requested now futureClampSecs followCap,
      list.followerPubkey = author) ↔
      author ∈ requested ∧ ∃ winner, Nip01Winner
        (Admissible verifier.verify events wantKind now futureClampSecs author) winner ∧
        (followeeSet winner).card ≤ followCap := by
  constructor
  · rintro ⟨list, emitted, rfl⟩
    obtain ⟨winner, followees, solicited, wins, extracted, rfl⟩ :=
      (mem_ingestEvents_iff verifier events wantKind requested now futureClampSecs followCap).mp emitted
    exact ⟨solicited, winner, wins, (followeePubkeys_spec extracted).2.2⟩
  · rintro ⟨solicited, winner, wins, within⟩
    obtain ⟨followees, extracted⟩ := followeePubkeys_isSome within
    obtain rfl := wins.member.2.2.1
    refine ⟨ValidatedFollowList.fromEvent winner followees, ?_, rfl⟩
    exact (mem_ingestEvents_iff verifier events wantKind requested now futureClampSecs followCap).mpr
      ⟨winner, followees, solicited, wins, extracted, rfl⟩

/-- What an emitted list carries of its author's winner. -/
structure Carries (list : ValidatedFollowList) (winner : Event) : Prop where
  eventId : list.eventId = winner.id
  createdAt : winner.createdAt.val ≤ 8210266876799 →
    list.createdAt = DateTime.ofSeconds winner.createdAt.val
  createdAt_late : 8210266876799 < winner.createdAt.val → winner.createdAt.val < 2 ^ 63 →
    list.createdAt = DateTime.ofSeconds 0
  nodup : list.followeePubkeys.Nodup
  followees : list.followeePubkeys.toFinset = followeeSet winner

private theorem emitted_carries
    (emitted : list ∈ ingestEvents verifier.verify events wantKind requested now futureClampSecs followCap)
    (wins : Nip01Winner
      (Admissible verifier.verify events wantKind now futureClampSecs list.followerPubkey) winner) :
    Carries list winner := by
  obtain ⟨copy, followees, _, copyWins, extracted, rfl⟩ :=
    (mem_ingestEvents_iff verifier events wantKind requested now futureClampSecs followCap).mp emitted
  have sameId := copyWins.id_eq wins
  have copyVerified := copyWins.member.2.1
  have verified := wins.member.2.1
  have sameTime := verifier.createdAt_eq copyVerified verified sameId
  have sameFollowees : followeePubkeys winner followCap = some followees := by
    rw [← (fromEvent_eq_of_copy verifier followCap copyVerified verified sameId).1]
    exact extracted
  obtain ⟨nodup, listed, _⟩ := followeePubkeys_spec sameFollowees
  refine ⟨sameId, ?_, ?_, nodup, listed⟩
  · intro inRange
    rw [← timestampToDatetime_exact winner.createdAt inRange, ← sameTime]
    rfl
  · intro late positive
    rw [← timestampToDatetime_late winner.createdAt late positive, ← sameTime]
    rfl

private theorem ingestEvents_congr {others : List Event}
    (same : ∀ author ∈ requested, ∀ event,
      Admissible verifier.verify others wantKind now futureClampSecs author event ↔
        Admissible verifier.verify events wantKind now futureClampSecs author event) :
    (ingestEvents verifier.verify others wantKind requested now futureClampSecs followCap).Perm
      (ingestEvents verifier.verify events wantKind requested now futureClampSecs followCap) := by
  apply ingestEvents_perm_of_mem_iff
  intro list
  rw [mem_ingestEvents_iff, mem_ingestEvents_iff]
  refine exists_congr fun winner => exists_congr fun followees => and_congr_right fun solicited => ?_
  have sets : Admissible verifier.verify others wantKind now futureClampSecs winner.pubkey =
      Admissible verifier.verify events wantKind now futureClampSecs winner.pubkey := by
    funext event
    exact propext (same winner.pubkey solicited event)
  rw [sets]

/-- What the gate is for: at most one list for each author, there exactly when the author was
requested and its NIP-01 winner is within the cap, and carrying that winner; nothing else among
the events matters. -/
structure ExactGate (emitted : List ValidatedFollowList) : Prop where
  authors : (emitted.map ValidatedFollowList.followerPubkey).Nodup
  emits_iff : ∀ author, (∃ list ∈ emitted, list.followerPubkey = author) ↔
    author ∈ requested ∧ ∃ winner, Nip01Winner
      (Admissible verifier.verify events wantKind now futureClampSecs author) winner ∧
      (followeeSet winner).card ≤ followCap
  carries : ∀ list ∈ emitted, ∀ winner, Nip01Winner
      (Admissible verifier.verify events wantKind now futureClampSecs list.followerPubkey) winner →
    Carries list winner
  congr : ∀ others : List Event, (∀ author ∈ requested, ∀ event,
      Admissible verifier.verify others wantKind now futureClampSecs author event ↔
        Admissible verifier.verify events wantKind now futureClampSecs author event) →
    (ingestEvents verifier.verify others wantKind requested now futureClampSecs followCap).Perm emitted

/-- The gate is exact on every list of raw events, for every request, clamp and cap. -/
theorem ingestEvents_exact : ExactGate verifier events wantKind requested now futureClampSecs followCap
    (ingestEvents verifier.verify events wantKind requested now futureClampSecs followCap) where
  authors := author_nodup verifier events wantKind requested now futureClampSecs followCap
  emits_iff := emits_author_iff verifier events wantKind requested now futureClampSecs followCap
  carries := fun _ emitted _ wins =>
    emitted_carries verifier events wantKind requested now futureClampSecs followCap emitted wins
  congr := fun _ same =>
    ingestEvents_congr verifier events wantKind requested now futureClampSecs followCap same

end Gate

/-- A contact list dated far past the last second chrono represents. -/
def lateEvent : Event := sampleEvent 2 (2 ^ 62) ""

def lateVerifier : Verifier where
  verify := fun event => event = lateEvent
  pubkey_eq := by simp +contextual
  kind_eq := by simp +contextual
  createdAt_eq := by simp +contextual
  tags_eq := by simp +contextual

/-- The emitted list of a winner past chrono's range does not carry the winner's time. -/
theorem ingestEvents_late_created_at :
    ∃ list ∈ ingestEvents lateVerifier.verify [lateEvent] Kind.contactList {sampleAuthor} (2 ^ 62) 0 10000,
      Nip01Winner (Admissible lateVerifier.verify [lateEvent] Kind.contactList (2 ^ 62) 0
        list.followerPubkey) lateEvent ∧
      list.createdAt ≠ DateTime.ofSeconds lateEvent.createdAt.val := by
  refine ⟨⟨sampleAuthor, lateEvent.id, 0, []⟩, by decide, ⟨?_, ?_⟩, by decide⟩
  · exact ⟨List.mem_singleton_self _, by decide, rfl, rfl, by decide⟩
  · rintro event ⟨received, _⟩
    exact Or.inl (List.mem_singleton.mp received ▸ rfl)

end WotCrawler.Ingest
