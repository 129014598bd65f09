import WotCrawler.Ingest.Winner

/-! The resolver of relay lists is the gate, for one author and without the followees. -/

namespace WotCrawler.Ingest

open Sequence

section Resolver

variable (verifier : Verifier) (events : List Event) (author : PublicKey) (now futureClampSecs : Timestamp)

/-- The candidates are the author's group. -/
private theorem authorGroup_singleton : authorGroup verifier events Kind.relayList {author} author =
    acceptedEvents verifier.verify events Kind.relayList {author} := by
  apply List.filter_eq_self.mpr
  intro event kept
  have solicited := (mem_of_mem_acceptedEvents verifier events Kind.relayList {author} kept).2.2.2
  exact decide_eq_true (Finset.mem_singleton.mp solicited)

/-- A relay list is that of the NIP-01 winner of the author's admissible events. -/
theorem resolveRelayList_winner
    (resolved : resolveRelayList verifier.verify events author now futureClampSecs = some vrl) :
    ∃ winner, Nip01Winner (Admissible verifier.verify events Kind.relayList now futureClampSecs author) winner ∧
      vrl = .fromEvent winner := by
  obtain ⟨winner, picked, made⟩ := Option.bind_eq_some_iff.mp resolved
  rw [← authorGroup_singleton] at picked
  exact ⟨winner, (pickWinner_group_winner verifier events Kind.relayList {author} now futureClampSecs author
    picked).2, (Option.some.inj made).symm⟩

/-- There is none exactly where the author has no admissible event. -/
theorem resolveRelayList_eq_none_iff :
    resolveRelayList verifier.verify events author now futureClampSecs = none ↔
      ∀ event, ¬ Admissible verifier.verify events Kind.relayList now futureClampSecs author event := by
  constructor
  · intro absent event admissible
    obtain ⟨winner, picked⟩ := pickWinner_group_isSome verifier events Kind.relayList {author} now futureClampSecs
      author (Finset.mem_singleton_self author) admissible
    rw [authorGroup_singleton] at picked
    simp [resolveRelayList, picked] at absent
  · intro nothing
    cases resolved : resolveRelayList verifier.verify events author now futureClampSecs with
    | none => rfl
    | some vrl =>
      obtain ⟨winner, wins, _⟩ := resolveRelayList_winner verifier events author now futureClampSecs resolved
      exact absurd wins.member (nothing winner)

end Resolver

variable {verifier : Verifier} {events others : List Event} {author : PublicKey} {now futureClampSecs : Timestamp}

/-- The same verified events are admissible, whatever else was received, how often and in which order. -/
theorem admissible_congr (same : ∀ event, verifier.verify event = true → (event ∈ others ↔ event ∈ events))
    (kind : Kind) (author : PublicKey) : Admissible verifier.verify others kind now futureClampSecs author =
      Admissible verifier.verify events kind now futureClampSecs author := by
  funext event
  apply propext
  constructor
  · intro ⟨received, verified, rest⟩
    exact ⟨(same event verified).mp received, verified, rest⟩
  · intro ⟨received, verified, rest⟩
    exact ⟨(same event verified).mpr received, verified, rest⟩

/-- An event has no more followees than distinct `p` tags. -/
theorem followeeSet_card_le (event : Event) : (followeeSet event).card ≤ (publicKeys event.tags).toFinset.card :=
  Finset.card_erase_le

/-- For one requested author the gate emits one list or none. -/
theorem ingestEvents_singleton {followCap : Nat}
    (emitted : list ∈ ingestEvents verifier.verify events kind {author} now futureClampSecs followCap) :
    ingestEvents verifier.verify events kind {author} now futureClampSecs followCap = [list] := by
  have nodup := author_nodup verifier events kind {author} now futureClampSecs followCap
  have owned : ∀ other ∈ ingestEvents verifier.verify events kind {author} now futureClampSecs followCap,
      other.followerPubkey = author :=
    fun other member => Finset.mem_singleton.mp (follower_mem_requested member)
  generalize ingestEvents verifier.verify events kind {author} now futureClampSecs followCap = lists at *
  match lists with
  | [] => cases emitted
  | [only] => rw [List.mem_singleton.mp emitted]
  | first :: second :: rest =>
    have same : first.followerPubkey = second.followerPubkey :=
      (owned first (by simp)).trans (owned second (by simp)).symm
    simp [same] at nodup

/-- The gate emits the list of an author's winner within the cap. -/
theorem exists_emitted {followCap : Nat} (within : (publicKeys winner.tags).toFinset.card ≤ followCap)
    (wins : Nip01Winner (Admissible verifier.verify events kind now futureClampSecs winner.pubkey) winner) :
    ∃ followees, ingestEvents verifier.verify events kind {winner.pubkey} now futureClampSecs followCap =
      [.fromEvent winner followees] := by
  obtain ⟨followees, extracted⟩ := followeePubkeys_isSome ((followeeSet_card_le winner).trans within)
  refine ⟨followees, ingestEvents_singleton ((mem_ingestEvents_iff ..).mpr ?_)⟩
  exact ⟨winner, followees, Finset.mem_singleton_self _, wins, extracted, rfl⟩

/-- Both resolvers of relay lists agree, on any two receptions of the same verified events. -/
theorem resolvers_agree {followCap : Nat}
    (same : ∀ event, verifier.verify event = true → (event ∈ others ↔ event ∈ events))
    (roomy : ∀ event ∈ others, (publicKeys event.tags).toFinset.card ≤ followCap) :
    (resolveRelayList verifier.verify events author now futureClampSecs = none ↔
        ingestEvents verifier.verify others Kind.relayList {author} now futureClampSecs followCap = []) ∧
      ∀ vrl, resolveRelayList verifier.verify events author now futureClampSecs = some vrl → ∃ list,
        ingestEvents verifier.verify others Kind.relayList {author} now futureClampSecs followCap = [list] ∧
          vrl.pubkey = list.followerPubkey ∧ vrl.eventId = list.eventId ∧ vrl.createdAt = list.createdAt := by
  have congr : Admissible verifier.verify others Kind.relayList now futureClampSecs author =
      Admissible verifier.verify events Kind.relayList now futureClampSecs author := admissible_congr same _ _
  constructor
  · rw [resolveRelayList_eq_none_iff]
    constructor
    · intro nothing
      apply List.eq_nil_iff_forall_not_mem.mpr
      intro list emitted
      obtain ⟨winner, _, solicited, wins, _⟩ := (mem_ingestEvents_iff ..).mp emitted
      obtain rfl := Finset.mem_singleton.mp solicited
      rw [congr] at wins
      exact nothing winner wins.member
    · intro empty event admissible
      obtain ⟨winner, wins⟩ := exists_winner verifier events Kind.relayList now futureClampSecs admissible
      obtain rfl := wins.member.2.2.1
      rw [← congr] at wins
      obtain ⟨followees, emitted⟩ := exists_emitted (roomy winner wins.member.1) wins
      rw [empty] at emitted
      cases emitted
  · intro vrl resolved
    obtain ⟨winner, wins, rfl⟩ := resolveRelayList_winner verifier events author now futureClampSecs resolved
    obtain rfl := wins.member.2.2.1
    rw [← congr] at wins
    obtain ⟨followees, emitted⟩ := exists_emitted (roomy winner wins.member.1) wins
    exact ⟨_, emitted, rfl, rfl, rfl⟩

section Example

/-- A relay list without relays. -/
private def bareList : Event := { sampleEvent 1 10 "" with kind := Kind.relayList }

private def bareVerifier : Verifier where
  verify := fun event => event = bareList
  pubkey_eq := by simp +contextual
  kind_eq := by simp +contextual
  createdAt_eq := by simp +contextual
  tags_eq := by simp +contextual

/-- A forged copy of a list in front of it, and the list twice. -/
theorem resolvers_agree_forged : ∃ vrl list,
    resolveRelayList bareVerifier.verify [bareList] sampleAuthor 20 0 = some vrl ∧
      ingestEvents bareVerifier.verify [{ bareList with content := "forged" }, bareList, bareList] Kind.relayList
        {sampleAuthor} 20 0 0 = [list] ∧ vrl.eventId = list.eventId := by
  have same (event : Event) (verified : bareVerifier.verify event = true) :
      event ∈ [{ bareList with content := "forged" }, bareList, bareList] ↔ event ∈ [bareList] := by
    obtain rfl : event = bareList := of_decide_eq_true verified
    simp
  have roomy : ∀ event ∈ [{ bareList with content := "forged" }, bareList, bareList],
      (publicKeys event.tags).toFinset.card ≤ 0 := by simp [bareList, sampleEvent, publicKeys]
  have resolved : resolveRelayList bareVerifier.verify [bareList] sampleAuthor 20 0 = some (.fromEvent bareList) := rfl
  obtain ⟨list, emitted, _, eventId, _⟩ := (resolvers_agree same roomy).2 _ resolved
  exact ⟨_, list, resolved, emitted, eventId⟩

end Example

end WotCrawler.Ingest
