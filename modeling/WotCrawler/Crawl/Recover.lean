import WotCrawler.Crawl.Statements
import WotCrawler.Ingest.Winner

/-! The fallback of one author in two halves: the write relays it knows, and the list they yield. -/

namespace WotCrawler.Crawl

open Effect Store Ingest Relay

/-- The first half of `fallback_recover`: the author's write relays. -/
def knownRelays (gate : GateParams) (fallback : Fallback) (claimed : ClaimedAuthor) (author : PublicKey) :
    StoreM (List String) := do
  let stored ← lookupWriteRelays claimed.id
  if stored = [] then resolveWriteRelays gate fallback claimed author else return stored

/-- The list that an author's known write relays yield. -/
def recovered (gate : GateParams) (fallback : Fallback) (author : PublicKey) (relays : List String) :
    Option ValidatedFollowList :=
  match fallback.fallbackFetch author (selectRelays fallback author relays) with
  | .error _ => none
  | .ok raw => (ingestEvents gate.verify raw gate.wantKind {author} gate.now gate.futureClampSecs
      gate.followCap).getLast?

/-- The second half: the list that they yield. -/
def recoverFrom (gate : GateParams) (fallback : Fallback) (author : PublicKey) (writeRelays : List String) :
    Option ValidatedFollowList :=
  if writeRelays = [] then none else recovered gate fallback author writeRelays

variable {gate : GateParams} {fallback : Fallback} {claimed : ClaimedAuthor} {author : PublicKey}
  {writeRelays : List String} {vfl : ValidatedFollowList} {kind : Stmt → Prop}

private theorem recoverFrom_finishes (writeRelays : List String) : (if writeRelays = [] then return none
      else match fallback.fallbackFetch author (selectRelays fallback author writeRelays) with
        | .error _ => return none
        | .ok raw =>
          match gate.acquire {author} (.ok raw) with
          | .error _ => return none
          | .ok lists => return lists.getLast? : StoreM (Option ValidatedFollowList)) =
    pure (recoverFrom gate fallback author writeRelays) := by
  unfold recoverFrom recovered
  split
  · rfl
  · cases fallback.fallbackFetch author (selectRelays fallback author writeRelays) with
    | error error => rfl
    | ok raw => rfl

theorem fallbackRecover_eq (gate : GateParams) (fallback : Fallback) (claimed : ClaimedAuthor) (author : PublicKey) :
    fallbackRecover gate fallback claimed author = (do
      let writeRelays ← knownRelays gate fallback claimed author
      return recoverFrom gate fallback author writeRelays) := by
  unfold fallbackRecover knownRelays
  rw [Prog.except_bind_assoc]
  congr 1
  funext stored
  dsimp only
  split
  · congr 1
    funext writeRelays
    exact recoverFrom_finishes writeRelays
  · exact recoverFrom_finishes stored

/-- What is recovered the gate emitted, for this author alone. -/
theorem recovered_emitted (found : recovered gate fallback author writeRelays = some vfl) :
    ∃ raw, fallback.fallbackFetch author (selectRelays fallback author writeRelays) = .ok raw ∧
      vfl ∈ ingestEvents gate.verify raw gate.wantKind {author} gate.now gate.futureClampSecs gate.followCap := by
  unfold recovered at found
  split at found
  · cases found
  · rename_i raw fetched
    exact ⟨raw, fetched, List.mem_of_getLast? found⟩

theorem recovered_of_recoverFrom (found : recoverFrom gate fallback author writeRelays = some vfl) :
    writeRelays ≠ [] ∧ recovered gate fallback author writeRelays = some vfl := by
  unfold recoverFrom at found
  split at found
  · cases found
  · exact ⟨‹_›, found⟩

theorem recoverFrom_follower (found : recoverFrom gate fallback author writeRelays = some vfl) :
    vfl.followerPubkey = author := by
  obtain ⟨raw, _, emitted⟩ := recovered_emitted (recovered_of_recoverFrom found).2
  exact Finset.mem_singleton.mp (follower_mem_requested emitted)

section Winner

variable {verifier : Verifier} {raw : List Event} {winner : Event}

/-- The list recovered is that of the newest admissible version the asked relays return. -/
theorem recovered_eq_some (verified : gate.verify = verifier.verify)
    (found : recovered gate fallback author writeRelays = some vfl) :
    ∃ raw winner followees, fallback.fallbackFetch author (selectRelays fallback author writeRelays) = .ok raw ∧
      Nip01Winner (Admissible verifier.verify raw gate.wantKind gate.now gate.futureClampSecs author) winner ∧
      winner.pubkey = author ∧ followeePubkeys winner gate.followCap = some followees ∧
      vfl = .fromEvent winner followees := by
  obtain ⟨raw, fetched, emitted⟩ := recovered_emitted found
  rw [verified] at emitted
  obtain ⟨winner, followees, solicited, wins, extracted, made⟩ := (mem_ingestEvents_iff ..).mp emitted
  obtain rfl := Finset.mem_singleton.mp solicited
  exact ⟨raw, winner, followees, fetched, wins, rfl, extracted, made⟩

/-- And within the cap it is recovered. -/
theorem recovered_isSome (verified : gate.verify = verifier.verify)
    (fetched : fallback.fallbackFetch author (selectRelays fallback author writeRelays) = .ok raw)
    (wins : Nip01Winner (Admissible verifier.verify raw gate.wantKind gate.now gate.futureClampSecs author) winner)
    (small : (followeeSet winner).card ≤ gate.followCap) :
    (recovered gate fallback author writeRelays).isSome := by
  obtain ⟨followees, extracted⟩ := followeePubkeys_isSome small
  obtain rfl : winner.pubkey = author := wins.member.2.2.1
  have emitted : .fromEvent winner followees ∈ ingestEvents verifier.verify raw gate.wantKind {winner.pubkey}
      gate.now gate.futureClampSecs gate.followCap :=
    (mem_ingestEvents_iff ..).mpr ⟨winner, followees, Finset.mem_singleton_self _, wins, extracted, rfl⟩
  unfold recovered
  rw [fetched, verified]
  exact List.getLast?_isSome.mpr (List.ne_nil_of_mem emitted)

end Winner

section Issues

variable (upserts : kind (.upsertPubkey author.bytes)) (looks : ∀ id, kind (.selectWriteRelays id))
  (replaces : ∀ id relays seenAt, kind (.replaceRelays id relays seenAt))

include upserts looks replaces

/-- The fallback looks write relays up and stores a relay list under its author, nothing else. -/
theorem knownRelays_issues : (knownRelays gate fallback claimed author).run.Issues kind := by
  have lookup (id : Nat) : (lookupWriteRelays id).run.Issues kind := query_issues (looks id)
  have reread (persisted : List String) : (if persisted = [] then lookupWriteRelays claimed.id
      else pure persisted : StoreM (List String)).run.Issues kind := by
    split
    · exact lookup claimed.id
    · trivial
  have resolves : (resolveWriteRelays gate fallback claimed author).run.Issues kind := by
    unfold resolveWriteRelays
    dsimp only
    split
    · exact reread []
    · split
      · exact reread []
      · have first : (upsertPubkey author.bytes).run.Issues kind := upsertPubkey_issues upserts
        apply first.except_bind
        intro pubkeyId
        have replaced (relays : List (String × Marker)) (seenAt : DateTime) :
            (applyRelayList pubkeyId relays seenAt).run.Issues kind := query_issues (replaces _ _ _)
        apply (replaced _ _).except_bind
        intro _
        exact (lookup pubkeyId).except_bind reread
  unfold knownRelays
  apply (lookup claimed.id).except_bind
  intro stored
  split
  · exact resolves
  · trivial

/-- And what it recovers is as every list that the gate emits for its author. -/
theorem fallbackRecover_recovers {holds : ValidatedFollowList → Prop}
    (emitted : ∀ raw vfl, vfl ∈ ingestEvents gate.verify raw gate.wantKind {author} gate.now gate.futureClampSecs
      gate.followCap → holds vfl) :
    (fallbackRecover gate fallback claimed author).run.Yields kind
      (ifOk fun recovered => ∀ vfl, recovered = some vfl → holds vfl) := by
  rw [fallbackRecover_eq]
  apply (Prog.Yields.of_issues (knownRelays_issues upserts looks replaces)).except_bind
  intro writeRelays _ vfl found
  obtain ⟨raw, _, member⟩ := recovered_emitted (recovered_of_recoverFrom found).2
  exact emitted raw vfl member

end Issues

end WotCrawler.Crawl
