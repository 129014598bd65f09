import WotCrawler.Relay.Fetch
import WotCrawler.Ingest.Winner

/-! The seen-set of the pagination loop against the gate behind it: when dropping copies of an
id before verification costs no genuine event. -/

namespace WotCrawler.Relay

open Effect Effect.Prog Sequence Ingest

/-- Surroundings that serve a script of windows, one for each request, and then fail. -/
def scriptNet : Machine Net (List (List Event)) where
  exec
    | .fetchEvents _ _, [], reply, after => (∃ error, reply = .error error) ∧ after = []
    | .fetchEvents _ _, window :: rest, reply, after => reply = .ok window ∧ after = rest
    | _, script, _, after => after = script

private theorem must_clientFetch_script
    {post : Except RelayError (List Event) → List (List Event) → Prop}
    (served : ∀ window rest, script = window :: rest → post (.ok window) rest)
    (failed : ∀ error, script = [] → post (.error error) []) :
    Must scriptNet (clientFetch timeout filter) script post := by
  rw [clientFetch, must_bind, fetchEvents, must_perform]
  intro reply after step
  cases script with
  | nil =>
    obtain ⟨⟨error, rfl⟩, rfl⟩ := step
    simpa using failed _ rfl
  | cons window rest =>
    obtain ⟨rfl, rfl⟩ := step
    simpa using served window after rfl

/-- An `Ok` result is the windows received so far, each id at its first copy. -/
private theorem pageLoop_script (authors : List PublicKey) (kind : Kind) (cap : Nat) (pages : Nat)
    (page : PageState) (script : List (List Event)) :
    Must scriptNet (pageLoop authors kind cap (clientFetch timeout) pages page) script
      (fun result rest => ∀ out, result = .ok out → ∃ received, script = received ++ rest ∧
        out = page.out ++ keepFirst Event.id page.seen received.flatten) := by
  induction pages generalizing page script with
  | zero => simp [pageLoop]
  | succ pages ih =>
    rw [pageLoop, must_bind]
    apply must_clientFetch_script
    · rintro window rest rfl
      cases stepped : pageStep cap page window with
      | done result =>
        simp only [stepped, pure_eq, must_ret]
        rintro out rfl
        exact ⟨[window], rfl, by simpa using pageStep_ok stepped⟩
      | next following =>
        simp only [stepped]
        refine (ih following rest).mono ?_
        intro result after consumed out same
        obtain ⟨received, rfl, collected⟩ := consumed out same
        obtain ⟨heldOut, heldSeen⟩ := pageStep_next stepped
        refine ⟨window :: received, rfl, ?_⟩
        rw [collected, heldOut, heldSeen, List.flatten_cons, keepFirst_append, List.append_assoc]
    · rintro error rfl
      simp

theorem paginateChunk_script (authors : List PublicKey) (kind : Kind) (cap : Nat)
    (script : List (List Event)) :
    Must scriptNet (paginateChunk timestampNow authors kind cap (clientFetch timeout)) script
      (fun result rest => ∀ out, result = .ok out → ∃ received, script = received ++ rest ∧
        out = keepFirst Event.id ∅ received.flatten) := by
  rw [paginateChunk, must_bind, timestampNow, must_perform]
  rintro now after rfl
  simpa using pageLoop_script authors kind cap maxPagesPerChunk
    { out := [], seen := ∅, untilTs := now, prevUntil := none } after

/-- A verified event of the kind with the lowest id its author has in that second: one that
some clamp makes the winner. -/
structure Foremost (verify : Event → Bool) (kind : Kind) (events : List Event) (event : Event) : Prop where
  received : event ∈ events
  verified : verify event = true
  kind_eq : event.kind = kind
  lowest : ∀ other ∈ events, verify other = true → other.kind = kind →
    other.pubkey = event.pubkey → other.createdAt = event.createdAt → event.id ≤ other.id

/-- The first received copy of an id verifies. -/
def FirstCopyVerifies (verify : Event → Bool) (events : List Event) (claimed : EventId) : Prop :=
  ∃ front copy back, events = front ++ copy :: back ∧ copy.id = claimed ∧ verify copy = true ∧
    claimed ∉ front.map Event.id

section Gate

variable {verifier : Verifier} {kind : Kind} {events : List Event}

private theorem firstCopyVerifies_iff : FirstCopyVerifies verifier.verify events claimed ↔
    ∃ copy ∈ keepFirst Event.id ∅ events, copy.id = claimed ∧ verifier.verify copy = true := by
  constructor
  · rintro ⟨front, copy, back, split, rfl, verified, first⟩
    exact ⟨copy, mem_keepFirst_iff.mpr ⟨by simp, front, back, split, first⟩, rfl, verified⟩
  · rintro ⟨copy, kept, rfl, verified⟩
    obtain ⟨_, front, back, split, first⟩ := mem_keepFirst_iff.mp kept
    exact ⟨front, copy, back, split, rfl, verified, first⟩

private theorem Foremost.winner (foremost : Foremost verifier.verify kind events event) :
    Nip01Winner (Admissible verifier.verify events kind event.createdAt 0 event.pubkey) event := by
  have cutoff : Timestamp.saturatingAdd event.createdAt 0 = event.createdAt := by
    simp [Timestamp.saturatingAdd]
  refine ⟨⟨foremost.received, foremost.verified, rfl, foremost.kind_eq, cutoff.ge⟩, ?_⟩
  rintro other ⟨received, verified, author, otherKind, inTime⟩
  rw [cutoff] at inTime
  rcases inTime.lt_or_eq with older | tied
  · exact Or.inr (Or.inl older)
  · rcases (foremost.lowest other received verified otherKind author tied).eq_or_lt with same | lower
    · exact Or.inl same.symm
    · exact Or.inr (Or.inr ⟨tied, lower⟩)

private theorem foremost_of_winner
    (wins : Nip01Winner (Admissible verifier.verify events kind now futureClampSecs author) winner) :
    Foremost verifier.verify kind events winner := by
  obtain ⟨received, verified, rfl, kind_eq, inTime⟩ := wins.member
  refine ⟨received, verified, kind_eq, ?_⟩
  intro other otherReceived otherVerified otherKind sameAuthor tied
  rcases wins.wins other ⟨otherReceived, otherVerified, sameAuthor, otherKind, tied ▸ inTime⟩ with
    same | newer | ⟨_, lower⟩
  · exact same.ge
  · exact absurd tied newer.ne
  · exact lower.le

/-- A winner whose id verifies at its first copy keeps a winning copy in the output. -/
private theorem exists_kept_winner
    (wins : Nip01Winner (Admissible verifier.verify events kind now futureClampSecs author) winner)
    (first : FirstCopyVerifies verifier.verify events winner.id) :
    ∃ copy, copy.id = winner.id ∧ verifier.verify copy = true ∧
      Nip01Winner (Admissible verifier.verify (keepFirst Event.id ∅ events) kind now futureClampSecs
        author) copy := by
  obtain ⟨copy, kept, sameId, verified⟩ := firstCopyVerifies_iff.mp first
  obtain ⟨_, winnerVerified, rfl, kind_eq, inTime⟩ := wins.member
  have sameTime := verifier.createdAt_eq verified winnerVerified sameId
  refine ⟨copy, sameId, verified, ⟨kept, verified, verifier.pubkey_eq verified winnerVerified sameId,
    (verifier.kind_eq verified winnerVerified sameId).trans kind_eq, sameTime ▸ inTime⟩, ?_⟩
  rintro other ⟨otherKept, rest⟩
  have received := (keepFirst_sublist Event.id ∅ events).subset otherKept
  rcases wins.wins other ⟨received, rest⟩ with same | supersedes
  · exact Or.inl (same.trans sameId.symm)
  · right
    unfold Event.supersedes
    rw [sameId, sameTime]
    exact supersedes

/-- The gate emits the same lists from the first copies as from everything received, whatever is
requested and however it is clamped and capped, exactly when no unverified copy comes first of
an id that can win. -/
private theorem keepFirst_ingest_iff :
    (∀ requested now futureClampSecs followCap,
      (ingestEvents verifier.verify (keepFirst Event.id ∅ events) kind requested now futureClampSecs
        followCap).Perm
        (ingestEvents verifier.verify events kind requested now futureClampSecs followCap)) ↔
      ∀ event, Foremost verifier.verify kind events event →
        FirstCopyVerifies verifier.verify events event.id := by
  constructor
  · intro same event foremost
    obtain ⟨followees, extracted⟩ := followeePubkeys_isSome (le_refl (followeeSet event).card)
    have emitted := (mem_ingestEvents_iff verifier events kind {event.pubkey} event.createdAt 0
      (followeeSet event).card).mpr
      ⟨event, followees, Finset.mem_singleton_self _, foremost.winner, extracted, rfl⟩
    have kept := (same _ _ _ _).mem_iff.mpr emitted
    obtain ⟨copy, _, _, copyWins, _, made⟩ := (mem_ingestEvents_iff verifier
      (keepFirst Event.id ∅ events) kind {event.pubkey} event.createdAt 0
      (followeeSet event).card).mp kept
    have sameId : event.id = copy.id := congrArg ValidatedFollowList.eventId made
    exact firstCopyVerifies_iff.mpr
      ⟨copy, copyWins.member.1, sameId.symm, copyWins.member.2.1⟩
  · intro firsts requested now futureClampSecs followCap
    apply ingestEvents_perm_of_mem_iff
    intro list
    rw [mem_ingestEvents_iff, mem_ingestEvents_iff]
    constructor
    · rintro ⟨kept, followees, solicited, keptWins, extracted, rfl⟩
      obtain ⟨received, rest⟩ := keptWins.member
      obtain ⟨winner, wins⟩ := exists_winner verifier events kind now futureClampSecs
        ⟨(keepFirst_sublist Event.id ∅ events).subset received, rest⟩
      obtain ⟨copy, sameId, _, copyWins⟩ :=
        exists_kept_winner wins (firsts winner (foremost_of_winner wins))
      have winnerId := (keptWins.id_eq copyWins).trans sameId
      obtain ⟨sameFollowees, sameList⟩ :=
        fromEvent_eq_of_copy verifier followCap rest.1 wins.member.2.1 winnerId
      have author := wins.member.2.2.1
      refine ⟨winner, followees, author ▸ solicited, author ▸ wins, ?_, ?_⟩
      · rw [← sameFollowees]
        exact extracted
      · rw [sameList]
    · rintro ⟨winner, followees, solicited, wins, extracted, rfl⟩
      obtain ⟨copy, sameId, verified, copyWins⟩ :=
        exists_kept_winner wins (firsts winner (foremost_of_winner wins))
      obtain ⟨sameFollowees, sameList⟩ :=
        fromEvent_eq_of_copy verifier followCap verified wins.member.2.1 sameId
      have author := copyWins.member.2.2.1
      refine ⟨copy, followees, author ▸ solicited, author ▸ copyWins, ?_, ?_⟩
      · rw [sameFollowees]
        exact extracted
      · rw [sameList]

end Gate

/-- For every script of windows and every `Ok` result, the gate emits from the result what it
emits from the windows received, for every request, clamp and cap, exactly when every verified
event that some clamp makes the winner has a verified copy as the first copy of its id. -/
theorem paginateChunk_uncensored_iff (verifier : Verifier) (timeout : Duration)
    (authors : List PublicKey) (kind : Kind) (cap : Nat) (script : List (List Event)) :
    Must scriptNet (paginateChunk timestampNow authors kind cap (clientFetch timeout)) script
      (fun result rest => ∀ out, result = .ok out → ∃ received, script = received ++ rest ∧
        ((∀ requested now futureClampSecs followCap,
          (ingestEvents verifier.verify out kind requested now futureClampSecs followCap).Perm
            (ingestEvents verifier.verify received.flatten kind requested now futureClampSecs
              followCap)) ↔
          ∀ event, Foremost verifier.verify kind received.flatten event →
            FirstCopyVerifies verifier.verify received.flatten event.id)) := by
  refine (paginateChunk_script authors kind cap script).mono ?_
  intro result rest collected out same
  obtain ⟨received, split, rfl⟩ := collected out same
  exact ⟨received, split, keepFirst_ingest_iff⟩

/-- The genuine event of the script, the only one that verifies. -/
def genuineVerifier : Verifier where
  verify := fun event => event = sampleEvent 7 10 "genuine"
  pubkey_eq := by simp +contextual
  kind_eq := by simp +contextual
  createdAt_eq := by simp +contextual
  tags_eq := by simp +contextual

/-- A capped window with a forged copy of the genuine id, then a short one with the event. -/
def squatScript : List (List Event) :=
  [[sampleEvent 7 20 "forged", sampleEvent 8 20 "junk"], [sampleEvent 7 10 "genuine"]]

private theorem squat_pageStep_first (now : Timestamp) :
    pageStep 2 { out := [], seen := ∅, untilTs := now, prevUntil := none }
        [sampleEvent 7 20 "forged", sampleEvent 8 20 "junk"] =
      .next {
        out := [sampleEvent 7 20 "forged", sampleEvent 8 20 "junk"]
        seen := ∅ ∪ ([sampleEvent 7 20 "forged", sampleEvent 8 20 "junk"].map Event.id).toFinset
        untilTs := 20
        prevUntil := some now } := rfl

private theorem squat_pageStep_second (now : Timestamp) :
    pageStep 2 {
        out := [sampleEvent 7 20 "forged", sampleEvent 8 20 "junk"]
        seen := ∅ ∪ ([sampleEvent 7 20 "forged", sampleEvent 8 20 "junk"].map Event.id).toFinset
        untilTs := 20
        prevUntil := some now } [sampleEvent 7 10 "genuine"] =
      .done (.ok [sampleEvent 7 20 "forged", sampleEvent 8 20 "junk"]) := rfl

/-- The forged copy enters the seen-set first, and the author's list is lost. -/
theorem paginateChunk_censors :
    May scriptNet
      (paginateChunk timestampNow [sampleAuthor] Kind.contactList 2 (clientFetch defaultFetchTimeout))
      squatScript (fun result rest => ∃ out, result = .ok out ∧ rest = [] ∧
        ¬ (ingestEvents genuineVerifier.verify out Kind.contactList {sampleAuthor} 100 0 10).Perm
          (ingestEvents genuineVerifier.verify squatScript.flatten Kind.contactList {sampleAuthor} 100 0
            10)) := by
  have budget : maxPagesPerChunk = 9998 + 1 + 1 := rfl
  rw [paginateChunk, may_bind, timestampNow, may_perform]
  refine ⟨100, squatScript, rfl, ?_⟩
  rw [budget, pageLoop, may_bind, clientFetch, may_bind, fetchEvents, may_perform]
  refine ⟨_, _, ⟨rfl, rfl⟩, ?_⟩
  simp only [pure_eq, may_ret, squat_pageStep_first]
  rw [pageLoop, may_bind, clientFetch, may_bind, fetchEvents, may_perform]
  refine ⟨_, _, ⟨rfl, rfl⟩, ?_⟩
  simp only [pure_eq, may_ret, squat_pageStep_second]
  exact ⟨_, rfl, trivial, by decide⟩

end WotCrawler.Relay
