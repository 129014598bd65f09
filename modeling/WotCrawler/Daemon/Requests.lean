import WotCrawler.Daemon.WriteRelays
import WotCrawler.Relay.LimitCache

/-! What a relay can make the daemon send: however it answers, and whatever limits it advertises, the
requests of one fetch are bounded in number and in size. -/

namespace WotCrawler.Daemon

open Effect Relay

/-- Surroundings that reply as they like, and keep the filters of the requests. -/
def requestLog : Machine Net (List Filter) where
  exec
    | .fetchEvents filter _, before, _, after => after = before ++ [filter]
    | .timestampNow, before, _, after => after = before
    | .instantNow, before, _, after => after = before
    | .acquire _, before, _, after => after = before
    | .poolRelays, before, _, after => after = before

/-- At most so many requests, all of them of one shape. -/
def Sends (shape : Filter → Prop) (bound : Nat) (before after : List Filter) : Prop :=
  ∃ sent, after = before ++ sent ∧ sent.length ≤ bound ∧ ∀ filter ∈ sent, shape filter

namespace Sends

variable {shape wider : Filter → Prop} {before between after : List Filter} {bound more : Nat}

theorem none (shape : Filter → Prop) (log : List Filter) : Sends shape 0 log log :=
  ⟨[], (List.append_nil log).symm, le_rfl, fun _ member => by cases member⟩

theorem trans (first : Sends shape bound before between) (second : Sends shape more between after) :
    Sends shape (bound + more) before after := by
  obtain ⟨early, rfl, few, shaped⟩ := first
  obtain ⟨late, rfl, fewer, formed⟩ := second
  refine ⟨early ++ late, List.append_assoc .., ?_, ?_⟩
  · rw [List.length_append]
    omega
  · intro filter member
    rcases List.mem_append.mp member with old | new
    · exact shaped filter old
    · exact formed filter new

theorem mono (sends : Sends shape bound before after) (within : bound ≤ more) (implies : ∀ filter, shape filter → wider filter) :
    Sends wider more before after := by
  obtain ⟨sent, rfl, few, shaped⟩ := sends
  exact ⟨sent, rfl, few.trans within, fun filter member => implies filter (shaped filter member)⟩

end Sends

section Fetch

variable {authors : List PublicKey} {kind : Kind} {cap : Nat} {relayUrl label : String} {timeout : Duration}
  {shape : Filter → Prop}

private theorem windowFetch_sends (filter : Filter) (log : List Filter) :
    Must requestLog (gated relayUrl (fun filter => fetchWindowWithDeadline filter timeout label (clientFetch timeout)) filter)
      log (fun _ after => Sends (· = filter) 1 log after) := by
  have idle := (Sends.none (· = filter) log).mono (Nat.zero_le 1) fun _ same => same
  have sent : Sends (· = filter) 1 log (log ++ [filter]) :=
    ⟨[filter], rfl, le_rfl, fun _ member => List.mem_singleton.mp member⟩
  rw [gated, must_bind, acquire, must_perform]
  rintro token log rfl
  cases token with
  | error error => exact must_ret.mpr idle
  | ok token =>
    show Must requestLog (fetchWindowWithDeadline filter timeout label (clientFetch timeout)) log _
    rw [fetchWindowWithDeadline, must_bind, instantNow, must_perform]
    rintro started log rfl
    rw [must_bind, clientFetch, must_bind, fetchEvents, must_perform]
    rintro reply _ rfl
    cases reply with
    | error error => exact must_ret.mpr (must_ret.mpr sent)
    | ok events =>
      refine must_ret.mpr ?_
      show Must requestLog (instantNow >>= _) (log ++ [filter]) _
      rw [must_bind, instantNow, must_perform]
      rintro ended _ rfl
      split <;> exact must_ret.mpr sent

private theorem pageLoop_sends {fetch : Filter → Prog Net (Except RelayError (List Event))}
    (window : ∀ filter log, Must requestLog (fetch filter) log (fun _ after => Sends (· = filter) 1 log after))
    (pages : Nat) (page : PageState) (log : List Filter) :
    Must requestLog (pageLoop authors kind cap fetch pages page) log
      (fun _ after => Sends (fun filter => ∃ untilTs, filter = windowFilter authors kind cap untilTs) pages log after) := by
  induction pages generalizing page log with
  | zero => exact must_ret.mpr (.none _ log)
  | succ pages ih =>
    rw [pageLoop, must_bind]
    refine (window _ log).mono ?_
    intro reply between sends
    have first := sends.mono le_rfl fun filter same => (⟨_, same⟩ : ∃ untilTs, filter = windowFilter authors kind cap untilTs)
    cases reply with
    | error error => exact must_ret.mpr (first.mono (Nat.le_add_left 1 pages) fun _ shaped => shaped)
    | ok events =>
      cases stepped : pageStep cap page events with
      | done result =>
        simp only [stepped]
        exact must_ret.mpr (first.mono (Nat.le_add_left 1 pages) fun _ shaped => shaped)
      | next following =>
        simp only [stepped]
        refine (ih following between).mono ?_
        intro _ after rest
        exact (first.trans rest).mono (Nat.add_comm 1 pages).le fun _ shaped => shaped

private theorem chunk_sends (log : List Filter) : Must requestLog (paginateChunkGated authors kind cap relayUrl fun filter =>
      fetchWindowWithDeadline filter timeout label (clientFetch timeout)) log
    (fun _ after => Sends (fun filter => ∃ untilTs, filter = windowFilter authors kind cap untilTs) maxPagesPerChunk log after) := by
  rw [paginateChunkGated, paginateChunk, must_bind, timestampNow, must_perform]
  rintro now _ rfl
  exact pageLoop_sends windowFetch_sends _ _ _

private theorem poolLabel_sends (log : List Filter) : Must requestLog poolLabel log (fun _ after => after = log) := by
  rw [poolLabel, must_bind, poolRelays, must_perform]
  rintro relays _ rfl
  split <;> exact must_ret.mpr rfl

private theorem fetchChunks_sends {chunk : List PublicKey → Prog Net (Except RelayError (List Event))}
    {shape : List PublicKey → Filter → Prop} {bound : Nat}
    (each : ∀ authors log, Must requestLog (chunk authors) log (fun _ after => Sends (shape authors) bound log after))
    (all : List Event) (split : List (List PublicKey)) (log : List Filter) :
    Must requestLog (fetchChunks chunk all split) log
      (fun _ after => Sends (fun filter => ∃ authors ∈ split, shape authors filter) (split.length * bound) log after) := by
  induction split generalizing all log with
  | nil => exact must_ret.mpr ((Sends.none _ log).mono (Nat.zero_le _) fun _ shaped => shaped)
  | cons authors rest ih =>
    have total : (authors :: rest).length * bound = bound + rest.length * bound := by
      rw [List.length_cons, Nat.succ_mul, Nat.add_comm]
    rw [fetchChunks, must_bind, total]
    refine (each authors log).mono ?_
    intro reply between sends
    have first := sends.mono le_rfl fun filter shaped =>
      (⟨authors, List.mem_cons_self .., shaped⟩ : ∃ asked ∈ authors :: rest, shape asked filter)
    cases reply with
    | error error => exact must_ret.mpr (first.mono (Nat.le_add_right _ _) fun _ shaped => shaped)
    | ok events =>
      refine (ih (all ++ events) between).mono ?_
      intro _ after later
      have second := later.mono le_rfl fun filter shaped =>
        shaped.imp fun asked holds => (⟨List.mem_cons_of_mem authors holds.1, holds.2⟩ : asked ∈ authors :: rest ∧ shape asked filter)
      exact first.trans second

end Fetch

/-- The runs of a slice: none is empty, none is longer than asked, and all are of the slice. -/
theorem mem_chunks {size : Nat} {items run : List α} (positive : 0 < size) (member : run ∈ chunks size items) :
    run ≠ [] ∧ run.length ≤ size ∧ run ⊆ items := by
  obtain ⟨index, bounded, rfl⟩ := List.mem_map.mp member
  have within : index * size < items.length := by
    have below := (Nat.le_div_iff_mul_le positive).mp (Nat.succ_le_of_lt (List.mem_range.mp bounded))
    rw [Nat.succ_mul] at below
    omega
  refine ⟨?_, List.length_take_le .., fun item held => List.mem_of_mem_drop (List.mem_of_mem_take held)⟩
  rw [Ne, List.take_eq_nil_iff, List.drop_eq_nil_iff]
  omega

/-- The requests of one fetch, in any state of the cache that its calls can reach: however the relay
answers and whatever it advertises, no more than the page budget for each run of authors, and each for
at most 500 of the authors, with a limit between 1 and 5000. -/
theorem requests_bounded {fromJson : DocumentParser} {memo : Memo String RelayLimits} {relay : String} {limits : RelayLimits}
    (run : Relation.ReflTransGen (CacheStep fromJson) Memo.empty memo) (answered : .answered relay limits ∈ memo.calls)
    (timeout : Duration) (visit : Nat) (authors : List PublicKey) (kind : Kind) :
    Must requestLog (relayFetch (fun _ _ => limits.maxLimit) timeout visit relay authors kind) []
      (fun _ sent => sent.length ≤ (authors.length + 499) / 500 * 10000 ∧ ∀ filter ∈ sent,
        filter.kind = kind ∧ filter.authors ≠ [] ∧ filter.authors.length ≤ 500 ∧ filter.authors ⊆ authors ∧
          1 ≤ filter.limit ∧ filter.limit ≤ 5000) := by
  have sound : Memo.Sound (Fetched fromJson) memo := Memo.Sound.empty.run run
  obtain ⟨low, high⟩ := (sound.answers relay limits answered).usable.maxLimit
  have cap : max limits.maxLimit 1 = limits.maxLimit := max_eq_left low
  have count : (chunks (max maxAuthorsPerReq 1) authors).length = (authors.length + 499) / 500 := by
    simp [chunks, maxAuthorsPerReq]
  unfold relayFetch fetchCompleteWithTimeout
  rw [must_bind, cap]
  refine (poolLabel_sends []).mono ?_
  rintro label _ rfl
  refine (fetchChunks_sends (fun authors log => chunk_sends log) [] _ []).mono ?_
  intro _ after sends
  obtain ⟨sent, rfl, few, shaped⟩ := sends
  refine ⟨few.trans_eq (by rw [count]; rfl), ?_⟩
  intro filter member
  obtain ⟨asked, split, untilTs, rfl⟩ := shaped filter member
  obtain ⟨some, short, inside⟩ := mem_chunks (by decide) split
  exact ⟨rfl, some, short, inside, low, high⟩

/-- The theorem for a relay that could not be reached for its document. -/
theorem requests_bounded_unreachable :
    Must requestLog (relayFetch (fun _ _ => 500) defaultFetchTimeout 0 "wss://relay" [sampleAuthor] Kind.contactList) []
      (fun _ sent => sent.length ≤ 10000) := by
  obtain ⟨memo, run, _, answered⟩ := unreachable_answered
  have reached := Relation.ReflTransGen.mono (fun _ _ step => step.1) _ _ run
  exact (requests_bounded reached answered defaultFetchTimeout 0 [sampleAuthor] Kind.contactList).mono fun _ _ bounds => bounds.1

end WotCrawler.Daemon
