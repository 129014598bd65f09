import WotCrawler.Effect.Credit
import WotCrawler.Relay.Client
import WotCrawler.Relay.Coverage

/-! What a fetch takes from the limiters and what it sends: a token under one key for each window,
and a request to every relay of the pool. -/

namespace WotCrawler.Relay

open Effect Effect.Prog

/-- The tokens that the limiters gave out, by their keys, and the requests that the relays received. -/
structure Traffic where
  tokens : String → Nat
  reqs : String → Nat

namespace Traffic

def take (traffic : Traffic) (key : String) : Traffic :=
  { traffic with tokens := Function.update traffic.tokens key (traffic.tokens key + 1) }

/-- The client sends one request to every relay of its pool. -/
def send (traffic : Traffic) (curated : List String) : Traffic :=
  { traffic with reqs := fun relay => if relay ∈ curated then traffic.reqs relay + 1 else traffic.reqs relay }

@[simp] theorem take_reqs (traffic : Traffic) (key : String) : (traffic.take key).reqs = traffic.reqs := rfl

@[simp] theorem send_tokens (traffic : Traffic) (curated : List String) :
    (traffic.send curated).tokens = traffic.tokens := rfl

theorem take_tokens (traffic : Traffic) (key relay : String) :
    (traffic.take key).tokens relay = traffic.tokens relay + if key = relay then 1 else 0 := by
  by_cases same : relay = key
  · subst same
    simp [take]
  · simp [take, Function.update_of_ne same, Ne.symm same]

theorem send_reqs {curated : List String} (traffic : Traffic) (listed : relay ∈ curated) :
    (traffic.send curated).reqs relay = traffic.reqs relay + 1 := if_pos listed

end Traffic

/-- The surroundings as far as traffic goes: an acquire takes a token of its key, a fetch sends to the
whole pool, and everything else replies as it likes. -/
def wire (curated : List String) : Machine Net Traffic where
  exec
    | .acquire key, before, reply, after => reply = .ok () ∧ after = before.take key
    | .fetchEvents _ _, before, _, after => after = before.send curated
    | .timestampNow, before, _, after => after = before
    | .instantNow, before, _, after => after = before
    | .poolRelays, before, _, after => after = before

/-- A request costs a token of the relay, and an acquire under its key earns one. -/
def tokenTariff (relay : String) : Tariff Net where
  cost
    | .fetchEvents _ _ => 1
    | _ => 0
  gain
    | .acquire key => if key = relay then 1 else 0
    | _ => 0

/-- A relay of the pool receives what a call costs, and its limiter gives out what the call earns. -/
theorem wire_spec {curated : List String} {op : NetOp} {reply : op.Ret} {before after : Traffic}
    (listed : relay ∈ curated) (executed : (wire curated).exec op before reply after) :
    after.reqs relay = before.reqs relay + (tokenTariff relay).cost op ∧
      after.tokens relay = before.tokens relay + (tokenTariff relay).gain op := by
  cases op with
  | acquire key =>
    obtain ⟨_, rfl⟩ := executed
    exact ⟨rfl, before.take_tokens key relay⟩
  | fetchEvents filter deadline =>
    obtain rfl := executed
    exact ⟨before.send_reqs listed, rfl⟩
  | timestampNow =>
    obtain rfl := executed
    exact ⟨rfl, rfl⟩
  | instantNow =>
    obtain rfl := executed
    exact ⟨rfl, rfl⟩
  | poolRelays =>
    obtain rfl := executed
    exact ⟨rfl, rfl⟩

section Affords

variable {relay : String} {timeout : Duration}

/-- A window pays for its request with the token it acquired, and is in time only within a deadline. -/
theorem windowFetch_affords (label : String) (filter : Filter) :
    (windowFetch relay label timeout filter).Affords (tokenTariff relay) (ifOk fun _ => 0 < timeout) 0 := by
  refine ⟨le_refl 0, ?_⟩
  intro token
  have earned : 0 - (tokenTariff relay).cost (.acquire relay) + (tokenTariff relay).gain (.acquire relay) = 1 := by
    simp [tokenTariff]
  rw [earned]
  cases token with
  | error error => trivial
  | ok token =>
    refine ⟨Nat.zero_le _, ?_⟩
    intro started
    refine ⟨le_refl 1, ?_⟩
    intro reply
    cases reply with
    | error error => trivial
    | ok events =>
      refine ⟨Nat.zero_le _, ?_⟩
      intro ended
      change Affords _ _ (if ended - started ≥ timeout then _ else _) _
      split
      · trivial
      · rename_i inTime
        exact lt_of_le_of_lt (Nat.zero_le _) (not_le.mp inTime)

variable {authors : List PublicKey} {kind : Kind} {tariff : Tariff Net} {holds : Prop}

theorem pageLoop_affords {cap : Nat} {fetch : Filter → Prog Net (Except RelayError (List Event))}
    (window : ∀ filter, (fetch filter).Affords tariff (ifOk fun _ => holds) 0) (pages : Nat) (page : PageState) :
    (pageLoop authors kind cap fetch pages page).Affords tariff (ifOk fun _ => holds) 0 := by
  induction pages generalizing page with
  | zero => trivial
  | succ pages ih =>
    rw [pageLoop]
    apply (window _).before
    intro reply kept
    cases reply with
    | error error => trivial
    | ok events =>
      cases stepped : pageStep cap page events with
      | next following => simpa only [stepped] using ih following
      | done result =>
        cases result with
        | error error => simp only [stepped]; trivial
        | ok out => simp only [stepped]; exact kept

theorem paginateChunk_affords {cap : Nat} {now : Prog Net Timestamp}
    {fetch : Filter → Prog Net (Except RelayError (List Event))} (clock : now.Affords tariff (fun _ => True) 0)
    (window : ∀ filter, (fetch filter).Affords tariff (ifOk fun _ => holds) 0) :
    (paginateChunk now authors kind cap fetch).Affords tariff (ifOk fun _ => holds) 0 := by
  rw [paginateChunk]
  apply clock.before
  intro moment _
  exact pageLoop_affords window _ _

/-- The chunks of a fetch, of which each pays for itself. -/
theorem fetchChunks_affords {chunk : List PublicKey → Prog Net (Except RelayError (List Event))}
    (each : ∀ authors, (chunk authors).Affords tariff (ifOk fun _ => holds) 0) (all : List Event)
    (chunks : List (List PublicKey)) :
    (fetchChunks chunk all chunks).Affords tariff (ifOk fun _ => chunks ≠ [] → holds) 0 := by
  induction chunks generalizing all with
  | nil => exact fun impossible => absurd rfl impossible
  | cons authors rest ih =>
    rw [fetchChunks]
    apply (each authors).before
    intro reply kept
    cases reply with
    | error error => trivial
    | ok events =>
      apply (ih (all ++ events)).mono (le_refl 0)
      intro result _
      cases result with
      | error error => trivial
      | ok all => exact fun _ => kept

/-- A fetch under a relay's key pays for what it sends to that relay, and succeeds for some author
only within a deadline. -/
theorem fetchCompleteWithTimeout_affords (asked : authors ≠ []) (maxLimit maxAuthors : Nat) :
    (fetchCompleteWithTimeout relay authors kind maxLimit maxAuthors timeout).Affords (tokenTariff relay)
      (ifOk fun _ => 0 < timeout) 0 := by
  have some : chunks (max maxAuthors 1) authors ≠ [] :=
    fun none => asked ((chunks_eq_nil_iff (lt_of_lt_of_le Nat.one_pos (le_max_right _ _))).mp none)
  have clock : timestampNow.Affords (tokenTariff relay) (fun _ => True) 0 := ⟨Nat.zero_le _, fun _ => trivial⟩
  have free : poolLabel.Affords (tokenTariff relay) (fun _ => True) 0 := by
    refine ⟨Nat.zero_le _, ?_⟩
    intro urls
    change Affords _ _ (if urls = [] then _ else _) _
    split
    · trivial
    · trivial
  have chunk (label : String) (authors : List PublicKey) :
      (paginateChunkGated authors kind (max maxLimit 1) relay (fun filter =>
        fetchWindowWithDeadline filter timeout label (clientFetch timeout))).Affords (tokenTariff relay)
        (ifOk fun _ => 0 < timeout) 0 :=
    paginateChunk_affords clock fun filter => windowFetch_affords label filter
  rw [fetchCompleteWithTimeout]
  apply free.before
  intro label _
  apply (fetchChunks_affords (chunk _) [] (chunks (max maxAuthors 1) authors)).mono (le_refl 0)
  intro result holds
  cases result with
  | error error => trivial
  | ok all => exact holds some

end Affords

/-- How many requests a relay received beyond the tokens under its key. -/
def Traffic.owed (traffic : Traffic) (relay : String) : Int := traffic.reqs relay - traffic.tokens relay

/-- Nowhere in the pool does the debt fall, and each relay that is not one of the keys gets into debt. -/
def Strains (curated keys : List String) (before after : Traffic) : Prop :=
  ∀ relay ∈ curated, before.owed relay ≤ after.owed relay ∧
    ∀ key ∈ keys, relay ≠ key → before.owed relay < after.owed relay

namespace Strains

variable {curated : List String} {before between after : Traffic}

theorem none (curated : List String) (traffic : Traffic) : Strains curated [] traffic traffic := by
  intro relay listed
  refine ⟨le_refl _, ?_⟩
  intro key absent
  cases absent

theorem trans {keys others : List String} (first : Strains curated keys before between)
    (second : Strains curated others between after) : Strains curated (keys ++ others) before after := by
  intro relay listed
  obtain ⟨grows, strains⟩ := first relay listed
  obtain ⟨growsOn, strainsOn⟩ := second relay listed
  refine ⟨grows.trans growsOn, ?_⟩
  intro key member other
  cases List.mem_append.mp member with
  | inl early => exact lt_of_lt_of_le (strains key early other) growsOn
  | inr late => exact lt_of_le_of_lt grows (strainsOn key late other)

theorem mono {keys fewer : List String} (strains : Strains curated keys before after) (subset : fewer ⊆ keys) :
    Strains curated fewer before after := by
  intro relay listed
  obtain ⟨grows, strains⟩ := strains relay listed
  exact ⟨grows, fun key member => strains key (subset member)⟩

/-- One window. -/
theorem window (curated : List String) (key : String) (traffic : Traffic) :
    Strains curated [key] traffic ((traffic.take key).send curated) := by
  intro relay listed
  have owed : ((traffic.take key).send curated).owed relay =
      traffic.owed relay + 1 - (if key = relay then 1 else 0 : Nat) := by
    rw [Traffic.owed, Traffic.send_reqs _ listed, Traffic.send_tokens, Traffic.take_tokens, Traffic.take_reqs,
      Traffic.owed]
    omega
  rw [owed]
  refine ⟨?_, ?_⟩
  · split <;> omega
  · intro other member apart
    obtain rfl := List.mem_singleton.mp member
    rw [if_neg (Ne.symm apart)]
    omega

end Strains

section Strains

variable {curated : List String} {key : String} {timeout : Duration} {authors : List PublicKey} {kind : Kind}

/-- The pool's debt after asking under one key, with a result in time where a deadline allows one. -/
def Asked (curated : List String) (timeout : Duration) (key : String) (before : Traffic)
    (result : Except RelayError (List Event)) (after : Traffic) : Prop :=
  Strains curated [key] before after ∧ (timeout = 0 ∨ ∃ events, result = .ok events)

/-- Whoever passes the result on. -/
theorem Asked.error {failure : RelayError} (asked : Asked curated timeout key before (.error failure) after) (other : RelayError) :
    Asked curated timeout key before (.error other) after := by
  refine ⟨asked.1, asked.2.imp id ?_⟩
  intro answered
  obtain ⟨events, impossible⟩ := answered
  cases impossible

theorem Asked.ok {events : List Event} (asked : Asked curated timeout key before (.ok events) after) (all : List Event) :
    Asked curated timeout key before (.ok all) after := ⟨asked.1, .inr ⟨all, rfl⟩⟩

theorem pageStep_empty {cap : Nat} (positive : 0 < cap) (page : PageState) :
    pageStep cap page [] = .done (.ok page.out) := by
  have short : ¬ 0 ≥ cap := not_le.mpr positive
  simp [pageStep, Sequence.keepFirst, short]

/-- A window can come back empty at once. -/
theorem windowFetch_asked (label : String) (filter : Filter) (traffic : Traffic) :
    May (wire curated) (windowFetch key label timeout filter) traffic (fun result after =>
      Asked curated timeout key traffic result after ∧ ∀ events, result = .ok events → events = []) := by
  refine may_call.mpr ⟨.ok (), traffic.take key, ⟨rfl, rfl⟩, ?_⟩
  refine may_call.mpr ⟨(0 : Nat), traffic.take key, rfl, ?_⟩
  refine may_call.mpr ⟨.ok [], (traffic.take key).send curated, rfl, ?_⟩
  refine may_call.mpr ⟨(0 : Nat), (traffic.take key).send curated, rfl, ?_⟩
  change May _ (if (0 : Nat) - 0 ≥ timeout then _ else _) _ _
  split
  · rename_i late
    have zero : timeout = 0 := Nat.le_zero.mp late
    refine may_ret.mpr ⟨⟨.window curated key traffic, .inl zero⟩, ?_⟩
    intro events impossible
    cases impossible
  · refine may_ret.mpr ⟨⟨.window curated key traffic, .inr ⟨[], rfl⟩⟩, ?_⟩
    intro events same
    exact (Except.ok.inj same).symm

theorem paginateChunkGated_asked {cap : Nat} (positive : 0 < cap) (label : String) (traffic : Traffic) :
    May (wire curated) (paginateChunkGated authors kind cap key (fun filter =>
      fetchWindowWithDeadline filter timeout label (clientFetch timeout))) traffic
      (Asked curated timeout key traffic) := by
  rw [paginateChunkGated, paginateChunk, may_bind]
  refine may_call.mpr ⟨(0 : Timestamp), traffic, rfl, may_ret.mpr ?_⟩
  obtain ⟨pages, budget⟩ : ∃ pages, maxPagesPerChunk = pages + 1 := ⟨9999, rfl⟩
  rw [budget, pageLoop, may_bind]
  refine (windowFetch_asked label _ traffic).mono ?_
  intro result after holds
  obtain ⟨asked, empty⟩ := holds
  cases result with
  | error error => exact may_ret.mpr (asked.error error)
  | ok events =>
    obtain rfl := empty events rfl
    dsimp only
    rw [pageStep_empty positive]
    exact may_ret.mpr (asked.ok [])

/-- Every chunk is asked for, or the first one comes too late. -/
theorem fetchChunks_asked {chunk : List PublicKey → Prog Net (Except RelayError (List Event))}
    (each : ∀ authors traffic, May (wire curated) (chunk authors) traffic (Asked curated timeout key traffic))
    (all : List Event) (chunks : List (List PublicKey)) (some : chunks ≠ []) (traffic : Traffic) :
    May (wire curated) (fetchChunks chunk all chunks) traffic (Asked curated timeout key traffic) := by
  induction chunks generalizing all traffic with
  | nil => exact absurd rfl some
  | cons authors rest ih =>
    rw [fetchChunks, may_bind]
    refine (each authors traffic).mono ?_
    intro result between asked
    cases result with
    | error error => exact may_ret.mpr (asked.error _)
    | ok events =>
      by_cases last : rest = []
      · subst last
        exact may_ret.mpr (asked.ok _)
      · refine (ih (all ++ events) last between).mono ?_
        intro result after later
        exact ⟨(asked.1.trans later.1).mono (List.cons_subset_cons key (List.nil_subset _)), later.2⟩

/-- A fetch for some author asks the whole pool under one key. -/
theorem fetchCompleteWithTimeout_asked (asks : authors ≠ []) (maxLimit maxAuthors : Nat) (traffic : Traffic) :
    May (wire curated) (fetchCompleteWithTimeout key authors kind maxLimit maxAuthors timeout) traffic
      (Asked curated timeout key traffic) := by
  have some : chunks (max maxAuthors 1) authors ≠ [] :=
    fun none => asks ((chunks_eq_nil_iff (lt_of_lt_of_le Nat.one_pos (le_max_right _ _))).mp none)
  have cap : 0 < max maxLimit 1 := lt_of_lt_of_le Nat.one_pos (le_max_right _ _)
  rw [fetchCompleteWithTimeout, may_bind]
  refine may_call.mpr ⟨[], traffic, rfl, may_ret.mpr ?_⟩
  exact fetchChunks_asked (fun chunk traffic => paginateChunkGated_asked cap _ traffic) [] _ some traffic

end Strains

end WotCrawler.Relay
