import WotCrawler.Daemon.Config

/-! The staleness window and the lease window: what of the configured durations the two sweeps see. -/

namespace WotCrawler.Daemon

open Crawl Effect Ingest Numeric Relay Store

/-- `Duration::as_secs`. -/
def asSecs (duration : Duration) : Nat := duration / 1000000000

/-- `Duration::subsec_nanos`. -/
def subsecNanos (duration : Duration) : Nat := duration % 1000000000

/-- `u64 as i64`. -/
def asI64 (value : Nat) : Int := (value : Int).bmod (2 ^ 64)

/-- The sweep of the staleness task. -/
def Config.stalenessScan (c : Config) : StoreM Nat := reclaimStaleByTtl (asI64 (asSecs c.ttl))

/-- The sweep of the in-run reclaim task. -/
def Config.inRunReclaim (c : Config) : StoreM Nat :=
  reclaimInProgressOlderThan (asI64 (asSecs c.reclaimAge))

/-- The database in a transaction that started at a moment. -/
def sqlAt (now : DateTime) : Machine Sql Database where
  exec := fun stmt before reply after => ∃ locked, stmt.Executes now locked before reply after

/-- The time since a moment, in nanoseconds. -/
def sinceNanos (now ts : DateTime) : Int := (now - ts) * 1000

def Terminal (status : FetchStatus) : Prop := status = .fetched ∨ status = .notFound ∨ status = .failed

theorem Terminal.ne_discovered {status : FetchStatus} (terminal : Terminal status) : status ≠ .discovered := by
  rcases terminal with rfl | rfl | rfl <;> nofun

theorem leased_ne_discovered {status : FetchStatus} (leased : status = .inProgress) : status ≠ .discovered := by
  rw [leased]
  nofun

/-- The sweeps agree with the configured durations, at every clock, database and row. -/
structure Config.KeepsWindows (c : Config) : Prop where
  fresh : ∀ now db, Must (sqlAt now) c.stalenessScan.run db fun _ after => ∀ id row ts,
    db.rows id = some row → Terminal row.columns.status → row.columns.lastFetchedAt = some ts →
    sinceNanos now ts < c.ttl → after.rows id = some row
  live : ∀ now db, Must (sqlAt now) c.inRunReclaim.run db fun _ after => ∀ id row ts,
    db.rows id = some row → row.columns.status = .inProgress → row.columns.claimedAt = some ts →
    sinceNanos now ts < c.reclaimAge → after.rows id = some row
  stale : ∀ now db, Must (sqlAt now) c.stalenessScan.run db fun reply after => ∀ count, reply = .ok count →
    ∀ id row ts, db.rows id = some row → Terminal row.columns.status → row.columns.lastFetchedAt = some ts →
    c.ttl + secs 1 ≤ sinceNanos now ts → after.rows id = some { row with columns := row.columns.reclaim }

section Sweeps

variable {now ts : DateTime} {db : Database} {id : Nat} {row : PubkeyRow} {c : Config}

/-- The seconds of the interval that reaches the database. -/
def windowSecs (duration : Duration) : Int := asF64 (asI64 (asSecs duration))

theorem must_stalenessScan {post : Except StoreError Nat → Database → Prop} :
    Must (sqlAt now) c.stalenessScan.run db post ↔
      post (.ok (db.selected (Columns.isStale now (windowSecs c.ttl))))
        (db.sweep (Columns.isStale now (windowSecs c.ttl))) := by
  refine must_perform.trans ⟨fun must => must _ _ ⟨∅, rfl, rfl⟩, ?_⟩
  rintro holds reply after ⟨locked, rfl, rfl⟩
  exact holds

theorem must_inRunReclaim {post : Except StoreError Nat → Database → Prop} :
    Must (sqlAt now) c.inRunReclaim.run db post ↔
      post (.ok (db.selected (Columns.isExpired now (windowSecs c.reclaimAge))))
        (db.sweep (Columns.isExpired now (windowSecs c.reclaimAge))) := by
  refine must_perform.trans ⟨fun must => must _ _ ⟨∅, rfl, rfl⟩, ?_⟩
  rintro holds reply after ⟨locked, rfl, rfl⟩
  exact holds

/-- What a sweep makes of a row. -/
theorem sweep_row (found : db.rows id = some row) (selects : Columns → Bool) : (db.sweep selects).rows id =
    some { row with columns := if selects row.columns then row.columns.reclaim else row.columns } := by
  simp [Database.sweep, found]

/-- A sweep leaves a row alone that is no discovered one exactly if it does not select it. -/
theorem sweep_spares_iff (found : db.rows id = some row) (waiting : row.columns.status ≠ .discovered)
    (selects : Columns → Bool) : (db.sweep selects).rows id = some row ↔ selects row.columns = false := by
  rw [sweep_row found]
  cases selected : selects row.columns with
  | false => simp
  | true =>
    refine iff_of_false ?_ Bool.noConfusion
    intro same
    have status := congrArg (fun kept => kept.columns.status) (Option.some.inj same)
    exact waiting status.symm

theorem olderThan_iff {seconds : Int} : Columns.olderThan (some ts) now seconds = true ↔
    seconds * 1000000000 < sinceNanos now ts := by
  rw [Columns.olderThan, Option.any_some, decide_eq_true_iff, DateTime.ofSeconds, sinceNanos]
  constructor
  · intro older
    linarith
  · intro longer
    linarith

theorem isStale_iff {columns : Columns} {seconds : Int} (terminal : Terminal columns.status)
    (fetched : columns.lastFetchedAt = some ts) :
    columns.isStale now seconds = true ↔ seconds * 1000000000 < sinceNanos now ts := by
  rw [← olderThan_iff, Columns.isStale, fetched, decide_eq_true_iff]
  exact and_iff_right terminal

theorem isExpired_iff {columns : Columns} {seconds : Int} (leased : columns.status = .inProgress)
    (claimed : columns.claimedAt = some ts) :
    columns.isExpired now seconds = true ↔ seconds * 1000000000 < sinceNanos now ts := by
  rw [← olderThan_iff, Columns.isExpired, claimed, decide_eq_true_iff]
  exact and_iff_right (decide_eq_true leased)

/-- A database with one row. -/
def oneRow (columns : Columns) : Database :=
  (Database.empty.insertPubkey [] (by decide)).updateRow 1 fun _ => columns

/-- The columns of a row that was fetched at a moment, and of one that was leased then. -/
def fetchedAt (ts : DateTime) : Columns := { Columns.default with status := .fetched, lastFetchedAt := some ts }

def leasedAt (ts : DateTime) : Columns := { Columns.default with status := .inProgress, claimedAt := some ts }

theorem oneRow_rows (columns : Columns) : (oneRow columns).rows 1 = some ⟨[], columns⟩ := rfl

/-- A sweep whose `WHERE` compares an age with a window is never early exactly if no age below the
limit exceeds the window. -/
theorem spares_young_iff {selects : DateTime → Columns → Bool} {stamped : Columns → DateTime → Prop} {window : Int}
    (limit : Duration) (sample : DateTime → Columns)
    (selected : ∀ now columns ts, stamped columns ts →
      (selects now columns = true ↔ window * 1000000000 < sinceNanos now ts))
    (waiting : ∀ columns ts, stamped columns ts → columns.status ≠ .discovered)
    (sampled : ∀ ts, stamped (sample ts) ts) :
    (∀ now (db : Database) id row ts, db.rows id = some row → stamped row.columns ts → sinceNanos now ts < limit →
      (db.sweep (selects now)).rows id = some row) ↔
    ∀ now ts, sinceNanos now ts < limit → sinceNanos now ts ≤ window * 1000000000 := by
  constructor
  · intro spares now ts young
    have spared := spares now (oneRow (sample ts)) 1 _ ts (oneRow_rows _) (sampled ts) young
    rw [sweep_spares_iff (oneRow_rows _) (waiting _ ts (sampled ts)), ← Bool.not_eq_true,
      selected now _ ts (sampled ts)] at spared
    exact not_lt.mp spared
  · intro within now db id row ts found shown young
    rw [sweep_spares_iff found (waiting _ ts shown), ← Bool.not_eq_true, selected now _ ts shown]
    exact not_lt.mpr (within now ts young)

/-- The staleness sweep is never early exactly if no age below the TTL exceeds its interval. -/
theorem fresh_iff : (∀ now db, Must (sqlAt now) c.stalenessScan.run db fun _ after => ∀ id row ts,
      db.rows id = some row → Terminal row.columns.status → row.columns.lastFetchedAt = some ts →
      sinceNanos now ts < c.ttl → after.rows id = some row) ↔
    ∀ now ts, sinceNanos now ts < c.ttl → sinceNanos now ts ≤ windowSecs c.ttl * 1000000000 := by
  refine Iff.trans ?_ (spares_young_iff c.ttl fetchedAt
    (fun now columns ts (stamp : Terminal columns.status ∧ columns.lastFetchedAt = some ts) =>
      isStale_iff stamp.1 stamp.2)
    (fun columns ts stamp => stamp.1.ne_discovered) (fun ts => ⟨.inl rfl, rfl⟩))
  simp only [must_stalenessScan, and_imp]

/-- The same of the in-run reclaim and the lease age. -/
theorem live_iff : (∀ now db, Must (sqlAt now) c.inRunReclaim.run db fun _ after => ∀ id row ts,
      db.rows id = some row → row.columns.status = .inProgress → row.columns.claimedAt = some ts →
      sinceNanos now ts < c.reclaimAge → after.rows id = some row) ↔
    ∀ now ts, sinceNanos now ts < c.reclaimAge → sinceNanos now ts ≤ windowSecs c.reclaimAge * 1000000000 := by
  refine Iff.trans ?_ (spares_young_iff c.reclaimAge leasedAt
    (fun now columns ts (stamp : columns.status = .inProgress ∧ columns.claimedAt = some ts) =>
      isExpired_iff stamp.1 stamp.2)
    (fun columns ts stamp => leased_ne_discovered stamp.1) (fun ts => ⟨rfl, rfl⟩))
  simp only [must_inRunReclaim, and_imp]

/-- The staleness sweep is at most a second late exactly if every such age exceeds its interval. -/
theorem stale_iff : (∀ now db, Must (sqlAt now) c.stalenessScan.run db fun reply after => ∀ count, reply = .ok count →
      ∀ id row ts, db.rows id = some row → Terminal row.columns.status → row.columns.lastFetchedAt = some ts →
      c.ttl + secs 1 ≤ sinceNanos now ts → after.rows id = some { row with columns := row.columns.reclaim }) ↔
    ∀ now ts, c.ttl + secs 1 ≤ sinceNanos now ts → windowSecs c.ttl * 1000000000 < sinceNanos now ts := by
  constructor
  · intro stale now ts old
    by_contra missed
    have reset := must_stalenessScan.mp (stale now (oneRow (fetchedAt ts))) _ rfl 1 _ ts (oneRow_rows _) (.inl rfl) rfl old
    have selected : ¬ (fetchedAt ts).isStale now (windowSecs c.ttl) = true := by
      rw [isStale_iff (.inl rfl) rfl]
      exact missed
    rw [sweep_row (oneRow_rows _), if_neg selected] at reset
    have status := congrArg (fun kept => kept.columns.status) (Option.some.inj reset)
    exact Terminal.ne_discovered (.inl rfl) status
  · intro beyond now db
    rw [must_stalenessScan]
    intro count _ id row ts found terminal fetched old
    rw [sweep_row found, if_pos ((isStale_iff terminal fetched).mpr (beyond now ts old))]

end Sweeps

section Durations

variable {duration : Duration} {window : Int}

/-- No age below the limit exceeds the window, where ages are whole microseconds. -/
theorem never_early_iff : (∀ now ts, sinceNanos now ts < duration → sinceNanos now ts ≤ window * 1000000000) ↔
    (duration : Int) ≤ window * 1000000000 + 1000 := by
  constructor
  · intro within
    by_contra beyond
    have exceeded : sinceNanos (window * 1000000 + 1) 0 = window * 1000000000 + 1000 := by
      unfold sinceNanos
      omega
    have bounded := within (window * 1000000 + 1) 0 (by omega)
    omega
  · intro within now ts young
    unfold sinceNanos at young ⊢
    generalize now - ts = age at young ⊢
    omega

/-- Every age of a second more than the limit exceeds the window. -/
theorem never_late_iff :
    (∀ now ts, duration + secs 1 ≤ sinceNanos now ts → window * 1000000000 < sinceNanos now ts) ↔
      window * 1000000000 < duration + secs 1 := by
  constructor
  · intro beyond
    by_contra within
    have met : sinceNanos (window * 1000000) 0 = window * 1000000000 := by
      unfold sinceNanos
      omega
    have exceeded := beyond (window * 1000000) 0 (by omega)
    omega
  · exact fun within now ts old => within.trans_le old

/-- Below `2 ^ 63` seconds only the `f64` moves the interval. -/
theorem windowSecs_eq (few : asSecs duration < 2 ^ 63) : windowSecs duration = roundHalfEven 53 (asSecs duration) := by
  have same : asI64 (asSecs duration) = asSecs duration := Int.bmod_eq_of_le (by omega) (by omega)
  rw [windowSecs, same, asF64_natCast]

/-- From there on the interval is far too short. -/
theorem windowSecs_lt (many : 2 ^ 63 ≤ asSecs duration) : windowSecs duration < asSecs duration := by
  have below : asI64 (asSecs duration) < 2 ^ 63 := Int.bmod_lt (by decide)
  by_cases negative : asI64 (asSecs duration) ≤ 0
  · have short := asF64_nonpos negative
    unfold windowSecs
    omega
  · obtain ⟨value, same⟩ := Int.eq_ofNat_of_zero_le (not_le.mp negative).le
    have rounded : roundHalfEven 53 value ≤ 2 ^ 63 := roundHalfEven_le_two_pow (by omega)
    have least : asSecs duration ≠ 2 ^ 63 := by
      intro exact
      rw [exact] at negative
      exact negative (by decide)
    rw [windowSecs, same, asF64_natCast]
    omega

/-- The TTL keeps its value through the casts, to a microsecond, or gains less than a second. -/
structure KeptTtl (ttl : Duration) : Prop where
  fits : asSecs ttl < 2 ^ 63
  kept : (gap 53 (asSecs ttl) ∣ asSecs ttl ∧ subsecNanos ttl ≤ 1000) ∨
    ((RoundsUp 53 (asSecs ttl) ∧ gap 53 (asSecs ttl) ∣ asSecs ttl + 1) ∧ 0 < subsecNanos ttl)

/-- The age keeps its value through the casts, to a microsecond, or gains. -/
structure KeptAge (age : Duration) : Prop where
  fits : asSecs age < 2 ^ 63
  kept : (gap 53 (asSecs age) ∣ asSecs age ∧ subsecNanos age ≤ 1000) ∨ RoundsUp 53 (asSecs age)

/-- A duration is its whole seconds and the rest. -/
theorem asSecs_subsecNanos (duration : Duration) : asSecs duration * 1000000000 + subsecNanos duration = duration :=
  Nat.div_add_mod' duration 1000000000

theorem keptAge_iff : (duration : Int) ≤ windowSecs duration * 1000000000 + 1000 ↔ KeptAge duration := by
  have whole := asSecs_subsecNanos duration
  have rest : subsecNanos duration < 1000000000 := Nat.mod_lt _ (by decide)
  by_cases fits : asSecs duration < 2 ^ 63
  · rw [windowSecs_eq fits]
    constructor
    · intro within
      refine ⟨fits, ?_⟩
      rw [← roundHalfEven_eq_self_iff, ← lt_roundHalfEven_iff]
      omega
    · rintro ⟨_, kept⟩
      rw [← roundHalfEven_eq_self_iff, ← lt_roundHalfEven_iff] at kept
      omega
  · have short := windowSecs_lt (not_lt.mp fits)
    exact iff_of_false (by omega) (fun kept => fits kept.fits)

theorem keptTtl_iff : (duration : Int) ≤ windowSecs duration * 1000000000 + 1000 ∧
    windowSecs duration * 1000000000 < duration + secs 1 ↔ KeptTtl duration := by
  have second : (secs 1 : Int) = 1000000000 := rfl
  have whole := asSecs_subsecNanos duration
  have rest : subsecNanos duration < 1000000000 := Nat.mod_lt _ (by decide)
  rw [keptAge_iff]
  constructor
  · rintro ⟨⟨fits, kept⟩, late⟩
    refine ⟨fits, ?_⟩
    rw [windowSecs_eq fits] at late
    rw [← roundHalfEven_eq_self_iff, ← lt_roundHalfEven_iff] at kept
    rw [← roundHalfEven_eq_self_iff, ← roundHalfEven_eq_succ_iff]
    omega
  · rintro ⟨fits, kept⟩
    refine ⟨⟨fits, kept.imp_right fun up => up.1.1⟩, ?_⟩
    rw [windowSecs_eq fits]
    rw [← roundHalfEven_eq_self_iff, ← roundHalfEven_eq_succ_iff] at kept
    omega

/-- Whole seconds that an `f64` holds exactly are kept. -/
theorem kept_of_whole (few : asSecs duration < 2 ^ 53) (whole : subsecNanos duration = 0) :
    KeptTtl duration ∧ KeptAge duration := by
  have exact : gap 53 (asSecs duration) ∣ asSecs duration := by
    rw [gap_eq_one (by decide) few]
    exact one_dvd _
  have fits : asSecs duration < 2 ^ 63 := few.trans (by decide)
  exact ⟨⟨fits, .inl ⟨exact, by omega⟩⟩, ⟨fits, .inl ⟨exact, by omega⟩⟩⟩

end Durations

namespace Config

variable {c : Config}

private theorem keepsWindows_of_kept (ttl : KeptTtl c.ttl) (age : KeptAge c.reclaimAge) : c.KeepsWindows := by
  obtain ⟨early, late⟩ := keptTtl_iff.mpr ttl
  exact {
    fresh := fresh_iff.mpr (never_early_iff.mpr early)
    live := live_iff.mpr (never_early_iff.mpr (keptAge_iff.mpr age))
    stale := stale_iff.mpr (never_late_iff.mpr late) }

private theorem KeepsWindows.kept (keeps : c.KeepsWindows) : KeptTtl c.ttl ∧ KeptAge c.reclaimAge := by
  have early := never_early_iff.mp (fresh_iff.mp keeps.fresh)
  have late := never_late_iff.mp (stale_iff.mp keeps.stale)
  exact ⟨keptTtl_iff.mp ⟨early, late⟩, keptAge_iff.mp (never_early_iff.mp (live_iff.mp keeps.live))⟩

/-- The sweeps agree with the configured durations exactly if both keep their value on the way to
the database: no fraction of a second to lose, and no more seconds than the casts can hold. -/
theorem keepsWindows_iff (c : Config) : c.KeepsWindows ↔ KeptTtl c.ttl ∧ KeptAge c.reclaimAge :=
  ⟨KeepsWindows.kept, fun kept => keepsWindows_of_kept kept.1 kept.2⟩

/-- A config whose required TTL is in whole seconds keeps its windows by default. -/
theorem minimal_keepsWindows {anchor database : String} {urls : List String} {seconds : Nat} (few : seconds < 2 ^ 53) :
    (minimal anchor urls database (secs seconds)).KeepsWindows := by
  have ttl : KeptTtl (secs seconds) :=
    (kept_of_whole (by unfold asSecs secs; omega) (by unfold subsecNanos secs; omega)).1
  have age : KeptAge defaultReclaimAge := (kept_of_whole (by decide) (by decide)).2
  exact keepsWindows_of_kept ttl age

/-- A config whose TTL is a second and a half. -/
def secondAndAHalf : Config := minimal "anchor" ["wss://relay.example"] "postgres://localhost/wot" 1500000000

/-- The config is accepted, and its sweep resets a row that was fetched 1.2 seconds ago. -/
theorem keepsWindows_fails : validate (fun _ => .ok sampleAuthor) secondAndAHalf = .ok () ∧
    Must (sqlAt 1200000) secondAndAHalf.stalenessScan.run (oneRow (fetchedAt 0)) (fun _ after =>
      after.rows 1 = some ⟨[], (fetchedAt 0).reclaim⟩) ∧ ¬ secondAndAHalf.KeepsWindows := by
  refine ⟨?_, ?_, ?_⟩
  · exact validate_eq_ok_iff.mpr (minimal_runnable rfl (by decide) (by decide) (by decide)).1
  · rw [must_stalenessScan, sweep_row (oneRow_rows _), if_pos (by decide)]
  · intro keeps
    obtain ⟨_, ⟨_, few⟩ | ⟨⟨up, _⟩, _⟩⟩ := keeps.kept.1
    · exact absurd few (by decide)
    · exact absurd up (by decide)

end Config

end WotCrawler.Daemon
