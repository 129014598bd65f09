import WotCrawler.Crawl.Authenticity
import WotCrawler.Crawl.Exactness
import WotCrawler.Numeric.Binary64

/-! The gauges of the frontier: what the status aggregate makes of the rows, and what a coverage of one
says about the graph. -/

namespace WotCrawler.Daemon

open Effect Store Ingest Crawl Numeric

/-- The text of the column. -/
def statusText : FetchStatus → String
  | .discovered => "discovered"
  | .inProgress => "in_progress"
  | .fetched => "fetched"
  | .notFound => "not_found"
  | .failed => "failed"

structure FrontierCounts where
  discovered : Int := 0
  inProgress : Int := 0
  fetched : Int := 0
  notFound : Int := 0
  failed : Int := 0
  total : Int := 0
deriving DecidableEq

namespace FrontierCounts

/-- The fraction of the rows that are fetched, as `f64`. -/
def coverage (counts : FrontierCounts) : Rat :=
  if counts.total = 0 then 0 else binary64 (binary64 counts.fetched / binary64 counts.total)

/-- One row of the aggregate. An unknown status counts in the total only. -/
def record (counts : FrontierCounts) (row : String × Option Int) : FrontierCounts :=
  let n := row.2.getD 0
  let counts := match row.1 with
    | "discovered" => { counts with discovered := n }
    | "in_progress" => { counts with inProgress := n }
    | "fetched" => { counts with fetched := n }
    | "not_found" => { counts with notFound := n }
    | "failed" => { counts with failed := n }
    | _ => counts
  { counts with total := counts.total + n }

end FrontierCounts

/-- `frontier_counts`, given the rows of its aggregate. -/
def frontierCounts (rows : List (String × Option Int)) : FrontierCounts := rows.foldl FrontierCounts.record {}

/-- The statuses of the rows. -/
def statuses (db : Database) : List FetchStatus :=
  (List.range db.nextId).filterMap fun id => (db.rows id).map fun row => row.columns.status

/-- What `GROUP BY status` returns: a row for each status there is, in any order. -/
def Aggregates (db : Database) (rows : List (String × Option Int)) : Prop :=
  ∃ order : List FetchStatus, order.Perm (statuses db).dedup ∧
    rows = order.map fun status => (statusText status, some ((statuses db).count status : Int))

/-- The rows of each status. -/
def frontier (db : Database) : FrontierCounts where
  discovered := (statuses db).count .discovered
  inProgress := (statuses db).count .inProgress
  fetched := (statuses db).count .fetched
  notFound := (statuses db).count .notFound
  failed := (statuses db).count .failed
  total := (statuses db).length

section Counts

variable {db before after : Database} {rows : List (String × Option Int)}

theorem mem_statuses {status : FetchStatus} : status ∈ statuses db ↔
    ∃ id row, db.rows id = some row ∧ row.columns.status = status := by
  unfold statuses
  rw [List.mem_filterMap]
  constructor
  · intro listed
    obtain ⟨id, _, same⟩ := listed
    obtain ⟨row, found, same⟩ := Option.map_eq_some_iff.mp same
    exact ⟨id, row, found, same⟩
  · intro stands
    obtain ⟨id, row, found, same⟩ := stands
    exact ⟨id, List.mem_range.mpr (db.ids id (by simp [found])), by simp [found, same]⟩

/-- The fold takes each group once, wherever it comes. -/
private theorem foldl_record (count : FetchStatus → Int) (order : List FetchStatus) (counts : FrontierCounts) :
    (order.map fun status => (statusText status, some (count status))).foldl FrontierCounts.record counts =
      { discovered := if .discovered ∈ order then count .discovered else counts.discovered
        inProgress := if .inProgress ∈ order then count .inProgress else counts.inProgress
        fetched := if .fetched ∈ order then count .fetched else counts.fetched
        notFound := if .notFound ∈ order then count .notFound else counts.notFound
        failed := if .failed ∈ order then count .failed else counts.failed
        total := counts.total + (order.map count).sum } := by
  induction order generalizing counts with
  | nil => simp
  | cons status rest ih =>
    rw [List.map_cons, List.foldl_cons, ih]
    cases status <;> simp [FrontierCounts.record, statusText, add_assoc]

/-- The counts are those of the rows, whatever the order of the groups. -/
theorem frontierCounts_eq (aggregates : Aggregates db rows) : frontierCounts rows = frontier db := by
  obtain ⟨order, groups, rfl⟩ := aggregates
  have same (status : FetchStatus) : (if status ∈ order then ((statuses db).count status : Int) else 0) =
      (statuses db).count status := by
    split
    · rfl
    · rename_i absent
      rw [groups.mem_iff, List.mem_dedup] at absent
      rw [List.count_eq_zero_of_not_mem absent]
      rfl
  have total : (order.map fun status => ((statuses db).count status : Int)).sum = (statuses db).length := by
    have counted := (groups.map fun status => (statuses db).count status).sum_eq
    rw [List.sum_map_count_dedup_eq_length] at counted
    rw [← counted, Nat.cast_list_sum, List.map_map]
    rfl
  rw [frontierCounts, foldl_record, frontier]
  simp only [same, total, zero_add]

private theorem length_eq_counts (items : List FetchStatus) : items.length =
    items.count .discovered + items.count .inProgress + items.count .fetched + items.count .notFound +
      items.count .failed := by
  induction items with
  | nil => rfl
  | cons status rest ih => cases status <;> simp [ih] <;> omega

/-- Every row has one of the statuses. -/
theorem frontier_total (db : Database) : (frontier db).total =
    (frontier db).discovered + (frontier db).inProgress + (frontier db).fetched + (frontier db).notFound +
      (frontier db).failed := by
  have whole := length_eq_counts (statuses db)
  unfold frontier
  dsimp only
  omega

theorem fetched_le_total (db : Database) : (frontier db).fetched ≤ (frontier db).total :=
  Int.ofNat_le.mpr List.count_le_length

/-- The number of rows, as `f64`. -/
private theorem one_le_total (several : (frontier db).total ≠ 0) : 1 ≤ binary64 (frontier db).total := by
  have counted : 0 ≤ (frontier db).total := Int.natCast_nonneg _
  have positive : 1 ≤ (frontier db).total := by omega
  calc (1 : Rat) = binary64 1 := Rounding.binary64.one.symm
    _ ≤ binary64 (frontier db).total := binary64_mono (by exact_mod_cast positive)

theorem coverage_nonneg (db : Database) : 0 ≤ (frontier db).coverage := by
  have fetched : 0 ≤ (frontier db).fetched := Int.natCast_nonneg _
  unfold FrontierCounts.coverage
  split
  · exact le_refl 0
  · rename_i several
    have part : 0 ≤ binary64 (frontier db).fetched := Rounding.binary64.nonneg (by exact_mod_cast fetched)
    exact Rounding.binary64.nonneg (div_nonneg part (zero_le_one.trans (one_le_total several)))

theorem coverage_le_one (db : Database) : (frontier db).coverage ≤ 1 := by
  unfold FrontierCounts.coverage
  split
  · exact zero_le_one
  · rename_i several
    have part : binary64 (frontier db).fetched ≤ binary64 (frontier db).total :=
      binary64_mono (by exact_mod_cast fetched_le_total db)
    exact Rounding.binary64.le_one (div_le_one_of_le₀ part (zero_le_one.trans (one_le_total several)))

/-- The binary64 number before one. -/
private theorem beforeOne_kept : binary64 (1 - 1 / 2 ^ 53) = 1 - 1 / 2 ^ 53 := by
  have digits : 2 ^ 53 - 1 ≤ 2 ^ 53 := Nat.sub_le _ _
  have normal : (-1074 : Int) ≤ -53 := by decide
  exact binary64_eq_self digits normal (by norm_num)

/-- Where the counts have 53 digits, no quotient below one is rounded to one. -/
private theorem coverage_lt_one (several : (frontier db).total ≠ 0) (digits : (frontier db).total ≤ 2 ^ 53)
    (missing : (frontier db).fetched ≠ (frontier db).total) : (frontier db).coverage < 1 := by
  obtain ⟨fetched, part⟩ : ∃ fetched : Nat, (frontier db).fetched = fetched := ⟨_, rfl⟩
  obtain ⟨total, whole⟩ : ∃ total : Nat, (frontier db).total = total := ⟨_, rfl⟩
  have within := fetched_le_total db
  rw [part, whole] at within missing
  rw [whole] at digits several
  have fewer : fetched + 1 ≤ total := by omega
  have positive : (0 : Rat) < total := Nat.cast_pos.mpr (by omega)
  have bounded : (total : Rat) ≤ 2 ^ 53 := by exact_mod_cast digits
  have quotient : (fetched : Rat) / total ≤ 1 - 1 / 2 ^ 53 := by
    have fewer : (fetched : Rat) + 1 ≤ total := by exact_mod_cast fewer
    have unit : (1 : Rat) / 2 ^ 53 ≤ 1 / total := one_div_le_one_div_of_le positive bounded
    calc (fetched : Rat) / total ≤ (total - 1) / total := by gcongr; linarith
      _ = 1 - 1 / total := by rw [sub_div, div_self positive.ne']
      _ ≤ 1 - 1 / 2 ^ 53 := by linarith
  have exactly : binary64 (fetched : Rat) = fetched ∧ binary64 (total : Rat) = total :=
    ⟨binary64_natCast fetched (by omega), binary64_natCast total (by omega)⟩
  have covered : (frontier db).coverage = binary64 (fetched / total) := by
    unfold FrontierCounts.coverage
    rw [whole, part, if_neg several, Int.cast_natCast, Int.cast_natCast, exactly.1, exactly.2]
  calc (frontier db).coverage = binary64 (fetched / total) := covered
    _ ≤ 1 - 1 / 2 ^ 53 := Rounding.binary64.le_of_le beforeOne_kept quotient
    _ < 1 := by norm_num

/-- The coverage is one when there are rows and all are fetched, and, up to `2 ^ 53` rows, only then. -/
theorem coverage_eq_one_iff (digits : (frontier db).total ≤ 2 ^ 53) : (frontier db).coverage = 1 ↔
    (∃ id row, db.rows id = some row) ∧ ∀ id row, db.rows id = some row → row.columns.status = .fetched := by
  have all : (statuses db).count .fetched = (statuses db).length ↔
      ∀ id row, db.rows id = some row → row.columns.status = .fetched := by
    rw [List.count_eq_length]
    constructor
    · exact fun each id row found => (each _ (mem_statuses.mpr ⟨id, row, found, rfl⟩)).symm
    · intro each status listed
      obtain ⟨id, row, found, rfl⟩ := mem_statuses.mp listed
      exact (each id row found).symm
  have some : (frontier db).total ≠ 0 ↔ ∃ id row, db.rows id = some row := by
    have counted : (frontier db).total = ((statuses db).length : Int) := rfl
    rw [counted, Int.natCast_ne_zero, Nat.ne_zero_iff_zero_lt, List.length_pos_iff_exists_mem]
    constructor
    · intro listed
      obtain ⟨status, listed⟩ := listed
      obtain ⟨id, row, found, _⟩ := mem_statuses.mp listed
      exact ⟨id, row, found⟩
    · intro stands
      obtain ⟨id, row, found⟩ := stands
      exact ⟨_, mem_statuses.mpr ⟨id, row, found, rfl⟩⟩
  have same : (frontier db).fetched = (frontier db).total ↔ (statuses db).count .fetched = (statuses db).length :=
    Int.natCast_inj
  rw [← all, ← some, ← same]
  constructor
  · intro covered
    have several : (frontier db).total ≠ 0 := by
      intro none
      rw [FrontierCounts.coverage, if_pos none] at covered
      cases covered
    refine ⟨several, ?_⟩
    by_contra missing
    exact absurd covered (coverage_lt_one several digits missing).ne
  · rintro ⟨several, all⟩
    have positive : (0 : Rat) < binary64 (frontier db).total := zero_lt_one.trans_le (one_le_total several)
    rw [FrontierCounts.coverage, if_neg several, all, div_self positive.ne']
    exact Rounding.binary64.one

/-- Where rows stay their number does not go down. -/
theorem total_le (persists : Persists before after) : (frontier before).total ≤ (frontier after).total := by
  have kept : (List.range before.nextId).filter (fun id => (before.rows id).isSome) ⊆
      (List.range after.nextId).filter (fun id => (after.rows id).isSome) := by
    intro id member
    obtain ⟨row, found⟩ := Option.isSome_iff_exists.mp (List.mem_filter.mp member).2
    obtain ⟨columns, stands⟩ := persists id row found
    have there : (after.rows id).isSome = true := by rw [stands]; rfl
    exact List.mem_filter.mpr ⟨List.mem_range.mpr (after.ids id there), there⟩
  have fewer := (List.Nodup.filter _ List.nodup_range).subperm kept |>.length_le
  have counted (db : Database) : (statuses db).length =
      ((List.range db.nextId).filter (fun id => (db.rows id).isSome)).length := by
    rw [statuses, List.length_filterMap_eq_countP, List.countP_eq_length_filter]
    simp
  have within : (statuses before).length ≤ (statuses after).length := by rwa [counted, counted]
  exact Int.ofNat_le.mpr within

end Counts

section Daemon

variable {verify : Event → Bool} {anchor : Bytes} {workers : Workers}

/-- The gauges of the frontier are exact: in every run of the daemon, whatever the order in which the groups of
the aggregate come, the counts are those of the rows, which have no other status; the coverage lies between zero
and one, and of at most `2 ^ 53` rows it is one exactly if there are some and all are fetched; the total never goes
down; and where nobody signs two lists and the anchor is a row, a coverage of one of so many rows says that the graph
is complete: everyone linked to the anchor has a row, and it holds exactly that author's list. -/
theorem frontier_gauges_exact (run : Relation.ReflTransGen (DaemonStep verify anchor) ⟨Database.empty, []⟩ workers)
    (groups : List (String × Option Int)) (aggregates : Aggregates workers.shared groups) :
    frontierCounts groups = frontier workers.shared ∧
    (frontierCounts groups).total = (frontierCounts groups).discovered + (frontierCounts groups).inProgress +
      (frontierCounts groups).fetched + (frontierCounts groups).notFound + (frontierCounts groups).failed ∧
    (0 ≤ (frontierCounts groups).coverage ∧ (frontierCounts groups).coverage ≤ 1) ∧
    ((frontierCounts groups).total ≤ 2 ^ 53 → ((frontierCounts groups).coverage = 1 ↔
      (∃ id row, workers.shared.rows id = some row) ∧
        ∀ id row, workers.shared.rows id = some row → row.columns.status = .fetched)) ∧
    (∀ later, Relation.ReflTransGen (DaemonStep verify anchor) workers later → ∀ after, Aggregates later.shared after →
      (frontierCounts groups).total ≤ (frontierCounts after).total) ∧
    (Single verify Kind.contactList → Crawl.Stored workers.shared anchor → (frontierCounts groups).total ≤ 2 ^ 53 →
      (frontierCounts groups).coverage = 1 →
      ∀ key, Linked verify anchor key → ∃ id, workers.shared.keyed id key ∧
        ∀ event, Signed verify Kind.contactList event key → Holds workers.shared id event) := by
  rw [frontierCounts_eq aggregates]
  refine ⟨rfl, frontier_total _, ⟨coverage_nonneg _, coverage_le_one _⟩, coverage_eq_one_iff, ?_, ?_⟩
  · intro later further after counted
    rw [frontierCounts_eq counted]
    exact total_le (rows_persist run further)
  · intro single anchored digits covered
    have fetched := ((coverage_eq_one_iff digits).mp covered).2
    exact charted_of_run single run anchored fun id row _ found _ => fetched id row found

/-- The theorem at two rows, of which one is fetched. -/
theorem frontier_gauges_exact_trail :
    frontierCounts [("fetched", some 1), ("discovered", some 1)] = frontier trailWorkers.shared ∧
    (frontierCounts [("fetched", some 1), ("discovered", some 1)]).coverage ≠ 1 := by
  have both : statuses trailWorkers.shared = [.fetched, .discovered] := by decide
  have aggregates : Aggregates trailWorkers.shared [("fetched", some 1), ("discovered", some 1)] := by
    refine ⟨[.fetched, .discovered], ?_, ?_⟩
    · rw [both]
      exact .refl _
    · rw [both]
      rfl
  obtain ⟨same, _, _, covered, _⟩ := frontier_gauges_exact trail_run _ aggregates
  refine ⟨same, ?_⟩
  intro full
  have found : trailWorkers.shared.rows 3 = some ⟨trailFollowee.bytes, Columns.default⟩ := by decide
  have fetched := ((covered (by decide)).mp full).2 3 _ found
  cases fetched

end Daemon

end WotCrawler.Daemon
