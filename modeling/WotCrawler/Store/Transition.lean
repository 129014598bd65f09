import WotCrawler.Store.Frame

/-! Everything a statement can do to a row, as one relation between its columns before and after. -/

namespace WotCrawler.Store

open Ingest

/-- The rows a sweep resets. -/
def Stmt.resets (now : DateTime) : Stmt → Columns → Bool
  | .reclaimInProgress, columns => columns.isInProgress
  | .reclaimStale ttlSecs, columns => columns.isStale now ttlSecs
  | .reclaimExpired ageSecs, columns => columns.isExpired now ageSecs
  | _, _ => false

/-- What a statement may make of the columns of a row. -/
inductive Moves (now : DateTime) : Stmt → Nat → Columns → Columns → Prop where
  | stay : Moves now stmt target columns columns
  | confirm : Moves now (.confirmFetched target) target columns (columns.confirm now)
  | apply : Moves now (.applyDiff target removed added eventId createdAt changed) target columns
      (columns.apply now eventId createdAt changed)
  | stamp : Moves now (.updateStatus target status ts) target columns (columns.setStatus status ts)
  | claim (discovered : columns.status = .discovered) :
      Moves now (.claim limit) target columns (columns.claim now)
  | reclaim (selected : stmt.resets now columns = true) : Moves now stmt target columns columns.reclaim
  | requeue (few : columns.fetchAttempts + 1 ≤ 32767) :
      Moves now (.requeueOrFail target maxAttempts ts) target columns (columns.requeue maxAttempts ts)

variable {id : Nat} {kept : PubkeyRow} {before after : Database}

/-- A row after a statement: new and by default, or an old one whose columns moved. -/
def Evolves (now : DateTime) (stmt : Stmt) (before : Database) (id : Nat) (kept : PubkeyRow) : Prop :=
  (before.rows id = none ∧ stmt = .upsertPubkey kept.pubkey ∧ kept.columns = Columns.default) ∨
    ∃ row, before.rows id = some row ∧ kept.pubkey = row.pubkey ∧
      Moves now stmt id row.columns kept.columns

private theorem evolves_same (now : DateTime) (stmt : Stmt) (found : before.rows id = some kept) :
    Evolves now stmt before id kept := .inr ⟨kept, found, rfl, .stay⟩

private theorem evolves_update {stmt : Stmt} {set : Nat → Columns → Columns}
    (moves : ∀ row, before.rows id = some row → Moves now stmt id row.columns (set id row.columns))
    (found : (before.update set).rows id = some kept) : Evolves now stmt before id kept := by
  obtain ⟨row, present, rfl⟩ := Option.map_eq_some_iff.mp found
  exact .inr ⟨row, present, rfl, moves row present⟩

private theorem evolves_updateRow {stmt : Stmt} {set : Columns → Columns}
    (moves : ∀ row, before.rows target = some row → Moves now stmt target row.columns (set row.columns))
    (found : (before.updateRow target set).rows id = some kept) : Evolves now stmt before id kept := by
  apply evolves_update _ found
  intro row present
  by_cases same : id = target
  · subst same
    rw [if_pos rfl]
    exact moves row present
  · rw [if_neg same]
    exact .stay

private theorem evolves_sweep {stmt : Stmt}
    (found : (before.sweep (stmt.resets now)).rows id = some kept) : Evolves now stmt before id kept := by
  apply evolves_update _ found
  intro row present
  cases selected : stmt.resets now row.columns with
  | true => exact .reclaim selected
  | false => exact .stay

private theorem evolves_commits {change : Except StoreError Database}
    (commits : Commits change before reply after)
    (changed : ∀ next, change = .ok next → next.rows id = some kept → Evolves now stmt before id kept)
    (found : after.rows id = some kept) : Evolves now stmt before id kept := by
  unfold Commits at commits
  split at commits
  · rename_i next
    rw [commits.2] at found
    exact changed next rfl found
  · rw [commits.2] at found
    exact evolves_same now stmt found

/-- Every row a statement leaves evolved from one before, or is new. -/
theorem Stmt.Executes.evolves {stmt : Stmt} {locked : Finset Nat} {reply : Except StoreError stmt.Ret}
    (executes : stmt.Executes now locked before reply after) (found : after.rows id = some kept) :
    Evolves now stmt before id kept := by
  cases stmt with
  | selectAppliedEvent target => exact evolves_same now _ (executes.1 ▸ found)
  | selectFollowees follower => exact evolves_same now _ (executes.1 ▸ found)
  | selectWriteRelays pubkeyId => exact evolves_same now _ (executes.1 ▸ found)
  | confirmFetched target =>
    rw [executes.2] at found
    exact evolves_updateRow (fun _ _ => .confirm) found
  | updateStatus target status ts =>
    rw [executes.2] at found
    exact evolves_updateRow (fun _ _ => .stamp) found
  | upsertPubkey key =>
    cases present : before.rows id with
    | none =>
      obtain ⟨rfl, fresh⟩ : key = kept.pubkey ∧ kept.columns = Columns.default := by
        obtain ⟨same, fresh⟩ := executes.framed.fresh id kept present found
        exact ⟨Stmt.upsertPubkey.inj same, fresh⟩
      exact .inl ⟨present, rfl, fresh⟩
    | some row =>
      have same := executes.framed.columns rfl id row present (fun other => by cases other)
      obtain rfl := Option.some.inj (same.symm.trans found)
      exact evolves_same now _ present
  | applyDiff follower removed added eventId createdAt changed =>
    apply evolves_commits executes _ found
    intro next done there
    rw [(Database.applyDiff_spec done).1] at there
    exact evolves_updateRow (fun _ _ => .apply) there
  | replaceRelays pubkeyId relays seenAt =>
    apply evolves_commits executes _ found
    intro next done there
    have same : next.rows = before.rows := by
      unfold Database.replaceRelays at done
      dsimp only at done
      split at done
      · obtain rfl := Except.ok.inj done
        rfl
      · cases done
    exact evolves_same now _ (same ▸ there)
  | claim limit =>
    simp only [Stmt.Executes] at executes
    split at executes
    · rw [executes.2] at found
      exact evolves_same now _ found
    · obtain ⟨_, _, _, _, rfl⟩ := executes
      apply evolves_update _ found
      intro row present
      by_cases member : id ∈ before.claimable locked limit.toNat
      · rw [if_pos member]
        obtain ⟨_, other, there, discovered⟩ := Database.mem_claimable member
        obtain rfl := Option.some.inj (present.symm.trans there)
        exact .claim discovered
      · rw [if_neg member]
        exact .stay
  | reclaimInProgress =>
    rw [executes.2] at found
    exact evolves_sweep found
  | reclaimStale ttlSecs =>
    rw [executes.2] at found
    exact evolves_sweep found
  | reclaimExpired ageSecs =>
    rw [executes.2] at found
    exact evolves_sweep found
  | requeueOrFail target maxAttempts ts =>
    simp only [Stmt.Executes] at executes
    split at executes
    · rw [executes.2] at found
      exact evolves_same now _ found
    · rename_i within
      rw [executes.2] at found
      apply evolves_updateRow _ found
      intro row present
      have few : ¬ row.columns.fetchAttempts + 1 > 32767 := by simpa [present] using within
      exact .requeue (by omega)

/-- A statement that writes edges records its event, unless it changes nothing. -/
theorem Stmt.Executes.edits_applied {stmt : Stmt} {locked : Finset Nat}
    {reply : Except StoreError stmt.Ret} (executes : stmt.Executes now locked before reply after)
    (edits : stmt.edits = some id) (found : after.rows id = some kept) :
    after = before ∨ kept.columns.appliedEventId ≠ none := by
  cases stmt with
  | applyDiff follower removed added eventId createdAt changed =>
    obtain rfl := Option.some.inj edits
    simp only [Stmt.Executes, Commits] at executes
    split at executes
    · rename_i next done
      obtain ⟨_, rfl⟩ := executes
      rw [(Database.applyDiff_spec done).1, Database.updateRow_rows_self] at found
      obtain ⟨row, _, rfl⟩ := Option.map_eq_some_iff.mp found
      exact .inr (by simp [Columns.apply])
    · exact .inl executes.2
  | _ => cases edits

end WotCrawler.Store
