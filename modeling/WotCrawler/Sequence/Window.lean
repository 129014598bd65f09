import Mathlib

/-! Newest-first windows: the newest `cap` items stamped at or before a bound, with ties at
the oldest kept stamp broken arbitrarily. -/

namespace WotCrawler.Sequence

variable {α τ : Type*} [LinearOrder τ]

/-- The stored items stamped at or before a bound. -/
def upTo (stored : Finset α) (stamp : α → τ) (bound : τ) : Finset α :=
  stored.filter (fun item => stamp item ≤ bound)

/-- The stored items with one stamp. -/
def tied (stored : Finset α) (stamp : α → τ) (moment : τ) : Finset α :=
  stored.filter (fun item => stamp item = moment)

/-- A window of the newest items: no omitted item is strictly newer than a kept one. -/
structure Newest (stored : Finset α) (stamp : α → τ) (cap : Nat) (bound : τ)
    (window : Finset α) : Prop where
  subset : window ⊆ upTo stored stamp bound
  card : window.card = min cap (upTo stored stamp bound).card
  newest : ∀ omitted ∈ upTo stored stamp bound, omitted ∉ window →
    ∀ kept ∈ window, stamp omitted ≤ stamp kept

variable {stored window : Finset α} {stamp : α → τ} {cap : Nat} {bound : τ}

theorem mem_upTo : item ∈ upTo stored stamp bound ↔ item ∈ stored ∧ stamp item ≤ bound := by
  simp [upTo]

theorem mem_tied : item ∈ tied stored stamp bound ↔ item ∈ stored ∧ stamp item = bound := by
  simp [tied]

theorem upTo_upTo (within : moment ≤ bound) :
    upTo (upTo stored stamp bound) stamp moment = upTo stored stamp moment := by
  ext item
  simp only [mem_upTo]
  constructor
  · intro ⟨⟨present, _⟩, early⟩
    exact ⟨present, early⟩
  · intro ⟨present, early⟩
    exact ⟨⟨present, early.trans within⟩, early⟩

/-- A window sees nothing of the items stamped after a later bound. -/
theorem Newest.upTo_bound (valid : Newest stored stamp cap moment window) (within : moment ≤ bound) :
    Newest (upTo stored stamp bound) stamp cap moment window := by
  have same : upTo (upTo stored stamp bound) stamp moment = upTo stored stamp moment := upTo_upTo within
  exact ⟨same ▸ valid.subset, same ▸ valid.card, same ▸ valid.newest⟩

theorem Newest.card_le (valid : Newest stored stamp cap bound window) : window.card ≤ cap :=
  valid.card.trans_le (min_le_left _ _)

/-- A window below the cap holds everything up to its bound. -/
theorem Newest.complete (valid : Newest stored stamp cap bound window) (short : window.card < cap) :
    window = upTo stored stamp bound := by
  apply Finset.eq_of_subset_of_card_le valid.subset
  have size := valid.card
  omega

/-- An item strictly newer than a kept one is kept. -/
theorem Newest.above (valid : Newest stored stamp cap bound window) (kept : item ∈ window)
    (present : newer ∈ upTo stored stamp bound) (later : stamp item < stamp newer) :
    newer ∈ window := by
  by_contra omitted
  exact not_le.mpr later (valid.newest newer present omitted item kept)

/-- A moment strictly inside a window has fewer than `cap` items. -/
theorem Newest.tied_card_lt (valid : Newest stored stamp cap bound window) (kept : item ∈ window)
    (later : stamp item < moment) (within : moment ≤ bound) :
    (tied stored stamp moment).card < cap := by
  have inside : tied stored stamp moment ⊂ window := by
    refine (Finset.ssubset_iff_of_subset ?_).mpr ⟨item, kept, ?_⟩
    · intro other member
      obtain ⟨present, rfl⟩ := mem_tied.mp member
      exact valid.above kept (mem_upTo.mpr ⟨present, within⟩) later
    · intro member
      exact later.ne (mem_tied.mp member).2
  exact (Finset.card_lt_card inside).trans_le valid.card_le

/-- A window that lies within one moment is no larger than that moment. -/
theorem Newest.card_le_tied (valid : Newest stored stamp cap bound window)
    (pinned : ∀ item ∈ window, stamp item = moment) :
    window.card ≤ (tied stored stamp moment).card := by
  apply Finset.card_le_card
  intro item kept
  exact mem_tied.mpr ⟨(mem_upTo.mp (valid.subset kept)).1, pinned item kept⟩

/-- The items at or after a given one, up to the bound. -/
def since (stored : Finset α) (stamp : α → τ) (bound : τ) (item : α) : Finset α :=
  (upTo stored stamp bound).filter (fun other => stamp item ≤ stamp other)

/-- An item with at most `cap` items at or after it is in every window. -/
theorem Newest.mem_of_since_card_le (valid : Newest stored stamp cap bound window)
    (present : item ∈ upTo stored stamp bound) (few : (since stored stamp bound item).card ≤ cap) :
    item ∈ window := by
  by_contra omitted
  have inside : window ⊂ since stored stamp bound item := by
    refine (Finset.ssubset_iff_of_subset ?_).mpr ⟨item, Finset.mem_filter.mpr ⟨present, le_refl _⟩, omitted⟩
    intro kept member
    exact Finset.mem_filter.mpr ⟨valid.subset member, valid.newest item present omitted kept member⟩
  have smaller := Finset.card_lt_card inside
  have short : window.card < cap := smaller.trans_le few
  exact omitted (valid.complete short ▸ present)

/-- The items a window can reach: fewer than `cap` items are strictly newer. -/
def shown (stored : Finset α) (stamp : α → τ) (cap : Nat) (bound : τ) : Finset α :=
  (upTo stored stamp bound).filter (fun item =>
    ((upTo stored stamp bound).filter (fun other => stamp item < stamp other)).card < cap)

theorem Newest.subset_shown (valid : Newest stored stamp cap bound window) :
    window ⊆ shown stored stamp cap bound := by
  intro item kept
  refine Finset.mem_filter.mpr ⟨valid.subset kept, ?_⟩
  have inside : (upTo stored stamp bound).filter (fun other => stamp item < stamp other) ⊂ window := by
    refine (Finset.ssubset_iff_of_subset ?_).mpr ⟨item, kept, by simp⟩
    intro other member
    obtain ⟨present, later⟩ := Finset.mem_filter.mp member
    exact valid.above kept present later
  exact (Finset.card_lt_card inside).trans_le valid.card_le

/-- A window reaches down to the oldest shown moment. -/
theorem Newest.exists_le_of_shown (valid : Newest stored stamp cap bound window)
    (visible : item ∈ shown stored stamp cap bound) : ∃ kept ∈ window, stamp kept ≤ stamp item := by
  obtain ⟨present, few⟩ := Finset.mem_filter.mp visible
  by_cases member : item ∈ window
  · exact ⟨item, member, le_refl _⟩
  · by_contra above
    push Not at above
    have inside : window ⊆ (upTo stored stamp bound).filter (fun other => stamp item < stamp other) :=
      fun kept inWindow => Finset.mem_filter.mpr ⟨valid.subset inWindow, above kept inWindow⟩
    have short : window.card < cap := (Finset.card_le_card inside).trans_lt few
    exact member (valid.complete short ▸ present)

section Existence

variable [DecidableEq α]

/-- Among any items there are newest ones by any rank. -/
theorem exists_greatest {ρ : Type*} [LinearOrder ρ] (items : Finset α) (rank : α → ρ) (cap : Nat) :
    ∃ window ⊆ items, window.card = min cap items.card ∧
      ∀ omitted ∈ items, omitted ∉ window → ∀ kept ∈ window, rank omitted ≤ rank kept := by
  induction cap with
  | zero => exact ⟨∅, by simp, by simp, by simp⟩
  | succ cap ih =>
    obtain ⟨window, subset, card, greatest⟩ := ih
    by_cases rest : (items \ window).Nonempty
    · obtain ⟨next, fresh, maximal⟩ := Finset.exists_max_image (items \ window) rank rest
      obtain ⟨present, absent⟩ := Finset.mem_sdiff.mp fresh
      refine ⟨insert next window, Finset.insert_subset present subset, ?_, ?_⟩
      · have smaller : window.card < items.card :=
          Finset.card_lt_card ((Finset.ssubset_iff_of_subset subset).mpr ⟨next, present, absent⟩)
        rw [Finset.card_insert_of_notMem absent]
        omega
      · intro omitted member outside kept inside
        rw [Finset.mem_insert, not_or] at outside
        rcases Finset.mem_insert.mp inside with rfl | inside
        · exact maximal omitted (Finset.mem_sdiff.mpr ⟨member, outside.2⟩)
        · exact greatest omitted member outside.2 kept inside
    · have whole : items ⊆ window := by
        rw [Finset.not_nonempty_iff_eq_empty, Finset.sdiff_eq_empty_iff_subset] at rest
        exact rest
      have same := Finset.Subset.antisymm subset whole
      subst same
      refine ⟨window, Finset.Subset.refl _, ?_, fun omitted member outside => absurd member outside⟩
      omega

/-- Every bound has a window. -/
theorem exists_newest (stored : Finset α) (stamp : α → τ) (cap : Nat) (bound : τ) :
    ∃ window, Newest stored stamp cap bound window := by
  obtain ⟨window, subset, card, greatest⟩ := exists_greatest (upTo stored stamp bound) stamp cap
  exact ⟨window, subset, card, greatest⟩

/-- An item with more than `cap` items at or after it is missing from some window. -/
theorem exists_newest_without (many : cap < (since stored stamp bound item).card) :
    ∃ window, Newest stored stamp cap bound window ∧ item ∉ window := by
  -- Rank the item last among those of its moment.
  let rank : α → τ ×ₗ Bool := fun other => toLex (stamp other, decide (other ≠ item))
  obtain ⟨window, subset, card, greatest⟩ := exists_greatest (upTo stored stamp bound) rank cap
  refine ⟨window, ⟨subset, card, ?_⟩, ?_⟩
  · intro omitted present absent kept member
    have ranked := greatest omitted present absent kept member
    rcases (Prod.Lex.le_iff).mp ranked with less | ⟨same, _⟩
    · exact le_of_lt less
    · exact le_of_eq same
  · intro kept
    have inside : since stored stamp bound item ⊆ window := by
      intro other member
      obtain ⟨present, later⟩ := Finset.mem_filter.mp member
      by_contra absent
      have apart : other ≠ item := fun same => absent (same ▸ kept)
      have ranked := greatest other present absent item kept
      rcases (Prod.Lex.le_iff).mp ranked with less | ⟨_, bit⟩
      · exact not_le.mpr less later
      · simp only [rank, apart, ne_eq, not_false_eq_true, not_true_eq_false, decide_true, decide_false,
          ofLex_toLex] at bit
        exact absurd bit (by decide)
    have size := Finset.card_le_card inside
    omega

end Existence

end WotCrawler.Sequence
