import WotCrawler.Numeric.Rounding
import WotCrawler.Store.Writer

/-! The frontier kept in `pubkeys.status`: seed, claim, the three sweeps and requeue. -/

namespace WotCrawler.Crawl

open Numeric Store

/-- `i64 as f64`, which keeps 53 binary digits. What it makes of a whole number is one. -/
def asF64 (value : Int) : Int := value.sign * roundHalfEven 53 value.natAbs

/-- The cast keeps every number of at most 53 digits. -/
theorem asF64_exact {value : Int} (few : value.natAbs < 2 ^ 53) : asF64 value = value := by
  have same : roundHalfEven 53 value.natAbs = value.natAbs := by
    rw [roundHalfEven_eq_self_iff, gap_eq_one (by decide) few]
    exact one_dvd _
  rw [asF64, same, Int.sign_mul_natAbs]

theorem asF64_natCast (value : Nat) : asF64 value = roundHalfEven 53 value := by
  by_cases zero : value = 0
  · subst zero
    exact asF64_exact (by decide)
  · rw [asF64, Int.natAbs_natCast, Int.sign_natCast_of_ne_zero zero, Int.one_mul]

/-- What is not positive stays so. -/
theorem asF64_nonpos {value : Int} (nonpos : value ≤ 0) : asF64 value ≤ 0 :=
  Int.mul_nonpos_of_nonpos_of_nonneg (Int.sign_nonpos_iff.mpr nonpos) (Int.natCast_nonneg _)

def seedAnchor (anchorPubkey : Bytes) : StoreM Nat := upsertPubkey anchorPubkey

def claimBatch (limit : Int) : StoreM (List ClaimedAuthor) := query (.claim limit)

def reclaimStaleOnStartup : StoreM Nat := query .reclaimInProgress

def reclaimStaleByTtl (ttlSecs : Int) : StoreM Nat := query (.reclaimStale (asF64 ttlSecs))

def reclaimInProgressOlderThan (ageSecs : Int) : StoreM Nat := query (.reclaimExpired (asF64 ageSecs))

def requeueOrFail (id : Nat) (maxAttempts : Int) (now : DateTime) : StoreM Unit :=
  query (.requeueOrFail id maxAttempts now)

end WotCrawler.Crawl
