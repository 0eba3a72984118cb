import RealEstateTracker.Domain.Vocabulary
import RealEstateTracker.Foundation.Rounding
import RealEstateTracker.Foundation.TokenBucket

/-!
# The rate limiter

The limiter holds its lock while it sleeps, so the calls of `acquire` come one
after another.  A call asks the clock once, and once more after it has slept; it
completes when it has asked last.
-/

namespace RealEstateTracker.Scraping

open Foundation Domain

variable {K : Type} [Field K] [LinearOrder K]

structure TokenBucketRateLimiter (K : Type) where
  rate : K
  capacity : K
  tokens : K
  lastRefill : K
  deriving DecidableEq

/-- A call of `acquire`: its first reading of the clock, and the one after a sleep. -/
structure Arrival (K : Type) [Field K] [LinearOrder K] where
  now : K
  sleep : K → K
  sleep_ge : ∀ seconds, 0 < seconds → now + seconds ≤ sleep seconds

namespace TokenBucketRateLimiter

section Code

variable [FloorRing K]

def capacityOf (ratePerSecond : K) (burst : Option Int) : K :=
  ((burst.getD (max 1 (halfEven ratePerSecond)) : Int) : K)

def new (ratePerSecond : K) (burst : Option Int) (now : K) :
    Except PyError (TokenBucketRateLimiter K) :=
  if ratePerSecond ≤ 0 then .error (.valueError "rate_per_second must be positive")
  else .ok ⟨ratePerSecond, capacityOf ratePerSecond burst,
    capacityOf ratePerSecond burst, now⟩

end Code

def refill (limiter : TokenBucketRateLimiter K) (now : K) : TokenBucketRateLimiter K :=
  let elapsed := now - limiter.lastRefill
  { limiter with
    lastRefill := now
    tokens := min limiter.capacity (limiter.tokens + elapsed * limiter.rate) }

def acquire (limiter : TokenBucketRateLimiter K) (arrival : Arrival K) :
    TokenBucketRateLimiter K :=
  let limiter := limiter.refill arrival.now
  let limiter :=
    if limiter.tokens < 1 then
      let waitSeconds := (1 - limiter.tokens) / limiter.rate
      limiter.refill (arrival.sleep waitSeconds)
    else limiter
  { limiter with tokens := limiter.tokens - 1 }

/-- The tokens as they were when the clock was last asked. -/
def view (limiter : TokenBucketRateLimiter K) : Take K :=
  ⟨limiter.lastRefill, limiter.tokens⟩

/-- When each of the calls completes, and the tokens that it leaves. -/
def acquires (limiter : TokenBucketRateLimiter K) : List (Arrival K) → List (Take K)
  | [] => []
  | arrival :: arrivals =>
      (limiter.acquire arrival).view :: (limiter.acquire arrival).acquires arrivals

def NonDecreasing (limiter : TokenBucketRateLimiter K) : List (Arrival K) → Prop
  | [] => True
  | arrival :: arrivals =>
      limiter.lastRefill ≤ arrival.now ∧
        (limiter.acquire arrival).NonDecreasing arrivals

/-! ## One call -/

structure Valid (limiter : TokenBucketRateLimiter K) : Prop where
  rate_pos : 0 < limiter.rate
  one_le_capacity : 1 ≤ limiter.capacity
  tokens_nonneg : 0 ≤ limiter.tokens
  tokens_le : limiter.tokens ≤ limiter.capacity

section Refill

variable {limiter : TokenBucketRateLimiter K} {now later : K}

theorem tokens_refill_le (limiter : TokenBucketRateLimiter K) (now : K) :
    (limiter.refill now).tokens ≤
      limiter.tokens + limiter.rate * (now - limiter.lastRefill) := by
  rw [mul_comm]
  exact min_le_right _ _

variable [IsStrictOrderedRing K]

theorem tokens_refill_refill_le (limiter : TokenBucketRateLimiter K) (now later : K) :
    ((limiter.refill now).refill later).tokens ≤
      limiter.tokens + limiter.rate * (later - limiter.lastRefill) := by
  calc ((limiter.refill now).refill later).tokens
      ≤ (limiter.refill now).tokens + limiter.rate * (later - now) :=
        tokens_refill_le _ _
    _ ≤ limiter.tokens + limiter.rate * (now - limiter.lastRefill) +
          limiter.rate * (later - now) :=
        add_le_add_left (tokens_refill_le _ _) _
    _ = limiter.tokens + limiter.rate * (later - limiter.lastRefill) := by ring

theorem Valid.refill (h : limiter.Valid) (hnow : limiter.lastRefill ≤ now) :
    (limiter.refill now).Valid := by
  have hcapacity : 0 ≤ limiter.capacity := zero_le_one.trans h.one_le_capacity
  have hflow : 0 ≤ (now - limiter.lastRefill) * limiter.rate :=
    mul_nonneg (sub_nonneg.mpr hnow) h.rate_pos.le
  exact ⟨h.rate_pos, h.one_le_capacity,
    le_min hcapacity (add_nonneg h.tokens_nonneg hflow), min_le_left _ _⟩

/-- A sleep that lasts as long as it should brings what was missing of a token. -/
theorem Valid.one_le_tokens (h : limiter.Valid)
    (hnow : limiter.lastRefill + (1 - limiter.tokens) / limiter.rate ≤ now) :
    1 ≤ (limiter.refill now).tokens := by
  refine le_min h.one_le_capacity ?_
  have hflow : 1 - limiter.tokens ≤ (now - limiter.lastRefill) * limiter.rate := by
    rw [← div_le_iff₀ h.rate_pos]
    linarith
  linarith

end Refill

section Acquire

variable [IsStrictOrderedRing K]

structure Acquired (limiter next : TokenBucketRateLimiter K) : Prop where
  rate : next.rate = limiter.rate
  capacity : next.capacity = limiter.capacity
  fits : next.view.Fits limiter.capacity
  precedes : limiter.view.Precedes limiter.rate next.view

theorem Acquired.valid {limiter next : TokenBucketRateLimiter K} (h : limiter.Valid)
    (hnext : limiter.Acquired next) : next.Valid where
  rate_pos := hnext.rate ▸ h.rate_pos
  one_le_capacity := hnext.capacity ▸ h.one_le_capacity
  tokens_nonneg := hnext.fits.level_nonneg
  tokens_le := by
    rw [hnext.capacity]
    exact (le_add_of_nonneg_right zero_le_one).trans hnext.fits.level_le

theorem Valid.acquire {limiter : TokenBucketRateLimiter K} {arrival : Arrival K}
    (h : limiter.Valid) (hnow : limiter.lastRefill ≤ arrival.now) :
    limiter.Acquired (limiter.acquire arrival) := by
  have hfirst := h.refill hnow
  unfold TokenBucketRateLimiter.acquire
  dsimp only
  split
  · next hless =>
    -- the sleep ends late enough for a whole token
    have hwait : 0 < (1 - (limiter.refill arrival.now).tokens) / limiter.rate :=
      div_pos (sub_pos.mpr hless) h.rate_pos
    have hwoken := arrival.sleep_ge _ hwait
    have hsecond := hfirst.refill (hwoken.trans' (le_add_of_nonneg_right hwait.le))
    have hone := hfirst.one_le_tokens hwoken
    refine ⟨rfl, rfl, ⟨sub_nonneg.mpr hone, ?_⟩, ?_⟩
    · exact (sub_add_cancel _ _).trans_le hsecond.tokens_le
    · exact (sub_add_cancel _ _).trans_le (tokens_refill_refill_le _ _ _)
  · next henough =>
    refine ⟨rfl, rfl, ⟨sub_nonneg.mpr (not_lt.mp henough), ?_⟩, ?_⟩
    · exact (sub_add_cancel _ _).trans_le hfirst.tokens_le
    · exact (sub_add_cancel _ _).trans_le (tokens_refill_le _ _)

end Acquire

/-! ## Runs -/

section Runs

variable [IsStrictOrderedRing K] {limiter : TokenBucketRateLimiter K}
  {arrivals : List (Arrival K)}

theorem Valid.isChain_acquires (h : limiter.Valid) (hclock : limiter.NonDecreasing arrivals) :
    (limiter.view :: limiter.acquires arrivals).IsChain (Take.Precedes limiter.rate) := by
  induction arrivals generalizing limiter with
  | nil => exact .singleton _
  | cons arrival arrivals ih =>
      obtain ⟨hnow, hclock⟩ := hclock
      have hnext := h.acquire hnow
      have hrest := ih (hnext.valid h) hclock
      rw [hnext.rate] at hrest
      exact .cons_cons hnext.precedes hrest

theorem Valid.fits_acquires (h : limiter.Valid) (hclock : limiter.NonDecreasing arrivals) :
    ∀ take ∈ limiter.acquires arrivals, take.Fits limiter.capacity := by
  induction arrivals generalizing limiter with
  | nil => exact List.forall_mem_nil _
  | cons arrival arrivals ih =>
      obtain ⟨hnow, hclock⟩ := hclock
      have hnext := h.acquire hnow
      have hrest := ih (hnext.valid h) hclock
      rw [hnext.capacity] at hrest
      exact List.forall_mem_cons.mpr ⟨hnext.fits, hrest⟩

variable [FloorRing K] {ratePerSecond createdAt : K} {burst : Option Int}

theorem one_le_capacityOf (hburst : ∀ n ∈ burst, 1 ≤ n) :
    1 ≤ capacityOf ratePerSecond burst := by
  unfold capacityOf
  cases burst with
  | none => exact_mod_cast le_max_left (1 : Int) (halfEven ratePerSecond)
  | some n => exact_mod_cast hburst n rfl

theorem valid_new (hburst : ∀ n ∈ burst, 1 ≤ n)
    (hnew : new ratePerSecond burst createdAt = .ok limiter) :
    limiter.Valid ∧ limiter.rate = ratePerSecond ∧
      limiter.capacity = capacityOf ratePerSecond burst := by
  have hcapacity : 1 ≤ capacityOf ratePerSecond burst := one_le_capacityOf hburst
  unfold new at hnew
  split at hnew
  · cases hnew
  · next hrate =>
    obtain rfl := Except.ok.inj hnew
    exact ⟨⟨not_le.mp hrate, hcapacity, zero_le_one.trans hcapacity, le_rfl⟩, rfl, rfl⟩

/--
Whatever the calls, each of them leaves between no token and a full bucket, and
in no window of time do more of them complete than a full bucket and what the
rate allows while the window lasts.
-/
theorem rate_limit_holds (hburst : ∀ n ∈ burst, 1 ≤ n)
    (hnew : new ratePerSecond burst createdAt = .ok limiter)
    (hclock : limiter.NonDecreasing arrivals) :
    (∀ take ∈ limiter.acquires arrivals,
      0 ≤ take.level ∧ take.level ≤ capacityOf ratePerSecond burst) ∧
    ∀ s t, s ≤ t → ((limiter.acquires arrivals).countP (Take.Within s t) : K) ≤
      capacityOf ratePerSecond burst + ratePerSecond * (t - s) := by
  obtain ⟨hvalid, rfl, hcapacity⟩ := valid_new hburst hnew
  rw [← hcapacity]
  have hfits := hvalid.fits_acquires hclock
  constructor
  · intro take htake
    have hlevel := (hfits take htake).level_le
    exact ⟨(hfits take htake).level_nonneg,
      (le_add_of_nonneg_right zero_le_one).trans hlevel⟩
  · intro s t hst
    exact Take.countP_within_le hvalid.rate_pos.le
      (zero_le_one.trans hvalid.one_le_capacity) (hvalid.isChain_acquires hclock).tail
      hfits hst

end Runs

def promptArrival (now : ℚ) : Arrival ℚ :=
  ⟨now, fun seconds => now + seconds, fun _ _ => le_rfl⟩

/-- The second call sleeps for half a second, and the third comes after a pause. -/
def promptArrivals : List (Arrival ℚ) :=
  [promptArrival 0, promptArrival 0, promptArrival 3]

theorem rate_limit_holds_promptArrivals :
    let limiter : TokenBucketRateLimiter ℚ := ⟨2, 1, 1, 0⟩
    (∀ take ∈ limiter.acquires promptArrivals, 0 ≤ take.level ∧ take.level ≤ 1) ∧
      ((limiter.acquires promptArrivals).countP (Take.Within (0 : ℚ) (1 / 2)) : ℚ) ≤
        1 + 2 * (1 / 2 - 0) := by
  have hcapacity : capacityOf (2 : ℚ) (some 1) = 1 := by simp [capacityOf]
  have hnew : new (2 : ℚ) (some 1) 0 = .ok ⟨2, 1, 1, 0⟩ := by simp [new, hcapacity]
  have hclock : NonDecreasing ⟨2, 1, 1, 0⟩ promptArrivals := by
    norm_num [NonDecreasing, promptArrivals, promptArrival, acquire, refill]
  have hlimit := rate_limit_holds (by simp) hnew hclock
  rw [hcapacity] at hlimit
  exact ⟨hlimit.1, hlimit.2 0 (1 / 2) (by norm_num)⟩

end TokenBucketRateLimiter

end RealEstateTracker.Scraping
