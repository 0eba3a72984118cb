import RealEstateTracker.Domain.Ports
import RealEstateTracker.Foundation.Outcome
import RealEstateTracker.Scraping.CircuitBreaker

/-!
# The base scraper

Building the URL and requesting the page are guarded: whatever they raise is
recorded as a failure and comes out as a `ScraperError`.  The page is parsed
after a success has been recorded, and outside of the guard.
-/

namespace RealEstateTracker.Scraping

open Foundation Domain

/-- An exception on the way to a page: its text, and whether it is an `httpx.HTTPError`. -/
structure FetchError where
  text : String
  isHttpError : Bool
  deriving DecidableEq, Repr

/--
A call of `fetch` with all that it meets: the subclass, the client in each of
its attempts, and the clock when the breaker is asked and when it is told.
-/
structure Visit (T : Type) where
  query : PortalQuery
  allowedAt : T
  buildUrl : PortalQuery → Except FetchError String
  fetchOnce : String → Nat → Except FetchError String
  recordedAt : T
  parse : String → PortalQuery → Except PyError (List RawListing)

/--
`Retrying`: an `httpx` error is tried again while there are retries left, and
the last error is raised.  The second component counts the attempts.
-/
def retrying (fetchOnce : Nat → Except FetchError String) :
    Nat → Nat → Except FetchError String × Nat
  | 0, attempt => (fetchOnce attempt, attempt)
  | retries + 1, attempt =>
      match fetchOnce attempt with
      | .ok html => (.ok html, attempt)
      | .error error =>
          if error.isHttpError then retrying fetchOnce retries (attempt + 1)
          else (.error error, attempt)

/-- How a call of `fetch` ends, its calls of the breaker and the requests it sends. -/
structure Fetched (T : Type) where
  result : Except PyError (List RawListing)
  calls : List (TimedCall T)
  requests : Nat

structure BaseScraper (T : Type) [AddCommGroup T] [LinearOrder T] where
  portalSlug : String
  circuitBreaker : CircuitBreaker T
  maxAttempts : Int

namespace BaseScraper

section Scrapers

variable {T : Type} [AddCommGroup T] [LinearOrder T]

/-- `stop_after_attempt` lets the first attempt be made whatever the number is. -/
def get (scraper : BaseScraper T) (visit : Visit T) : Except FetchError String × Nat :=
  match visit.buildUrl visit.query with
  | .error error => (.error error, 0)
  | .ok url => retrying (visit.fetchOnce url) (scraper.maxAttempts - 1).toNat 1

variable [PythonRuntime]

def circuitOpen (scraper : BaseScraper T) : PyError :=
  .scraperError ("circuit open for portal " ++ pyRepr scraper.portalSlug)

def fetchFailed (scraper : BaseScraper T) (error : FetchError) : PyError :=
  .scraperError ("fetch failed for portal " ++ pyRepr scraper.portalSlug ++ ": " ++
    error.text)

def fetch (scraper : BaseScraper T) (visit : Visit T) : Fetched T × BaseScraper T :=
  let asked : TimedCall T := ⟨.allow, visit.allowedAt⟩
  let (allowed, breaker) := scraper.circuitBreaker.allow visit.allowedAt
  let (page, requests) := scraper.get visit
  if allowed then
    match page with
    | .error error =>
        (⟨.error (scraper.fetchFailed error),
            [asked, ⟨.recordFailure, visit.recordedAt⟩], requests⟩,
          { scraper with circuitBreaker := breaker.recordFailure visit.recordedAt })
    | .ok html =>
        (⟨visit.parse html visit.query,
            [asked, ⟨.recordSuccess, visit.recordedAt⟩], requests⟩,
          { scraper with circuitBreaker := breaker.recordSuccess })
  else
    (⟨.error scraper.circuitOpen, [asked], 0⟩,
      { scraper with circuitBreaker := breaker })

/-! ## One fetch -/

def LetsThrough (scraper : BaseScraper T) (visit : Visit T) : Prop :=
  (scraper.circuitBreaker.allow visit.allowedAt).1 = true

instance (scraper : BaseScraper T) (visit : Visit T) :
    Decidable (scraper.LetsThrough visit) :=
  inferInstanceAs (Decidable (_ = true))

def ParseFails (scraper : BaseScraper T) (visit : Visit T) : Prop :=
  scraper.LetsThrough visit ∧ ∃ html, (scraper.get visit).1 = .ok html ∧
    Raises (visit.parse html visit.query)

/-- A success for listings, and a failure for a `ScraperError`. -/
def ReportsOutcome (fetched : Fetched T) : Prop :=
  (∃ listings, fetched.result = .ok listings ∧ reports fetched.calls = [.success]) ∨
    ∃ message failedAt, fetched.result = .error (.scraperError message) ∧
      reports fetched.calls = [.failure failedAt]

def outcome (scraper : BaseScraper T) (visit : Visit T) : Option (Report T) :=
  if scraper.LetsThrough visit then
    match (scraper.fetch visit).1.result with
    | .ok _ => some .success
    | .error _ => some (.failure visit.recordedAt)
  else none

section Fetches

variable {scraper : BaseScraper T} {visit : Visit T}

theorem fetch_blocked (h : ¬scraper.LetsThrough visit) :
    (scraper.fetch visit).1 =
      ⟨.error scraper.circuitOpen, [⟨.allow, visit.allowedAt⟩], 0⟩ := by
  unfold LetsThrough at h
  simp [fetch, h]

theorem fetch_failed (h : scraper.LetsThrough visit) {error : FetchError}
    (hget : (scraper.get visit).1 = .error error) :
    (scraper.fetch visit).1 =
      ⟨.error (scraper.fetchFailed error),
        [⟨.allow, visit.allowedAt⟩, ⟨.recordFailure, visit.recordedAt⟩],
        (scraper.get visit).2⟩ := by
  unfold LetsThrough at h
  simp [fetch, h, hget]

theorem fetch_returned (h : scraper.LetsThrough visit) {html : String}
    (hget : (scraper.get visit).1 = .ok html) :
    (scraper.fetch visit).1 =
      ⟨visit.parse html visit.query,
        [⟨.allow, visit.allowedAt⟩, ⟨.recordSuccess, visit.recordedAt⟩],
        (scraper.get visit).2⟩ := by
  unfold LetsThrough at h
  simp [fetch, h, hget]

theorem circuitBreaker_fetch (scraper : BaseScraper T) (visit : Visit T) :
    (scraper.fetch visit).2.circuitBreaker =
      scraper.circuitBreaker.after (scraper.fetch visit).1.calls := by
  by_cases h : scraper.LetsThrough visit
  · cases hget : (scraper.get visit).1 with
    | error error =>
        rw [fetch_failed h hget]
        unfold LetsThrough at h
        simp [fetch, h, hget, CircuitBreaker.step]
    | ok html =>
        rw [fetch_returned h hget]
        unfold LetsThrough at h
        simp [fetch, h, hget, CircuitBreaker.step]
  · rw [fetch_blocked h]
    unfold LetsThrough at h
    simp [fetch, h, CircuitBreaker.step]

omit [PythonRuntime] in
theorem parseFails_iff (h : scraper.LetsThrough visit) {html : String}
    (hget : (scraper.get visit).1 = .ok html) :
    scraper.ParseFails visit ↔ Raises (visit.parse html visit.query) := by
  simp [ParseFails, h, hget]

omit [PythonRuntime] in
theorem not_parseFails {error : FetchError} (hget : (scraper.get visit).1 = .error error) :
    ¬scraper.ParseFails visit := by
  simp [ParseFails, hget]

theorem reportsOutcome_iff (h : scraper.LetsThrough visit) :
    ReportsOutcome (scraper.fetch visit).1 ↔ ¬scraper.ParseFails visit := by
  cases hget : (scraper.get visit).1 with
  | error error =>
      refine iff_of_true (.inr ?_) (not_parseFails hget)
      rw [fetch_failed h hget]
      exact ⟨_, _, rfl, rfl⟩
  | ok html =>
      rw [parseFails_iff h hget, not_raises_iff, fetch_returned h hget]
      constructor
      · rintro (⟨listings, hparse, -⟩ | ⟨message, failedAt, -, hreport⟩)
        · exact ⟨listings, hparse⟩
        · cases hreport
      · rintro ⟨listings, hparse⟩
        exact .inl ⟨listings, hparse, rfl⟩

theorem reports_fetch (h : ¬scraper.ParseFails visit) :
    reports (scraper.fetch visit).1.calls = (scraper.outcome visit).toList := by
  unfold outcome
  by_cases hallowed : scraper.LetsThrough visit
  · rw [if_pos hallowed]
    cases hget : (scraper.get visit).1 with
    | error error =>
        rw [fetch_failed hallowed hget]
        rfl
    | ok html =>
        rw [parseFails_iff hallowed hget, not_raises_iff] at h
        obtain ⟨listings, hparse⟩ := h
        rw [fetch_returned hallowed hget, hparse]
        rfl
  · rw [if_neg hallowed, fetch_blocked hallowed]
    rfl

end Fetches

/-! ## Sequences of fetches -/

def after (scraper : BaseScraper T) (visits : List (Visit T)) : BaseScraper T :=
  visits.foldl (fun scraper visit => (scraper.fetch visit).2) scraper

def outcomes (scraper : BaseScraper T) : List (Visit T) → List (Report T)
  | [] => []
  | visit :: visits =>
      (scraper.outcome visit).toList ++ (scraper.fetch visit).2.outcomes visits

def breakerCalls (scraper : BaseScraper T) : List (Visit T) → List (TimedCall T)
  | [] => []
  | visit :: visits =>
      (scraper.fetch visit).1.calls ++ (scraper.fetch visit).2.breakerCalls visits

def NonDecreasing (visits : List (Visit T)) : Prop :=
  (visits.flatMap fun visit => [visit.allowedAt, visit.recordedAt]).Pairwise (· ≤ ·)

/--
A fetch reports what comes of it, and after `threshold` failing fetches in a row
none sends a request until the cooldown has passed since the last of them.
-/
structure TrueOutcomes (scraper : BaseScraper T) (visits : List (Visit T)) : Prop where
  reported : ∀ before visit rest, visits = before ++ visit :: rest →
    (scraper.after before).LetsThrough visit →
      ReportsOutcome ((scraper.after before).fetch visit).1
  paused : ∀ before visit rest, visits = before ++ visit :: rest →
    scraper.circuitBreaker.threshold ≤ (streak (scraper.outcomes before)).length →
      ∀ failedAt ∈ (streak (scraper.outcomes before)).getLast?,
        visit.allowedAt - failedAt < scraper.circuitBreaker.cooldown →
          ((scraper.after before).fetch visit).1.requests = 0

section Sequences

variable {scraper : BaseScraper T} {visits : List (Visit T)}

theorem circuitBreaker_after (scraper : BaseScraper T) (visits : List (Visit T)) :
    (scraper.after visits).circuitBreaker =
      scraper.circuitBreaker.after (scraper.breakerCalls visits) := by
  induction visits generalizing scraper with
  | nil => rfl
  | cons visit visits ih =>
      rw [breakerCalls, CircuitBreaker.after_append, ← circuitBreaker_fetch]
      exact ih _

theorem reports_breakerCalls
    (h : ∀ before visit rest, visits = before ++ visit :: rest →
      ¬(scraper.after before).ParseFails visit) :
    reports (scraper.breakerCalls visits) = scraper.outcomes visits := by
  induction visits generalizing scraper with
  | nil => rfl
  | cons visit visits ih =>
      have hfirst : ¬scraper.ParseFails visit := h [] visit visits rfl
      rw [breakerCalls, outcomes, ← reports_fetch hfirst, ← ih fun before later rest heq =>
        h (visit :: before) later rest (by rw [heq]; rfl)]
      exact List.filterMap_append

/-- A blocked fetch does not ask the clock a second time. -/
theorem times_breakerCalls (scraper : BaseScraper T) (visits : List (Visit T)) :
    ((scraper.breakerCalls visits).map TimedCall.now).Sublist
      (visits.flatMap fun visit => [visit.allowedAt, visit.recordedAt]) := by
  induction visits generalizing scraper with
  | nil => exact .slnil
  | cons visit visits ih =>
      rw [breakerCalls, List.map_append, List.flatMap_cons]
      refine .append ?_ (ih _)
      by_cases h : scraper.LetsThrough visit
      · cases hget : (scraper.get visit).1 with
        | error error => rw [fetch_failed h hget]; exact .refl _
        | ok html => rw [fetch_returned h hget]; exact .refl _
      · rw [fetch_blocked h]
        exact .cons_cons _ (.cons _ .slnil)

theorem pairwise_breakerCalls (scraper : BaseScraper T) (hclock : NonDecreasing visits) :
    CircuitBreaker.NonDecreasing (scraper.breakerCalls visits) :=
  List.pairwise_map.mp (hclock.sublist (times_breakerCalls scraper visits))

theorem le_of_mem_breakerCalls {before rest : List (Visit T)} {visit : Visit T}
    (hclock : NonDecreasing (before ++ visit :: rest)) {timed : TimedCall T}
    (htimed : timed ∈ scraper.breakerCalls before) : timed.now ≤ visit.allowedAt := by
  unfold NonDecreasing at hclock
  rw [List.flatMap_append] at hclock
  refine (List.pairwise_append.mp hclock).2.2 _ ?_ _ (.head _)
  exact (times_breakerCalls scraper before).subset (List.mem_map_of_mem htimed)

variable [IsOrderedAddMonoid T] {failureThreshold : Int} {cooldownSeconds : T}

theorem blocked_of_streak
    (hnew : CircuitBreaker.new failureThreshold cooldownSeconds = .ok scraper.circuitBreaker)
    {before rest : List (Visit T)} {visit : Visit T}
    (hclock : NonDecreasing (before ++ visit :: rest))
    (hparses : ∀ first later others, before = first ++ later :: others →
      ¬(scraper.after first).ParseFails later)
    (hstreak : scraper.circuitBreaker.threshold ≤
      (streak (scraper.outcomes before)).length)
    {failedAt : T} (hlast : failedAt ∈ (streak (scraper.outcomes before)).getLast?)
    (hearly : visit.allowedAt - failedAt < scraper.circuitBreaker.cooldown) :
    ¬(scraper.after before).LetsThrough visit := by
  have hbefore : NonDecreasing before := by
    unfold NonDecreasing at hclock ⊢
    rw [List.flatMap_append] at hclock
    exact (List.pairwise_append.mp hclock).1
  have htracks := CircuitBreaker.Tracks.after (CircuitBreaker.tracks_new hnew)
    (pairwise_breakerCalls scraper hbefore)
    fun timed htimed => le_of_mem_breakerCalls hclock htimed
  rw [reports_breakerCalls hparses] at htracks
  rw [LetsThrough, circuitBreaker_after, htracks.refuses (by simpa using hstreak) hlast
    (by simpa using hearly)]
  exact Bool.false_ne_true

/--
Fetches report what comes of them, and failing ones pause the portal, exactly
when no page that was fetched fails to parse.
-/
theorem reports_true_outcomes_iff
    (hnew : CircuitBreaker.new failureThreshold cooldownSeconds = .ok scraper.circuitBreaker)
    (hclock : NonDecreasing visits) :
    scraper.TrueOutcomes visits ↔
      ∀ before visit rest, visits = before ++ visit :: rest →
        ¬(scraper.after before).ParseFails visit := by
  constructor
  · intro h before visit rest heq hfails
    exact (reportsOutcome_iff hfails.1).mp (h.reported before visit rest heq hfails.1) hfails
  · refine fun h => ⟨fun before visit rest heq hallowed => ?_, ?_⟩
    · exact (reportsOutcome_iff hallowed).mpr (h before visit rest heq)
    · rintro before visit rest rfl hstreak failedAt hlast hearly
      rw [fetch_blocked (blocked_of_streak hnew hclock
        (fun first later others heq => h first later (others ++ visit :: rest)
          (by rw [heq, List.append_assoc]; rfl)) hstreak hlast hearly)]

end Sequences

end Scrapers

/-! ## A new layout -/

/-- A scraper whose breaker opens at the first failure, for a minute. -/
def strictScraper : BaseScraper Int :=
  ⟨"idealista", ⟨1, 60, .closed, 0, none, CircuitBreaker.threshold_one, by decide⟩, 3⟩

/-- The page comes at once, and the parser does not understand it. -/
def newLayout (now : Int) : Visit Int where
  query := ⟨"idealista", .empty⟩
  allowedAt := now
  buildUrl _ := .ok "https://www.idealista.com/venta-viviendas/"
  fetchOnce _ _ := .ok "<html></html>"
  recordedAt := now
  parse _ _ := .error (.valueError "no price on the card")

/-- The failing fetch is recorded as a success, so the next one sends a request. -/
theorem new_layout_is_recorded_as_success :
    CircuitBreaker.new 1 60 = .ok strictScraper.circuitBreaker ∧
      NonDecreasing [newLayout 0, newLayout 1] ∧
      (@fetch _ _ _ .plain strictScraper (newLayout 0)).1.result =
        .error (.valueError "no price on the card") ∧
      reports (@fetch _ _ _ .plain strictScraper (newLayout 0)).1.calls = [.success] ∧
      (@fetch _ _ _ .plain (@after _ _ _ .plain strictScraper [newLayout 0])
        (newLayout 1)).1.requests = 1 ∧
      ¬@TrueOutcomes _ _ _ .plain strictScraper [newLayout 0, newLayout 1] := by
  refine ⟨rfl, by simp [NonDecreasing, newLayout], rfl, rfl, rfl, fun h => ?_⟩
  obtain ⟨listings, hresult, -⟩ | ⟨message, failedAt, hresult, -⟩ :=
    @TrueOutcomes.reported _ _ _ .plain _ _ h [] (newLayout 0) [newLayout 1] rfl rfl
  · cases hresult
  · cases hresult

theorem reports_true_outcomes_iff_newLayout :
    @TrueOutcomes _ _ _ .plain strictScraper [newLayout 0, newLayout 1] ↔
      ∀ before visit rest, [newLayout 0, newLayout 1] = before ++ visit :: rest →
        ¬(@after _ _ _ .plain strictScraper before).ParseFails visit :=
  @reports_true_outcomes_iff _ _ _ .plain strictScraper _ _ 1 60 rfl
    (by simp [NonDecreasing, newLayout])

end BaseScraper

end RealEstateTracker.Scraping
