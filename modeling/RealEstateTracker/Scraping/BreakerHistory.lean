import RealEstateTracker.Scraping.CircuitBreaker

/-!
# The history of a breaker

A breaker keeps a counter, a state and a time, and half-opens only when it is
looked at.  What it answers depends on nothing but the failures since the last
success and the time of the question.
-/

namespace RealEstateTracker.Scraping

open Foundation Domain

variable {T : Type} [AddCommGroup T] [LinearOrder T]

/-- The state of a breaker after the failures of a streak. -/
def stateOf (threshold : Int) (cooldown : T) (times : List T) (now : T) :
    CircuitState :=
  match times.getLast? with
  | none => .closed
  | some failedAt =>
      if (times.length : Int) < threshold then .closed
      else if now - failedAt < cooldown then .opened
      else .halfOpen

theorem stateOf_of_lt {threshold : Int} {cooldown now : T} {times : List T}
    (h : (times.length : Int) < threshold) :
    stateOf threshold cooldown times now = .closed := by
  unfold stateOf
  split
  · rfl
  · exact if_pos h

theorem stateOf_of_le {threshold : Int} {cooldown now failedAt : T} {times : List T}
    (h : threshold ≤ times.length) (hlast : times.getLast? = some failedAt) :
    stateOf threshold cooldown times now =
      if now - failedAt < cooldown then .opened else .halfOpen := by
  simp only [stateOf, hlast, if_neg h.not_gt]

namespace CircuitBreaker

section Tracking

variable {b : CircuitBreaker T} {times : List T} {now : T}

theorem Tracks.state_eq (h : b.Tracks times now) :
    (b.stateLocked now).state = stateOf b.threshold b.cooldown times now := by
  by_cases hlt : (times.length : Int) < b.threshold
  · have hclosed := h.closed.mpr hlt
    rw [stateOf_of_lt hlt, stateLocked_of_ne (by simp [hclosed]), hclosed]
  · have hle := not_lt.mp hlt
    have hne : b.state ≠ .closed := fun hclosed => hlt (h.closed.mp hclosed)
    have htimes : times ≠ [] := by
      rintro rfl
      exact absurd (b.threshold_pos.trans hle) (by simp)
    have hlast := List.getLast?_eq_some_getLast htimes
    have hopened := (h.openedAt hne).trans hlast
    rw [stateOf_of_le hle hlast]
    cases hstate : b.state with
    | closed => exact absurd hstate hne
    | opened =>
        by_cases hearly : now - times.getLast htimes < b.cooldown
        · rw [if_pos hearly, stateLocked_of_early hopened hearly, hstate]
        · rw [if_neg hearly, stateLocked_of_late hstate hopened (not_lt.mp hearly)]
    | halfOpen =>
        -- it half-opened late, and the clock has not gone back since
        have hlate := h.late hstate _ hlast
        rw [if_neg hlate.not_gt, stateLocked_of_ne (by simp [hstate]), hstate]

end Tracking

section Runs

variable [IsOrderedAddMonoid T] {failureThreshold : Int} {cooldownSeconds : T}
  {b : CircuitBreaker T} {calls : List (TimedCall T)}

/--
After any run, whenever it is asked, a breaker is closed while the streak of
failures is short; then it is open until the cooldown has passed since the last
of them, and half-open after that.  It refuses an attempt just if it is open.
-/
theorem state_follows_history (hnew : new failureThreshold cooldownSeconds = .ok b)
    (hclock : NonDecreasing calls) {now : T} (hnow : ∀ timed ∈ calls, timed.now ≤ now) :
    ((b.after calls).stateLocked now).state =
        stateOf failureThreshold cooldownSeconds (streak (reports calls)) now ∧
      ((b.after calls).allow now).1 = decide
        (stateOf failureThreshold cooldownSeconds (streak (reports calls)) now ≠ .opened) := by
  obtain ⟨rfl, rfl⟩ := threshold_new hnew
  have htracks := Tracks.after (tracks_new hnew) hclock hnow
  have hstate := htracks.state_eq
  rw [threshold_after, cooldown_after] at hstate
  refine ⟨hstate, ?_⟩
  rw [allow, hstate]

end Runs

def secondFailure : CircuitBreaker Int :=
  ⟨2, 6, .closed, 0, none, by decide, by decide⟩

/-- The failure of a late worker opens the breaker once more. -/
def lateFailure : List (TimedCall Int) :=
  [⟨.recordFailure, 0⟩, ⟨.recordSuccess, 1⟩, ⟨.recordFailure, 2⟩, ⟨.recordFailure, 3⟩,
    ⟨.allow, 4⟩, ⟨.recordFailure, 6⟩, ⟨.state, 9⟩]

theorem state_follows_history_lateFailure :
    ((secondFailure.after lateFailure).stateLocked 10).state = .opened ∧
      ((secondFailure.after lateFailure).allow 10).1 = false :=
  state_follows_history (show new (2 : Int) (6 : Int) = .ok secondFailure from rfl)
    (by unfold NonDecreasing; decide) (by decide)

end CircuitBreaker

end RealEstateTracker.Scraping
