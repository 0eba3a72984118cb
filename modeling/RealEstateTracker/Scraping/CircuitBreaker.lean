import RealEstateTracker.Domain.Vocabulary
import RealEstateTracker.Foundation.Streak
import Mathlib.Algebra.Order.Group.Basic

/-!
# The circuit breaker

One breaker is shared by all workers of a portal.  Its lock makes every call one
step, so a run is a list of calls, each with what the clock reads if the call
asks it.  The passage from open to half-open is taken by the next call that looks.
-/

namespace RealEstateTracker.Scraping

open Foundation Domain

inductive CircuitState where
  | closed
  | opened
  | halfOpen
  deriving DecidableEq, Repr

variable {T : Type} [AddCommGroup T] [LinearOrder T]

structure CircuitBreaker (T : Type) [AddCommGroup T] [LinearOrder T] where
  threshold : Int
  cooldown : T
  state : CircuitState
  consecutiveFailures : Nat
  openedAt : Option T
  threshold_pos : 1 ≤ threshold
  cooldown_pos : 0 < cooldown

namespace CircuitBreaker

/-- A breaker may open at the first failure. -/
theorem threshold_one : (1 : Int) ≤ 1 :=
  Int.le_refl 1

def new (failureThreshold : Int) (cooldownSeconds : T) :
    Except PyError (CircuitBreaker T) :=
  if hthreshold : 1 ≤ failureThreshold then
    if hcooldown : 0 < cooldownSeconds then
      .ok ⟨failureThreshold, cooldownSeconds, .closed, 0, none, hthreshold, hcooldown⟩
    else .error (.valueError "cooldown_seconds must be positive")
  else .error (.valueError "failure_threshold must be >= 1")

/-- The breaker after `_state_locked`, which returns its state. -/
def stateLocked (b : CircuitBreaker T) (now : T) : CircuitBreaker T :=
  match b.state, b.openedAt with
  | .opened, some openedAt =>
      if b.cooldown ≤ now - openedAt then { b with state := .halfOpen } else b
  | _, _ => b

def allow (b : CircuitBreaker T) (now : T) : Bool × CircuitBreaker T :=
  let b := b.stateLocked now
  (b.state ≠ .opened, b)

def recordSuccess (b : CircuitBreaker T) : CircuitBreaker T :=
  { b with consecutiveFailures := 0, state := .closed, openedAt := none }

def recordFailure (b : CircuitBreaker T) (now : T) : CircuitBreaker T :=
  let b := { b with consecutiveFailures := b.consecutiveFailures + 1 }
  if b.threshold ≤ b.consecutiveFailures then
    { b with state := .opened, openedAt := some now }
  else b

end CircuitBreaker

/-! ## Runs -/

inductive BreakerCall where
  | allow
  | state
  | recordSuccess
  | recordFailure
  deriving DecidableEq, Repr

structure TimedCall (T : Type) where
  call : BreakerCall
  now : T
  deriving DecidableEq, Repr

def TimedCall.report (timed : TimedCall T) : Option (Report T) :=
  match timed.call with
  | .allow | .state => none
  | .recordSuccess => some .success
  | .recordFailure => some (.failure timed.now)

def reports (calls : List (TimedCall T)) : List (Report T) :=
  calls.filterMap TimedCall.report

omit [AddCommGroup T] [LinearOrder T] in
theorem reports_concat (calls : List (TimedCall T)) (timed : TimedCall T) :
    reports (calls ++ [timed]) = reports calls ++ timed.report.toList := by
  rw [reports, List.filterMap_append]
  cases h : timed.report <;> simp [reports, h]

namespace CircuitBreaker

def step (b : CircuitBreaker T) (timed : TimedCall T) : CircuitBreaker T :=
  match timed.call with
  | .allow => (b.allow timed.now).2
  | .state => b.stateLocked timed.now
  | .recordSuccess => b.recordSuccess
  | .recordFailure => b.recordFailure timed.now

def after (b : CircuitBreaker T) (calls : List (TimedCall T)) : CircuitBreaker T :=
  calls.foldl step b

@[simp] theorem after_nil (b : CircuitBreaker T) : b.after [] = b := rfl

@[simp] theorem after_cons (b : CircuitBreaker T) (timed : TimedCall T)
    (calls : List (TimedCall T)) :
    b.after (timed :: calls) = (b.step timed).after calls := rfl

theorem after_append (b : CircuitBreaker T) (first second : List (TimedCall T)) :
    b.after (first ++ second) = (b.after first).after second :=
  List.foldl_append ..

theorem after_concat (b : CircuitBreaker T) (calls : List (TimedCall T))
    (timed : TimedCall T) : b.after (calls ++ [timed]) = (b.after calls).step timed :=
  after_append b calls [timed]

/-! ## What a call can do -/

section Cases

variable {b : CircuitBreaker T} {now openedAt : T}

theorem stateLocked_of_ne (h : b.state ≠ .opened) : b.stateLocked now = b := by
  unfold stateLocked
  split
  · next hstate _ => exact absurd hstate h
  · rfl

theorem stateLocked_of_late (hstate : b.state = .opened)
    (hopened : b.openedAt = some openedAt) (hlate : b.cooldown ≤ now - openedAt) :
    b.stateLocked now = { b with state := .halfOpen } := by
  simp only [stateLocked, hstate, hopened, if_pos hlate]

theorem stateLocked_of_early (hopened : b.openedAt = some openedAt)
    (hearly : now - openedAt < b.cooldown) : b.stateLocked now = b := by
  unfold stateLocked
  split
  · next time _ htime =>
    obtain rfl : openedAt = time := Option.some.inj (hopened.symm.trans htime)
    exact if_neg hearly.not_ge
  · rfl

theorem stateLocked_cases (b : CircuitBreaker T) (now : T) :
    b.stateLocked now = b ∨
      ∃ openedAt, b.state = .opened ∧ b.openedAt = some openedAt ∧
        b.cooldown ≤ now - openedAt ∧ b.stateLocked now = { b with state := .halfOpen } := by
  by_cases hstate : b.state = .opened
  · obtain hopened | ⟨openedAt, hopened⟩ := Option.eq_none_or_eq_some b.openedAt
    · exact .inl (by simp only [stateLocked, hstate, hopened])
    · by_cases hlate : b.cooldown ≤ now - openedAt
      · exact .inr ⟨openedAt, hstate, hopened, hlate,
          stateLocked_of_late hstate hopened hlate⟩
      · exact .inl (stateLocked_of_early hopened (not_le.mp hlate))
  · exact .inl (stateLocked_of_ne hstate)

theorem recordFailure_of_lt (h : (b.consecutiveFailures + 1 : Int) < b.threshold) :
    b.recordFailure now = { b with consecutiveFailures := b.consecutiveFailures + 1 } :=
  if_neg (by simpa using h)

theorem recordFailure_of_le (h : b.threshold ≤ (b.consecutiveFailures + 1 : Int)) :
    b.recordFailure now =
      { b with
        consecutiveFailures := b.consecutiveFailures + 1
        state := .opened, openedAt := some now } :=
  if_pos (by simpa using h)

end Cases

def settings (b : CircuitBreaker T) : Int × T := (b.threshold, b.cooldown)

theorem settings_step (b : CircuitBreaker T) (timed : TimedCall T) :
    (b.step timed).settings = b.settings := by
  have hlook : (b.stateLocked timed.now).settings = b.settings := by
    obtain h | ⟨openedAt, -, -, -, h⟩ := stateLocked_cases b timed.now <;> rw [h]
    rfl
  unfold step
  split
  · exact hlook
  · exact hlook
  · rfl
  · by_cases h : b.threshold ≤ (b.consecutiveFailures + 1 : Int)
    · rw [recordFailure_of_le h]
      rfl
    · rw [recordFailure_of_lt (not_le.mp h)]
      rfl

theorem settings_after (b : CircuitBreaker T) (calls : List (TimedCall T)) :
    (b.after calls).settings = b.settings := by
  induction calls generalizing b with
  | nil => rfl
  | cons timed calls ih => rw [after_cons, ih, settings_step]

@[simp] theorem threshold_after (b : CircuitBreaker T) (calls : List (TimedCall T)) :
    (b.after calls).threshold = b.threshold :=
  congrArg Prod.fst (settings_after b calls)

@[simp] theorem cooldown_after (b : CircuitBreaker T) (calls : List (TimedCall T)) :
    (b.after calls).cooldown = b.cooldown :=
  congrArg Prod.snd (settings_after b calls)

/-! ## The state and the streak of failures -/

/-- What the state says about the failures of the streak and a later time. -/
structure Tracks (b : CircuitBreaker T) (times : List T) (now : T) : Prop where
  failures : b.consecutiveFailures = times.length
  closed : b.state = .closed ↔ (times.length : Int) < b.threshold
  openedAt : b.state ≠ .closed → b.openedAt = times.getLast?
  late : b.state = .halfOpen → ∀ time ∈ times.getLast?, b.cooldown ≤ now - time

theorem tracks_new {failureThreshold : Int} {cooldownSeconds : T} {b : CircuitBreaker T}
    (h : new failureThreshold cooldownSeconds = .ok b) (now : T) : b.Tracks [] now := by
  unfold new at h
  split at h
  · next hthreshold =>
    split at h
    · obtain rfl := Except.ok.inj h
      exact ⟨rfl, iff_of_true rfl hthreshold, fun h => absurd rfl h, by simp⟩
    · cases h
  · cases h

theorem threshold_new {failureThreshold : Int} {cooldownSeconds : T} {b : CircuitBreaker T}
    (h : new failureThreshold cooldownSeconds = .ok b) :
    b.threshold = failureThreshold ∧ b.cooldown = cooldownSeconds := by
  unfold new at h
  split at h
  · split at h
    · obtain rfl := Except.ok.inj h
      exact ⟨rfl, rfl⟩
    · cases h
  · cases h

section Tracking

variable {b : CircuitBreaker T} {times : List T} {now later : T}

theorem Tracks.recordSuccess (b : CircuitBreaker T) (now : T) :
    b.recordSuccess.Tracks [] now := by
  refine ⟨rfl, iff_of_true rfl ?_, fun h => absurd rfl h, by simp⟩
  exact Int.lt_of_lt_of_le Int.zero_lt_one b.threshold_pos

theorem Tracks.recordFailure (h : b.Tracks times now) (later : T) :
    (b.recordFailure later).Tracks (times ++ [later]) later := by
  have hlength : (b.consecutiveFailures + 1 : Int) = ((times ++ [later]).length : Nat) := by
    simp [h.failures]
  by_cases hle : b.threshold ≤ (b.consecutiveFailures + 1 : Int)
  · rw [recordFailure_of_le hle]
    refine ⟨by simp [h.failures], ?_, fun _ => by simp, fun h => nomatch h⟩
    exact iff_of_false (fun h => nomatch h) (by rw [← hlength]; exact hle.not_gt)
  · have hlt := not_le.mp hle
    have hclosed : b.state = .closed := by
      refine h.closed.mpr ?_
      rw [← h.failures]
      omega
    rw [recordFailure_of_lt hlt]
    refine ⟨by simp [h.failures], iff_of_true hclosed ?_, fun h => absurd hclosed h, ?_⟩
    · rw [← hlength]
      exact hlt
    · intro hhalf
      exact nomatch hclosed.symm.trans hhalf

theorem Tracks.mono [IsOrderedAddMonoid T] (h : b.Tracks times now) (hle : now ≤ later) :
    b.Tracks times later :=
  ⟨h.failures, h.closed, h.openedAt, fun hhalf time htime =>
    (h.late hhalf time htime).trans (sub_le_sub_right hle time)⟩

theorem Tracks.stateLocked (h : b.Tracks times now) : (b.stateLocked now).Tracks times now := by
  obtain heq | ⟨openedAt, hstate, hopened, hlate, heq⟩ := stateLocked_cases b now
  · rwa [heq]
  · rw [heq]
    have hne : b.state ≠ .closed := by
      rw [hstate]
      exact fun h => nomatch h
    have hlast := h.openedAt hne
    refine ⟨h.failures, iff_of_false (fun h => nomatch h) fun hlt => hne (h.closed.mpr hlt),
      fun _ => hlast, fun _ time htime => ?_⟩
    rw [← hlast, hopened] at htime
    obtain rfl := Option.some.inj htime
    exact hlate

theorem Tracks.refuses (h : b.Tracks times now) (hstreak : b.threshold ≤ times.length)
    {failedAt : T} (hlast : failedAt ∈ times.getLast?)
    (hearly : now - failedAt < b.cooldown) : (b.allow now).1 = false := by
  have hne : b.state ≠ .closed := fun hclosed => (h.closed.mp hclosed).not_ge hstreak
  have hopened : b.openedAt = some failedAt := (h.openedAt hne).trans hlast
  have hstate : b.state = .opened := by
    cases hstate : b.state with
    | closed => exact absurd hstate hne
    | opened => rfl
    | halfOpen => exact absurd (h.late hstate failedAt hlast) hearly.not_ge
  simp [allow, stateLocked_of_early hopened hearly, hstate]

end Tracking

def NonDecreasing (calls : List (TimedCall T)) : Prop :=
  calls.Pairwise fun first second => first.now ≤ second.now

theorem Tracks.step [IsOrderedAddMonoid T] {b : CircuitBreaker T}
    {history : List (Report T)} {now : T} {timed : TimedCall T}
    (h : b.Tracks (streak history) now) (hle : now ≤ timed.now) :
    (b.step timed).Tracks (streak (history ++ timed.report.toList)) timed.now := by
  obtain ⟨call, later⟩ := timed
  cases call with
  | allow =>
      simpa [TimedCall.report, CircuitBreaker.step, allow] using (h.mono hle).stateLocked
  | state =>
      simpa [TimedCall.report, CircuitBreaker.step] using (h.mono hle).stateLocked
  | recordSuccess =>
      simpa [TimedCall.report, CircuitBreaker.step] using Tracks.recordSuccess b later
  | recordFailure =>
      simpa [TimedCall.report, CircuitBreaker.step] using h.recordFailure later

theorem Tracks.after [IsOrderedAddMonoid T] {b : CircuitBreaker T} {calls : List (TimedCall T)}
    {now : T} (h : ∀ now, b.Tracks [] now) (hclock : NonDecreasing calls)
    (hnow : ∀ timed ∈ calls, timed.now ≤ now) :
    (b.after calls).Tracks (streak (reports calls)) now := by
  induction calls using List.reverseRecOn generalizing now with
  | nil => exact h now
  | append_singleton calls timed ih =>
      obtain ⟨hclock, -, hlast⟩ := List.pairwise_append.mp hclock
      have htracks := ih hclock fun first hfirst => hlast first hfirst timed (.head _)
      have hstep := (htracks.step le_rfl).mono (hnow timed (by simp))
      rw [after_concat, reports_concat]
      exact hstep

end CircuitBreaker

end RealEstateTracker.Scraping
