import RealEstateTracker.Scraping.CircuitBreaker

/-!
# The half-open breaker

A breaker half-opens to test whether the portal has recovered.  `allow` refuses
nothing but an open breaker, so it lets through whoever asks before the first
attempt is reported.
-/

namespace RealEstateTracker.Scraping

open Foundation Domain

variable {T : Type} [AddCommGroup T] [LinearOrder T]

namespace CircuitBreaker

/-- How many of the calls are an `allow` that returns `True`. -/
def allowed (b : CircuitBreaker T) : List (TimedCall T) → Nat
  | [] => 0
  | timed :: calls =>
      (if timed.call = .allow ∧ (b.allow timed.now).1 = true then 1 else 0) +
        (b.step timed).allowed calls

/-- The breaker is open, and the first of the calls makes it half-open. -/
def HalfOpens (b : CircuitBreaker T) (calls : List (TimedCall T)) : Prop :=
  b.state = .opened ∧ ∃ timed ∈ calls.head?, (b.step timed).state = .halfOpen

/-- From the call that half-opens the breaker to the next report. -/
def LetsOneProbeThrough (b : CircuitBreaker T) (calls : List (TimedCall T)) : Prop :=
  ∀ before window after, calls = before ++ window ++ after →
    (∀ timed ∈ window, timed.report = none) → HalfOpens (b.after before) window →
      (b.after before).allowed window ≤ 1

end CircuitBreaker

/-- An `allow` when the cooldown has passed since a failure. -/
def lateAttempt (cooldown failedAt : T) (timed : TimedCall T) : Bool :=
  timed.call = .allow ∧ cooldown ≤ timed.now - failedAt

/--
After each failure that makes a streak of at least `threshold`, one `allow` at
most comes late and before the next report.
-/
def OneLateAttempt (threshold : Int) (cooldown : T) (calls : List (TimedCall T)) : Prop :=
  ∀ before failedAt window after,
    calls = before ++ ⟨.recordFailure, failedAt⟩ :: window ++ after →
      (∀ timed ∈ window, timed.report = none) →
        threshold ≤ (streak (reports before)).length + 1 →
          window.countP (lateAttempt cooldown failedAt) ≤ 1

namespace CircuitBreaker

section Windows

variable {b : CircuitBreaker T} {failedAt : T} {window : List (TimedCall T)}

theorem exists_late (cooldown failedAt : T) (window : List (TimedCall T)) :
    ∃ early late, window = early ++ late ∧
      (∀ timed ∈ early, timed.now - failedAt < cooldown) ∧
      ∀ timed ∈ late.head?, cooldown ≤ timed.now - failedAt := by
  let early : TimedCall T → Bool := fun timed => timed.now - failedAt < cooldown
  refine ⟨window.takeWhile early, window.dropWhile early,
    List.takeWhile_append_dropWhile.symm, fun timed htimed => ?_, fun timed htimed => ?_⟩
  · have h : early timed = true := List.mem_takeWhile_imp htimed
    simpa [early] using h
  · have h := List.head?_dropWhile_not early window
    rw [htimed] at h
    simpa [early] using h

theorem step_of_silent {timed : TimedCall T} (h : timed.report = none) :
    b.step timed = b.stateLocked timed.now := by
  obtain ⟨call, now⟩ := timed
  cases call with
  | allow => rfl
  | state => rfl
  | recordSuccess => cases h
  | recordFailure => cases h

theorem allowed_of_ne (hstate : b.state ≠ .opened)
    (hwindow : ∀ timed ∈ window, timed.report = none) :
    b.allowed window = window.countP (·.call = .allow) := by
  induction window with
  | nil => rfl
  | cons timed window ih =>
      obtain ⟨htimed, hwindow⟩ := List.forall_mem_cons.mp hwindow
      have hsame : b.stateLocked timed.now = b := stateLocked_of_ne hstate
      rw [allowed, step_of_silent htimed, hsame, ih hwindow, List.countP_cons, add_comm]
      simp [allow, hsame, hstate]

theorem allowed_of_opened [IsOrderedAddMonoid T] (hstate : b.state = .opened)
    (hopened : b.openedAt = some failedAt)
    (hwindow : ∀ timed ∈ window, timed.report = none) (hclock : NonDecreasing window) :
    b.allowed window = window.countP (lateAttempt b.cooldown failedAt) := by
  induction window with
  | nil => rfl
  | cons timed window ih =>
      obtain ⟨htimed, hwindow⟩ := List.forall_mem_cons.mp hwindow
      obtain ⟨hfirst, hclock⟩ := List.pairwise_cons.mp hclock
      rw [allowed, step_of_silent htimed, List.countP_cons, add_comm]
      by_cases hlate : b.cooldown ≤ timed.now - failedAt
      · -- half-open from here on, and every later call is late as well
        have hlook := stateLocked_of_late hstate hopened hlate
        have hall : ∀ later ∈ window, b.cooldown ≤ later.now - failedAt :=
          fun later hlater => hlate.trans (sub_le_sub_right (hfirst later hlater) _)
        rw [allowed_of_ne (by simp [hlook]) hwindow]
        congr 1
        · refine List.countP_congr fun later hlater => ?_
          simp [lateAttempt, hall later hlater]
        · simp [lateAttempt, allow, hlook, hlate]
      · have hlook := stateLocked_of_early hopened (not_le.mp hlate)
        rw [hlook, ih hwindow hclock]
        simp [lateAttempt, allow, hlook, hstate, hlate]

theorem after_of_early (hopened : b.openedAt = some failedAt)
    (hwindow : ∀ timed ∈ window, timed.report = none)
    (hearly : ∀ timed ∈ window, timed.now - failedAt < b.cooldown) : b.after window = b := by
  induction window with
  | nil => rfl
  | cons timed window ih =>
      obtain ⟨htimed, hwindow⟩ := List.forall_mem_cons.mp hwindow
      obtain ⟨hfirst, hearly⟩ := List.forall_mem_cons.mp hearly
      rw [after_cons, step_of_silent htimed, stateLocked_of_early hopened hfirst]
      exact ih hwindow hearly

end Windows

/-! ## Runs of a new breaker -/

section Runs

variable [IsOrderedAddMonoid T] {b : CircuitBreaker T} {calls : List (TimedCall T)}
  {failedAt : T}

theorem after_of_streak (hnew : ∀ now, b.Tracks [] now)
    (hclock : NonDecreasing (calls ++ [⟨.recordFailure, failedAt⟩]))
    (hstreak : b.threshold ≤ (streak (reports calls)).length + 1) :
    (b.after (calls ++ [⟨.recordFailure, failedAt⟩])).state = .opened ∧
      (b.after (calls ++ [⟨.recordFailure, failedAt⟩])).openedAt = some failedAt := by
  obtain ⟨hclock, -, hlast⟩ := List.pairwise_append.mp hclock
  have htracks := Tracks.after hnew hclock fun timed htimed => hlast timed htimed _ (.head _)
  have hle : (b.after calls).threshold ≤ ((b.after calls).consecutiveFailures + 1 : Int) := by
    rw [threshold_after, htracks.failures]
    exact hstreak
  have hstep : b.after (calls ++ [⟨.recordFailure, failedAt⟩]) =
      (b.after calls).recordFailure failedAt := after_concat b calls _
  rw [hstep, recordFailure_of_le hle]
  exact ⟨rfl, rfl⟩

theorem exists_failure_of_opened (hnew : ∀ now, b.Tracks [] now)
    (hclock : NonDecreasing calls) (h : (b.after calls).state = .opened) :
    ∃ before failedAt quiet, calls = before ++ ⟨.recordFailure, failedAt⟩ :: quiet ∧
      (∀ timed ∈ quiet, timed.report = none) ∧
      b.threshold ≤ (streak (reports before)).length + 1 ∧
      (b.after calls).openedAt = some failedAt := by
  induction calls using List.reverseRecOn with
  | nil =>
      have hclosed := (hnew 0).closed.mpr (Int.lt_of_lt_of_le Int.zero_lt_one b.threshold_pos)
      exact nomatch hclosed.symm.trans h
  | append_singleton calls timed ih =>
      obtain ⟨hfirst, -, hlast⟩ := List.pairwise_append.mp hclock
      have htracks := Tracks.after hnew hfirst fun first hmem => hlast first hmem _ (.head _)
      have hafter := after_concat b calls timed
      cases hreport : timed.report with
      | none =>
          rw [hafter, step_of_silent hreport] at h ⊢
          obtain heq | ⟨openedAt, -, -, -, heq⟩ := stateLocked_cases (b.after calls) timed.now
          · rw [heq] at h ⊢
            obtain ⟨before, failedAt, quiet, rfl, hquiet, hstreak, hopened⟩ := ih hfirst h
            refine ⟨before, failedAt, quiet ++ [timed], by simp, ?_, hstreak, hopened⟩
            intro first hmem
            rcases List.mem_append.mp hmem with hmem | hmem
            · exact hquiet first hmem
            · rwa [List.mem_singleton.mp hmem]
          · rw [heq] at h
            cases h
      | some report =>
          obtain ⟨call, now⟩ := timed
          cases call with
          | allow => cases hreport
          | state => cases hreport
          | recordSuccess =>
              rw [hafter] at h
              cases h
          | recordFailure =>
              by_cases hle : b.threshold ≤ (streak (reports calls)).length + 1
              · exact ⟨calls, now, [], rfl, by simp, hle,
                  (after_of_streak hnew hclock hle).2⟩
              · -- a shorter streak leaves the breaker closed
                have hclosed : (b.after calls).state = .closed := by
                  refine htracks.closed.mpr ?_
                  rw [threshold_after]
                  omega
                rw [hafter, step, recordFailure_of_lt (by
                  rw [htracks.failures, threshold_after]
                  exact not_le.mp hle)] at h
                exact nomatch hclosed.symm.trans h

/--
A breaker lets a single probe through whenever it half-opens exactly when nobody
asks a second time before the first probe is reported.
-/
theorem lets_one_probe_through_iff {failureThreshold : Int} {cooldownSeconds : T}
    (hnew : new failureThreshold cooldownSeconds = .ok b) (hclock : NonDecreasing calls) :
    b.LetsOneProbeThrough calls ↔
      OneLateAttempt failureThreshold cooldownSeconds calls := by
  obtain ⟨rfl, rfl⟩ := threshold_new hnew
  have htracks : ∀ now, b.Tracks [] now := tracks_new hnew
  constructor
  · rintro h before failedAt window after rfl hwindow hstreak
    obtain ⟨early, late, rfl, hearly, hlate⟩ := exists_late b.cooldown failedAt window
    obtain ⟨hearlyQuiet, hlateQuiet⟩ := List.forall_mem_append.mp hwindow
    have hcalls : before ++ ⟨.recordFailure, failedAt⟩ :: (early ++ late) ++ after =
        (before ++ [⟨.recordFailure, failedAt⟩] ++ early) ++ late ++ after := by simp
    rw [hcalls] at h hclock
    obtain ⟨hclock, -, -⟩ := List.pairwise_append.mp hclock
    obtain ⟨hopening, hlateClock, -⟩ := List.pairwise_append.mp hclock
    obtain ⟨hstate, hopened⟩ :=
      after_of_streak htracks (List.pairwise_append.mp hopening).1 hstreak
    have hafter : b.after (before ++ [⟨.recordFailure, failedAt⟩] ++ early) =
        b.after (before ++ [⟨.recordFailure, failedAt⟩]) := by
      rw [after_append]
      exact after_of_early hopened hearlyQuiet (by simpa using hearly)
    have hnone : early.countP (lateAttempt b.cooldown failedAt) = 0 :=
      List.countP_eq_zero.mpr fun timed htimed => by
        simp [lateAttempt, hearly timed htimed]
    rw [List.countP_append, hnone, Nat.zero_add]
    cases late with
    | nil => exact Nat.zero_le 1
    | cons first rest =>
        have hprobe := h _ _ _ rfl hlateQuiet ⟨by rw [hafter]; exact hstate, first, rfl, by
          rw [hafter, step_of_silent (hlateQuiet first (.head _)),
            stateLocked_of_late hstate hopened (by simpa using hlate first rfl)]⟩
        rwa [hafter, allowed_of_opened hstate hopened hlateQuiet hlateClock,
          cooldown_after] at hprobe
  · rintro h before window after rfl hwindow ⟨hstate, -⟩
    obtain ⟨hclock, -, -⟩ := List.pairwise_append.mp hclock
    obtain ⟨hbefore, hlater, -⟩ := List.pairwise_append.mp hclock
    obtain ⟨earlier, failedAt, quiet, rfl, hquiet, hstreak, hopened⟩ :=
      exists_failure_of_opened htracks hbefore hstate
    rw [allowed_of_opened hstate hopened hwindow hlater, cooldown_after]
    calc window.countP (lateAttempt b.cooldown failedAt)
        ≤ (quiet ++ window).countP (lateAttempt b.cooldown failedAt) := by
          rw [List.countP_append]
          exact Nat.le_add_left _ _
      _ ≤ 1 := by
          refine h earlier failedAt (quiet ++ window) after (by simp) ?_ hstreak
          exact fun timed htimed => (List.mem_append.mp htimed).elim (hquiet timed)
            (hwindow timed)

end Runs

/-! ## Two workers after the cooldown -/

/-- The breaker of the tests, with a cooldown of five seconds. -/
def testedBreaker : CircuitBreaker Int :=
  ⟨1, 5, .closed, 0, none, threshold_one, by decide⟩

def twoProbes : List (TimedCall Int) :=
  [⟨.recordFailure, 0⟩, ⟨.allow, 5⟩, ⟨.allow, 5⟩]

/-- Both workers that ask after the cooldown are let through. -/
theorem two_probes_get_through :
    new 1 5 = .ok testedBreaker ∧ NonDecreasing twoProbes ∧
      ¬testedBreaker.LetsOneProbeThrough twoProbes := by
  refine ⟨rfl, by simp [NonDecreasing, twoProbes], fun h => ?_⟩
  have htwo := h [⟨.recordFailure, 0⟩] [⟨.allow, 5⟩, ⟨.allow, 5⟩] [] rfl
    (by simp [TimedCall.report]) ⟨rfl, _, rfl, rfl⟩
  revert htwo
  decide

theorem lets_one_probe_through_iff_tested :
    testedBreaker.LetsOneProbeThrough [⟨.recordFailure, 0⟩, ⟨.allow, 5⟩] ↔
      OneLateAttempt 1 5 [⟨.recordFailure, (0 : Int)⟩, ⟨.allow, 5⟩] :=
  lets_one_probe_through_iff rfl (by simp [NonDecreasing])

end CircuitBreaker

end RealEstateTracker.Scraping
