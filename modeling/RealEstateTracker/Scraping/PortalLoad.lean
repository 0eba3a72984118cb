import RealEstateTracker.Scraping.BaseScraper
import Mathlib.Algebra.BigOperators.Fin

/-!
# The load on a failing portal

The workers of a portal share one scraper and take turns in any order, each in its
own fetch.  While no fetch succeeds, what they request is bounded by the failures
that open the breaker, by one fetch of each worker whenever it half-opens, and by
the attempts of a fetch.
-/

namespace RealEstateTracker.Scraping

open Foundation Domain

variable {T : Type} [AddCommGroup T] [LinearOrder T]

/-! ## Workers -/

/-- Where a worker is in a call of `fetch`. -/
inductive FetchPhase (T : Type) where
  | idle
  | building (visit : Visit T)
  | attempting (visit : Visit T) (url : String) (attempt : Nat)
  | ended (page : Except FetchError String)

/-- A turn of a worker, the clock at that turn, and what it fetches if it is idle. -/
structure Turn (W T : Type) where
  worker : W
  now : T
  visit : Visit T

structure Portal (W T : Type) [AddCommGroup T] [LinearOrder T] where
  scraper : BaseScraper T
  phases : W → FetchPhase T

namespace Portal

variable {W : Type} [DecidableEq W]

def setPhase (portal : Portal W T) (worker : W) (phase : FetchPhase T) : Portal W T :=
  { portal with phases := Function.update portal.phases worker phase }

def setBreaker (portal : Portal W T) (breaker : CircuitBreaker T) : Portal W T :=
  { portal with scraper := { portal.scraper with circuitBreaker := breaker } }

def step (portal : Portal W T) (turn : Turn W T) : Portal W T :=
  match portal.phases turn.worker with
  | .idle =>
      let (allowed, breaker) := portal.scraper.circuitBreaker.allow turn.now
      let portal := portal.setBreaker breaker
      if allowed then portal.setPhase turn.worker (.building turn.visit) else portal
  | .building visit =>
      match visit.buildUrl visit.query with
      | .error error => portal.setPhase turn.worker (.ended (.error error))
      | .ok url => portal.setPhase turn.worker (.attempting visit url 1)
  | .attempting visit url attempt =>
      match visit.fetchOnce url attempt with
      | .ok html => portal.setPhase turn.worker (.ended (.ok html))
      | .error error =>
          if error.isHttpError ∧ (attempt : Int) < portal.scraper.maxAttempts then
            portal.setPhase turn.worker (.attempting visit url (attempt + 1))
          else portal.setPhase turn.worker (.ended (.error error))
  | .ended (.ok _) =>
      (portal.setBreaker portal.scraper.circuitBreaker.recordSuccess).setPhase turn.worker
        .idle
  | .ended (.error _) =>
      (portal.setBreaker (portal.scraper.circuitBreaker.recordFailure turn.now)).setPhase
        turn.worker .idle

/-- Whether the turn sends a request. -/
def sends (portal : Portal W T) (turn : Turn W T) : Nat :=
  match portal.phases turn.worker with
  | .attempting _ _ _ => 1
  | _ => 0

/-- Whether the turn records a success. -/
def succeeds (portal : Portal W T) (turn : Turn W T) : Bool :=
  match portal.phases turn.worker with
  | .ended (.ok _) => true
  | _ => false

def after (portal : Portal W T) (turns : List (Turn W T)) : Portal W T :=
  turns.foldl step portal

def requests (portal : Portal W T) : List (Turn W T) → Nat
  | [] => 0
  | turn :: turns => portal.sends turn + (portal.step turn).requests turns

def Fails (portal : Portal W T) : List (Turn W T) → Prop
  | [] => True
  | turn :: turns => portal.succeeds turn = false ∧ (portal.step turn).Fails turns

instance decidableFails : (portal : Portal W T) → (turns : List (Turn W T)) →
    Decidable (portal.Fails turns)
  | _, [] => inferInstanceAs (Decidable True)
  | portal, turn :: turns =>
      have := decidableFails (portal.step turn) turns
      inferInstanceAs (Decidable (_ ∧ _))

/-! ## A worker alone -/

section Alone

variable {portal : Portal W T} {worker : W} {turns : List (Turn W T)} {turn : Turn W T}

@[simp] theorem after_nil (portal : Portal W T) : portal.after [] = portal := rfl

@[simp] theorem after_cons (portal : Portal W T) (turn : Turn W T)
    (turns : List (Turn W T)) :
    portal.after (turn :: turns) = (portal.step turn).after turns := rfl

@[simp] theorem phases_setPhase (portal : Portal W T) (worker : W) (phase : FetchPhase T) :
    (portal.setPhase worker phase).phases worker = phase :=
  Function.update_self ..

theorem phases_setPhase_of_ne (portal : Portal W T) {worker other : W} (h : other ≠ worker)
    (phase : FetchPhase T) :
    (portal.setPhase worker phase).phases other = portal.phases other :=
  Function.update_of_ne h ..

@[simp] theorem setPhase_setPhase (portal : Portal W T) (worker : W)
    (phase phase' : FetchPhase T) :
    (portal.setPhase worker phase).setPhase worker phase' =
      portal.setPhase worker phase' := by
  simp [setPhase]

@[simp] theorem scraper_setPhase (portal : Portal W T) (worker : W)
    (phase : FetchPhase T) : (portal.setPhase worker phase).scraper = portal.scraper := rfl

omit [DecidableEq W] in
@[simp] theorem scraper_setBreaker (portal : Portal W T) (breaker : CircuitBreaker T) :
    (portal.setBreaker breaker).scraper =
      { portal.scraper with circuitBreaker := breaker } := rfl

theorem after_append (portal : Portal W T) (first second : List (Turn W T)) :
    portal.after (first ++ second) = (portal.after first).after second :=
  List.foldl_append ..

theorem requests_append (portal : Portal W T) (first second : List (Turn W T)) :
    portal.requests (first ++ second) =
      portal.requests first + (portal.after first).requests second := by
  induction first generalizing portal with
  | nil => exact (Nat.zero_add _).symm
  | cons turn first ih =>
      rw [List.cons_append, requests, requests, ih, after_cons, Nat.add_assoc]

/-- A worker that is left alone makes the attempts that `Retrying` makes. -/
theorem after_attempts (portal : Portal W T) (visit : Visit T) (url : String)
    (turn : Turn W T) (retries attempt : Nat)
    (hretries : retries = (portal.scraper.maxAttempts - attempt).toNat) :
    let waiting := portal.setPhase turn.worker (.attempting visit url attempt)
    let outcome := retrying (visit.fetchOnce url) retries attempt
    ∃ turns, waiting.after (List.replicate turns turn) =
        portal.setPhase turn.worker (.ended outcome.1) ∧
      waiting.requests (List.replicate turns turn) = turns ∧
        turns + attempt = outcome.2 + 1 := by
  induction retries generalizing attempt with
  | zero =>
      have hlast : ¬(attempt : Int) < portal.scraper.maxAttempts := by omega
      refine ⟨1, ?_, by simp [requests, sends], Nat.add_comm _ _⟩
      cases hpage : visit.fetchOnce url attempt with
      | ok html => simp [step, retrying, hpage]
      | error error => simp [step, retrying, hpage, hlast]
  | succ retries ih =>
      have hmore : (attempt : Int) < portal.scraper.maxAttempts := by omega
      cases hpage : visit.fetchOnce url attempt with
      | ok html =>
          refine ⟨1, ?_, by simp [requests, sends], ?_⟩
          · simp [step, retrying, hpage]
          · simp [retrying, hpage, Nat.add_comm]
      | error error =>
          by_cases hhttp : error.isHttpError = true
          · obtain ⟨turns, hafter, hrequests, hcount⟩ := ih (attempt + 1) (by omega)
            have hstep : (portal.setPhase turn.worker
                (.attempting visit url attempt)).step turn =
                portal.setPhase turn.worker (.attempting visit url (attempt + 1)) := by
              simp [step, hpage, hhttp, hmore]
            refine ⟨turns + 1, ?_, ?_, ?_⟩
            · rw [List.replicate_succ, after_cons, hstep, hafter]
              simp [retrying, hpage, hhttp]
            · rw [List.replicate_succ, requests, hstep, hrequests]
              simp [sends, Nat.add_comm]
            · simp only [retrying, hpage, hhttp, if_true]
              omega
          · refine ⟨1, ?_, by simp [requests, sends], ?_⟩
            · simp [step, retrying, hpage, hhttp]
            · simp [retrying, hpage, hhttp, Nat.add_comm]

theorem after_get (portal : Portal W T) (turn : Turn W T) (visit : Visit T) :
    let waiting := portal.setPhase turn.worker (.building visit)
    ∃ turns, waiting.after (List.replicate turns turn) =
        portal.setPhase turn.worker (.ended (portal.scraper.get visit).1) ∧
      waiting.requests (List.replicate turns turn) = (portal.scraper.get visit).2 := by
  cases hurl : visit.buildUrl visit.query with
  | error error =>
      refine ⟨1, ?_, by simp [requests, sends, BaseScraper.get, hurl]⟩
      simp [step, BaseScraper.get, hurl]
  | ok url =>
      obtain ⟨turns, hafter, hrequests, hcount⟩ :=
        after_attempts portal visit url turn _ 1 rfl
      have hstep : (portal.setPhase turn.worker (.building visit)).step turn =
          portal.setPhase turn.worker (.attempting visit url 1) := by
        simp [step, hurl]
      refine ⟨turns + 1, ?_, ?_⟩
      · rw [List.replicate_succ, after_cons, hstep, hafter]
        simp [BaseScraper.get, hurl]
      · rw [List.replicate_succ, requests, hstep, hrequests]
        simpa [sends, BaseScraper.get, hurl] using hcount

/-- The turns of a worker that no other interrupts are one call of `fetch`. -/
theorem after_alone [PythonRuntime] (hidle : portal.phases worker = .idle)
    (visit : Visit T) : ∃ turns,
      let alone : List (Turn W T) := ⟨worker, visit.allowedAt, visit⟩ ::
        List.replicate turns ⟨worker, visit.recordedAt, visit⟩
      portal.after alone =
          { portal with scraper := (portal.scraper.fetch visit).2 } ∧
        portal.requests alone = (portal.scraper.fetch visit).1.requests := by
  let asked := portal.setBreaker (portal.scraper.circuitBreaker.allow visit.allowedAt).2
  have hasked : asked.phases worker = .idle := hidle
  have hsends : portal.sends ⟨worker, visit.allowedAt, visit⟩ = 0 := by
    simp [sends, hidle]
  cases hallowed : (portal.scraper.circuitBreaker.allow visit.allowedAt).1 with
  | false =>
      refine ⟨0, ?_, ?_⟩
      · simp [step, hidle, hallowed, BaseScraper.fetch, setBreaker]
      · simp [requests, hsends, hallowed, BaseScraper.fetch]
  | true =>
      obtain ⟨turns, hafter, hrequests⟩ :=
        asked.after_get ⟨worker, visit.recordedAt, visit⟩ visit
      have hstep : portal.step ⟨worker, visit.allowedAt, visit⟩ =
          asked.setPhase worker (.building visit) := by
        simp [step, hidle, hallowed, asked]
      have hget : asked.scraper.get visit = portal.scraper.get visit := rfl
      refine ⟨turns + 1, ?_, ?_⟩
      · rw [after_cons, hstep, List.replicate_succ', after_append, hafter, hget]
        cases hpage : (portal.scraper.get visit).1 with
        | error error =>
            simp [step, hallowed, hpage, BaseScraper.fetch, asked, setBreaker, setPhase,
              ← hidle]
        | ok html =>
            simp [step, hallowed, hpage, BaseScraper.fetch, asked, setBreaker, setPhase,
              ← hidle]
      · rw [requests, hstep, List.replicate_succ', requests_append, hafter, hrequests,
          hsends, hget]
        have hlast : (asked.setPhase worker (.ended (portal.scraper.get visit).1)).requests
            [⟨worker, visit.recordedAt, visit⟩] = 0 := by
          simp [requests, sends]
        rw [hlast]
        cases hpage : (portal.scraper.get visit).1 <;>
          simp [hallowed, hpage, BaseScraper.fetch]

end Alone

end Portal

/-! ## What a breaker still admits -/

/--
No more than `admitted` further fetches get through until the deadline while nothing
succeeds, when `busy` of the workers are in a fetch that got through.  A breaker that
is not paused may still half-open `n` times, and so may one that is, counted from its
last failure.
-/
inductive Admits (b : CircuitBreaker T) (workers busy : Nat) (deadline now : T)
    (admitted : Nat) : Prop
  | closed (n : Nat) (hstate : b.state = .closed)
      (hspan : deadline - now < (n + 1) • b.cooldown)
      (hroom : b.threshold + (n + 1) * workers ≤
        admitted + busy + b.consecutiveFailures + 1)
  | probing (n : Nat) (hstate : b.state ≠ .closed)
      (hspan : deadline - now < (n + 1) • b.cooldown)
      (hroom : (n + 1) * workers ≤ admitted + busy)
  | paused (n : Nat) (failedAt : T) (hstate : b.state = .opened)
      (hopened : b.openedAt = some failedAt) (hpast : failedAt ≤ now)
      (hspan : deadline - failedAt < (n + 1) • b.cooldown)
      (hroom : n * workers ≤ admitted)

def Tracked (b : CircuitBreaker T) (now : T) : Prop := ∃ times, b.Tracks times now

namespace Admits

variable [IsOrderedAddMonoid T] {b : CircuitBreaker T} {workers busy admitted : Nat}
  {deadline now later : T}

theorem mono (h : Admits b workers busy deadline now admitted) (hle : now ≤ later) :
    Admits b workers busy deadline later admitted := by
  have hshorter : deadline - later ≤ deadline - now := sub_le_sub_left hle deadline
  cases h with
  | closed n hstate hspan hroom =>
      exact .closed n hstate (hshorter.trans_lt hspan) hroom
  | probing n hstate hspan hroom =>
      exact .probing n hstate (hshorter.trans_lt hspan) hroom
  | paused n failedAt hstate hopened hpast hspan hroom =>
      exact .paused n failedAt hstate hopened (hpast.trans hle) hspan hroom

omit [IsOrderedAddMonoid T] in
theorem cooldown_stateLocked (b : CircuitBreaker T) (now : T) :
    (b.stateLocked now).cooldown = b.cooldown :=
  congrArg Prod.snd (CircuitBreaker.settings_step b ⟨.state, now⟩)

/-- Half-opening takes one of the cooldowns that are left. -/
theorem allow (h : Admits b workers busy deadline now admitted) (htracked : Tracked b now)
    (hdeadline : now ≤ deadline) (hbusy : busy < workers)
    (hallowed : (b.stateLocked now).state ≠ .opened) :
    ∃ rest, admitted = rest + 1 ∧
      Admits (b.stateLocked now) workers (busy + 1) deadline now rest := by
  obtain ⟨times, htracks⟩ := htracked
  have hmul : ∀ n, workers ≤ (n + 1) * workers :=
    fun n => Nat.le_mul_of_pos_left _ n.succ_pos
  cases h with
  | closed n hstate hspan hroom =>
      have hshort : (b.consecutiveFailures : Int) < b.threshold := by
        rw [htracks.failures]
        exact htracks.closed.mp hstate
      have hworkers : (workers : Int) ≤ (n + 1) * workers := by exact_mod_cast hmul n
      obtain ⟨rest, rfl⟩ := Nat.exists_eq_succ_of_ne_zero
        (show admitted ≠ 0 from fun hzero => by omega)
      rw [CircuitBreaker.stateLocked_of_ne (by simp [hstate])]
      refine ⟨rest, rfl, .closed n hstate hspan ?_⟩
      push_cast at hroom ⊢
      omega
  | probing n hstate hspan hroom =>
      have hworkers := hmul n
      obtain ⟨rest, rfl⟩ := Nat.exists_eq_succ_of_ne_zero
        (show admitted ≠ 0 from fun hzero => by omega)
      refine ⟨rest, rfl, .probing n ?_ ((cooldown_stateLocked b now).symm ▸ hspan)
        (by omega)⟩
      obtain heq | ⟨openedAt, -, -, -, heq⟩ := CircuitBreaker.stateLocked_cases b now
      · exact heq.symm ▸ hstate
      · simp [heq]
  | paused n failedAt hstate hopened hpast hspan hroom =>
      have hlate : b.cooldown ≤ now - failedAt := by
        by_contra hearly
        rw [CircuitBreaker.stateLocked_of_early hopened (not_le.mp hearly)] at hallowed
        exact hallowed hstate
      have hleft : deadline - now + b.cooldown < (n + 1) • b.cooldown := by
        calc deadline - now + b.cooldown
            ≤ deadline - now + (now - failedAt) := add_le_add_right hlate _
          _ = deadline - failedAt := sub_add_sub_cancel ..
          _ < (n + 1) • b.cooldown := hspan
      rw [succ_nsmul, add_lt_add_iff_right] at hleft
      cases n with
      | zero =>
          rw [zero_nsmul] at hleft
          exact absurd hleft (sub_nonneg.mpr hdeadline).not_gt
      | succ n =>
          have hworkers := hmul n
          obtain ⟨rest, rfl⟩ := Nat.exists_eq_succ_of_ne_zero
            (show admitted ≠ 0 from fun hzero => by omega)
          rw [CircuitBreaker.stateLocked_of_late hstate hopened hlate]
          exact ⟨rest, rfl, .probing n (by simp) hleft (by omega)⟩

/-- A failure makes room for nothing, and starts the cooldown if it opens the breaker. -/
theorem recordFailure (h : Admits b workers (busy + 1) deadline now admitted)
    (htracked : Tracked b now) (hbusy : busy + 1 ≤ workers) :
    Admits (b.recordFailure now) workers busy deadline now admitted := by
  obtain ⟨times, htracks⟩ := htracked
  by_cases hopens : b.threshold ≤ (b.consecutiveFailures + 1 : Int)
  · rw [CircuitBreaker.recordFailure_of_le hopens]
    cases h with
    | closed n hstate hspan hroom =>
        have hshort : (b.consecutiveFailures : Int) < b.threshold := by
          rw [htracks.failures]
          exact htracks.closed.mp hstate
        refine .paused n now rfl rfl le_rfl hspan ?_
        have hsplit : ((n : Int) + 1) * workers = n * workers + workers := by ring
        rw [hsplit] at hroom
        have hcast : ((n * workers : Nat) : Int) = n * workers := by push_cast; ring
        omega
    | probing n hstate hspan hroom =>
        refine .paused n now rfl rfl le_rfl hspan ?_
        rw [Nat.succ_mul] at hroom
        omega
    | paused n failedAt hstate hopened hpast hspan hroom =>
        exact .paused n now rfl rfl le_rfl
          ((sub_le_sub_left hpast deadline).trans_lt hspan) hroom
  · have hstate : b.state = .closed := by
      refine htracks.closed.mpr ?_
      rw [← htracks.failures]
      omega
    rw [CircuitBreaker.recordFailure_of_lt (not_le.mp hopens)]
    cases h with
    | closed n _ hspan hroom =>
        refine .closed n hstate hspan ?_
        push_cast at hroom ⊢
        omega
    | probing n hne => exact absurd hstate hne
    | paused n failedAt hopened => cases hstate.symm.trans hopened

end Admits

/-! ## What the workers still request -/

/-- The attempts that a call of `fetch` may make. -/
def BaseScraper.attempts (scraper : BaseScraper T) : Nat :=
  (scraper.maxAttempts - 1).toNat + 1

namespace FetchPhase

def busy : FetchPhase T → Nat
  | .idle => 0
  | _ => 1

/-- The attempts that are left in a phase. -/
def left (attempts : Nat) : FetchPhase T → Nat
  | .idle => 0
  | .building _ => attempts
  | .attempting _ _ attempt => attempts + 1 - attempt
  | .ended _ => 0

def InRange (attempts : Nat) : FetchPhase T → Prop
  | .attempting _ _ attempt => 1 ≤ attempt ∧ attempt ≤ attempts
  | _ => True

end FetchPhase

theorem sum_update {W P : Type} [Fintype W] [DecidableEq W] (f : P → Nat) (phases : W → P)
    (worker : W) (phase : P) :
    ∑ w, f (Function.update phases worker phase w) + f (phases worker) =
      ∑ w, f (phases w) + f phase := by
  have hothers : ∑ w ∈ Finset.univ.erase worker,
        f (Function.update phases worker phase w) =
      ∑ w ∈ Finset.univ.erase worker, f (phases w) := by
    refine Finset.sum_congr rfl fun w hw => ?_
    rw [Function.update_of_ne (Finset.ne_of_mem_erase hw)]
  rw [← Finset.add_sum_erase _ _ (Finset.mem_univ worker), hothers,
    ← Finset.add_sum_erase _ (fun w => f (phases w)) (Finset.mem_univ worker),
    Function.update_self]
  omega

namespace Portal

variable {W : Type} [DecidableEq W] [Fintype W]

def busy (portal : Portal W T) : Nat := ∑ w, (portal.phases w).busy

def left (portal : Portal W T) : Nat :=
  ∑ w, (portal.phases w).left portal.scraper.attempts

section Phases

variable {portal : Portal W T} {worker : W} {phase : FetchPhase T}

theorem busy_setPhase (portal : Portal W T) (worker : W) (phase : FetchPhase T) :
    (portal.setPhase worker phase).busy + (portal.phases worker).busy =
      portal.busy + phase.busy :=
  sum_update FetchPhase.busy portal.phases worker phase

theorem left_setPhase (portal : Portal W T) (worker : W) (phase : FetchPhase T) :
    (portal.setPhase worker phase).left +
        (portal.phases worker).left portal.scraper.attempts =
      portal.left + phase.left portal.scraper.attempts :=
  sum_update (FetchPhase.left portal.scraper.attempts) portal.phases worker phase

omit [DecidableEq W] in
theorem busy_le_card (portal : Portal W T) : portal.busy ≤ Fintype.card W := by
  have hle : ∀ w ∈ Finset.univ, (portal.phases w).busy ≤ 1 := by
    intro w _
    cases portal.phases w <;> simp [FetchPhase.busy]
  simpa [busy] using Finset.sum_le_card_nsmul Finset.univ _ 1 hle

theorem busy_lt_card (hidle : portal.phases worker = .idle) :
    portal.busy < Fintype.card W := by
  have hone := busy_setPhase portal worker (.ended (.ok ""))
  have hle := (portal.setPhase worker (.ended (.ok ""))).busy_le_card
  simp only [hidle, FetchPhase.busy] at hone
  omega

omit [DecidableEq W] in
theorem left_le (portal : Portal W T)
    (hrange : ∀ w, (portal.phases w).InRange portal.scraper.attempts) :
    portal.left ≤ portal.scraper.attempts * portal.busy := by
  rw [left, busy, Finset.mul_sum]
  refine Finset.sum_le_sum fun w _ => ?_
  have hw := hrange w
  cases hphase : portal.phases w with
  | attempting visit url attempt =>
      rw [hphase] at hw
      simp only [FetchPhase.left, FetchPhase.busy, Nat.mul_one]
      have hfirst := hw.1
      omega
  | _ => simp [FetchPhase.left, FetchPhase.busy]

end Phases

section Breakers

variable (portal : Portal W T) (breaker : CircuitBreaker T)

omit [DecidableEq W] [Fintype W] in
@[simp] theorem phases_setBreaker : (portal.setBreaker breaker).phases = portal.phases := rfl

omit [DecidableEq W] in
@[simp] theorem busy_setBreaker : (portal.setBreaker breaker).busy = portal.busy := rfl

omit [DecidableEq W] in
@[simp] theorem left_setBreaker : (portal.setBreaker breaker).left = portal.left := rfl

omit [DecidableEq W] [Fintype W] in
@[simp] theorem attempts_setBreaker :
    (portal.setBreaker breaker).scraper.attempts = portal.scraper.attempts := rfl

end Breakers

/-- What holds of the portal whatever the workers have done. -/
structure Sound (portal : Portal W T) (now : T) : Prop where
  tracked : Tracked portal.scraper.circuitBreaker now
  inRange : ∀ w, (portal.phases w).InRange portal.scraper.attempts

/-- No more than `requests` are sent until the deadline while nothing succeeds. -/
def Affords (portal : Portal W T) (deadline now : T) (requests : Nat) : Prop :=
  ∃ admitted, Admits portal.scraper.circuitBreaker (Fintype.card W) portal.busy deadline
      now admitted ∧
    portal.left + portal.scraper.attempts * admitted ≤ requests

def settings (portal : Portal W T) : Int × Int × T :=
  (portal.scraper.maxAttempts, portal.scraper.circuitBreaker.settings)

omit [Fintype W] in
theorem settings_step (portal : Portal W T) (turn : Turn W T) :
    (portal.step turn).settings = portal.settings := by
  have hlook := CircuitBreaker.settings_step portal.scraper.circuitBreaker
    ⟨.allow, turn.now⟩
  have hfailure := CircuitBreaker.settings_step portal.scraper.circuitBreaker
    ⟨.recordFailure, turn.now⟩
  unfold step
  dsimp only
  split
  · split <;> exact congrArg (Prod.mk _) hlook
  · split <;> rfl
  · split
    · rfl
    · split <;> rfl
  · rfl
  · exact congrArg (Prod.mk _) hfailure

omit [Fintype W] in
theorem settings_after (portal : Portal W T) (turns : List (Turn W T)) :
    (portal.after turns).settings = portal.settings := by
  induction turns generalizing portal with
  | nil => rfl
  | cons turn turns ih => rw [after_cons, ih, settings_step]

omit [Fintype W] in
theorem step_of_idle {portal : Portal W T} {turn : Turn W T}
    (hidle : portal.phases turn.worker = .idle) :
    portal.step turn =
      let breaker := portal.scraper.circuitBreaker.stateLocked turn.now
      if breaker.state ≠ .opened then
        (portal.setBreaker breaker).setPhase turn.worker (.building turn.visit)
      else portal.setBreaker breaker := by
  simp only [step, hidle, CircuitBreaker.allow]
  by_cases h : (portal.scraper.circuitBreaker.stateLocked turn.now).state = .opened <;>
    simp [h]

section Steps

variable [IsOrderedAddMonoid T] {portal : Portal W T} {turn : Turn W T}
  {deadline now : T} {requests : Nat}

omit [Fintype W] [DecidableEq W] in
theorem Sound.mono (h : portal.Sound now) (hle : now ≤ turn.now) :
    portal.Sound turn.now := by
  obtain ⟨times, htracks⟩ := h.tracked
  exact ⟨⟨times, htracks.mono hle⟩, h.inRange⟩

omit [Fintype W] [IsOrderedAddMonoid T] in
theorem Sound.setPhase (h : portal.Sound now) (worker : W) {phase : FetchPhase T}
    (hphase : phase.InRange portal.scraper.attempts) :
    (portal.setPhase worker phase).Sound now := by
  refine ⟨h.tracked, fun w => ?_⟩
  by_cases hw : w = worker
  · subst hw
    rw [phases_setPhase]
    exact hphase
  · rw [phases_setPhase_of_ne _ hw]
    exact h.inRange w

omit [Fintype W] [DecidableEq W] [IsOrderedAddMonoid T] in
theorem Sound.setBreaker (h : portal.Sound now) {breaker : CircuitBreaker T}
    (hbreaker : Tracked breaker now) : (portal.setBreaker breaker).Sound now :=
  ⟨hbreaker, h.inRange⟩

omit [Fintype W] in
theorem Sound.step (h : portal.Sound now) (hle : now ≤ turn.now) :
    (portal.step turn).Sound turn.now := by
  have hnow := h.mono hle
  obtain ⟨times, htracks⟩ := hnow.tracked
  have hasked := hnow.setBreaker ⟨times, htracks.stateLocked⟩
  have hfirst : 1 ≤ portal.scraper.attempts := Nat.le_add_left _ _
  unfold Portal.step
  dsimp only
  split
  · split
    · exact hasked.setPhase _ trivial
    · exact hasked
  · split
    · exact hnow.setPhase _ trivial
    · exact hnow.setPhase _ ⟨le_rfl, hfirst⟩
  · next visit url attempt hphase =>
    have hattempt := h.inRange turn.worker
    rw [hphase] at hattempt
    split
    · exact hnow.setPhase _ trivial
    · split
      · next hagain =>
        refine hnow.setPhase _ ⟨Nat.le_add_left _ _, ?_⟩
        unfold BaseScraper.attempts
        omega
      · exact hnow.setPhase _ trivial
  · exact (hnow.setBreaker ⟨[], .recordSuccess _ turn.now⟩).setPhase _ trivial
  · exact (hnow.setBreaker ⟨_, htracks.recordFailure turn.now⟩).setPhase _ trivial

omit [DecidableEq W] in
theorem Affords.mono (h : portal.Affords deadline now requests) (hle : now ≤ turn.now) :
    portal.Affords deadline turn.now requests := by
  obtain ⟨admitted, hadmits, hrequests⟩ := h
  exact ⟨admitted, hadmits.mono hle, hrequests⟩

omit [IsOrderedAddMonoid T] in
/-- A step of a fetch on its own spends what it sends of the attempts that are left. -/
theorem Affords.setPhase (h : portal.Affords deadline now requests) {worker : W}
    {phase : FetchPhase T} {sent : Nat}
    (hbusy : phase.busy = (portal.phases worker).busy)
    (hleft : sent + phase.left portal.scraper.attempts ≤
      (portal.phases worker).left portal.scraper.attempts) :
    ∃ rest, (portal.setPhase worker phase).Affords deadline now rest ∧
      sent + rest ≤ requests := by
  obtain ⟨admitted, hadmits, hrequests⟩ := h
  have hsame : (portal.setPhase worker phase).busy = portal.busy := by
    have hcount := portal.busy_setPhase worker phase
    omega
  have hspent := portal.left_setPhase worker phase
  refine ⟨_, ⟨admitted, hsame ▸ hadmits, le_rfl⟩, ?_⟩
  rw [scraper_setPhase]
  omega

/-- A fetch that gets through takes its attempts from what is still admitted. -/
theorem Affords.allow (h : portal.Affords deadline now requests)
    (hsound : portal.Sound now) (hdeadline : now ≤ deadline) {worker : W}
    (hidle : portal.phases worker = .idle) (visit : Visit T)
    (hallowed : (portal.scraper.circuitBreaker.stateLocked now).state ≠ .opened) :
    ((portal.setBreaker (portal.scraper.circuitBreaker.stateLocked now)).setPhase worker
      (.building visit)).Affords deadline now requests := by
  obtain ⟨admitted, hadmits, hrequests⟩ := h
  obtain ⟨rest, rfl, hrest⟩ :=
    hadmits.allow hsound.tracked hdeadline (busy_lt_card hidle) hallowed
  set asked := portal.setBreaker (portal.scraper.circuitBreaker.stateLocked now) with hasked
  have hbusy := asked.busy_setPhase worker (.building visit)
  have hleft := asked.left_setPhase worker (.building visit)
  simp only [hasked, phases_setBreaker, hidle, FetchPhase.busy, FetchPhase.left,
    busy_setBreaker, left_setBreaker, attempts_setBreaker, Nat.add_zero] at hbusy hleft
  refine ⟨rest, ?_, ?_⟩
  · rw [hasked, hbusy]
    exact hrest
  · rw [scraper_setPhase, hasked, attempts_setBreaker, hleft]
    rw [Nat.mul_succ] at hrequests
    omega

/-- A failure ends a fetch that had no attempts left. -/
theorem Affords.recordFailure (h : portal.Affords deadline now requests)
    (hsound : portal.Sound now) {worker : W} {page : Except FetchError String}
    (hended : portal.phases worker = .ended page) :
    ((portal.setBreaker (portal.scraper.circuitBreaker.recordFailure now)).setPhase worker
      .idle).Affords deadline now requests := by
  obtain ⟨admitted, hadmits, hrequests⟩ := h
  set told := portal.setBreaker (portal.scraper.circuitBreaker.recordFailure now) with htold
  have hbusy := told.busy_setPhase worker .idle
  have hleft := told.left_setPhase worker .idle
  simp only [htold, phases_setBreaker, hended, FetchPhase.busy, FetchPhase.left,
    busy_setBreaker, left_setBreaker, Nat.add_zero] at hbusy hleft
  rw [← hbusy] at hadmits
  refine ⟨admitted, ?_, ?_⟩
  · exact hadmits.recordFailure hsound.tracked (hbusy ▸ portal.busy_le_card)
  · rw [scraper_setPhase, htold, attempts_setBreaker, hleft]
    exact hrequests

theorem Affords.step (h : portal.Affords deadline now requests) (hsound : portal.Sound now)
    (hle : now ≤ turn.now) (hdeadline : turn.now ≤ deadline)
    (hfails : portal.succeeds turn = false) :
    ∃ rest, (portal.step turn).Affords deadline turn.now rest ∧
      portal.sends turn + rest ≤ requests := by
  have hnow := h.mono hle
  have hsound' := hsound.mono hle
  cases hphase : portal.phases turn.worker with
  | idle =>
      have hsends : portal.sends turn = 0 := by simp [sends, hphase]
      refine ⟨requests, ?_, by rw [hsends, Nat.zero_add]⟩
      simp only [step_of_idle hphase]
      split
      · next hallowed => exact hnow.allow hsound' hdeadline hphase turn.visit hallowed
      · next hrefused =>
        obtain heq | ⟨openedAt, -, -, -, heq⟩ :=
          CircuitBreaker.stateLocked_cases portal.scraper.circuitBreaker turn.now
        · rw [heq]
          exact hnow
        · simp [heq] at hrefused
  | building visit =>
      have hsends : portal.sends turn = 0 := by simp [sends, hphase]
      simp only [hsends, Portal.step, hphase]
      split
      · exact hnow.setPhase (by simp [hphase, FetchPhase.busy])
          (by simp [FetchPhase.left])
      · exact hnow.setPhase (by simp [hphase, FetchPhase.busy])
          (by simp [hphase, FetchPhase.left])
  | attempting visit url attempt =>
      have hsends : portal.sends turn = 1 := by simp [sends, hphase]
      have hattempt := hsound.inRange turn.worker
      rw [hphase] at hattempt
      have hlast : 1 + 0 ≤ portal.scraper.attempts + 1 - attempt := by
        have hle := hattempt.2
        omega
      simp only [hsends, Portal.step, hphase]
      split
      · exact hnow.setPhase (by simp [hphase, FetchPhase.busy])
          (by simpa [hphase, FetchPhase.left] using hlast)
      · split
        · next hagain =>
          have hmore : attempt + 1 ≤ portal.scraper.attempts := by
            unfold BaseScraper.attempts
            omega
          refine hnow.setPhase (by simp [hphase, FetchPhase.busy]) ?_
          simp only [hphase, FetchPhase.left]
          omega
        · exact hnow.setPhase (by simp [hphase, FetchPhase.busy])
            (by simpa [hphase, FetchPhase.left] using hlast)
  | ended page =>
      have hsends : portal.sends turn = 0 := by simp [sends, hphase]
      refine ⟨requests, ?_, by rw [hsends, Nat.zero_add]⟩
      cases page with
      | ok html => simp [succeeds, hphase] at hfails
      | error error =>
          simp only [Portal.step, hphase]
          exact hnow.recordFailure hsound' hphase

end Steps

/-! ## Runs -/

def NonDecreasing (turns : List (Turn W T)) : Prop :=
  turns.Pairwise fun first second => first.now ≤ second.now

section Runs

variable [IsOrderedAddMonoid T] {portal : Portal W T} {turns : List (Turn W T)}
  {deadline now : T} {requests : Nat}

theorem Affords.requests_le (h : portal.Affords deadline now requests)
    (hsound : portal.Sound now) (hclock : NonDecreasing turns)
    (hnow : ∀ turn ∈ turns, now ≤ turn.now)
    (hdeadline : ∀ turn ∈ turns, turn.now ≤ deadline) (hfails : portal.Fails turns) :
    portal.requests turns ≤ requests := by
  induction turns generalizing portal now requests with
  | nil => exact Nat.zero_le _
  | cons turn turns ih =>
      obtain ⟨hfirst, hclock⟩ := List.pairwise_cons.mp hclock
      obtain ⟨hfail, hfails⟩ := hfails
      have hle := hnow turn (.head _)
      obtain ⟨rest, hrest, hspent⟩ :=
        h.step hsound hle (hdeadline turn (.head _)) hfail
      have hlater := ih hrest (hsound.step hle) hclock hfirst
        (fun later hlater => hdeadline later (.tail _ hlater)) hfails
      rw [Portal.requests]
      omega

omit [Fintype W] in
theorem Sound.after (h : portal.Sound now) (hclock : NonDecreasing turns)
    (hnow : ∀ turn ∈ turns, now ≤ turn.now) {later : T} (hle : now ≤ later)
    (hlater : ∀ turn ∈ turns, turn.now ≤ later) : (portal.after turns).Sound later := by
  induction turns generalizing portal now with
  | nil =>
      obtain ⟨times, htracks⟩ := h.tracked
      exact ⟨⟨times, htracks.mono hle⟩, h.inRange⟩
  | cons turn turns ih =>
      obtain ⟨hfirst, hclock⟩ := List.pairwise_cons.mp hclock
      exact ih (h.step (hnow turn (.head _))) hclock hfirst (hlater turn (.head _))
        fun later hlater' => hlater later (.tail _ hlater')

omit [DecidableEq W] [IsOrderedAddMonoid T] in
/-- At any moment what is left of the fetches in progress is paid by the bound. -/
theorem Sound.affords (h : portal.Sound now) {n : Nat}
    (hspan : deadline - now < (n + 1) • portal.scraper.circuitBreaker.cooldown) :
    portal.Affords deadline now (portal.scraper.attempts *
      ((portal.scraper.circuitBreaker.threshold - 1).toNat +
        (n + 1) * Fintype.card W)) := by
  have hpositive := portal.scraper.circuitBreaker.threshold_pos
  have hbusy := portal.busy_le_card
  have hworkers : Fintype.card W ≤ (n + 1) * Fintype.card W :=
    Nat.le_mul_of_pos_left _ n.succ_pos
  refine ⟨(portal.scraper.circuitBreaker.threshold - 1).toNat +
    (n + 1) * Fintype.card W - portal.busy, ?_, ?_⟩
  · by_cases hstate : portal.scraper.circuitBreaker.state = .closed
    · refine .closed n hstate hspan ?_
      have hcast : (((n + 1) * Fintype.card W : Nat) : Int) =
          (n + 1) * Fintype.card W := by push_cast; ring
      omega
    · exact .probing n hstate hspan (by omega)
  · calc portal.left + portal.scraper.attempts *
          ((portal.scraper.circuitBreaker.threshold - 1).toNat +
            (n + 1) * Fintype.card W - portal.busy)
        ≤ portal.scraper.attempts * portal.busy + portal.scraper.attempts *
            ((portal.scraper.circuitBreaker.threshold - 1).toNat +
              (n + 1) * Fintype.card W - portal.busy) :=
          Nat.add_le_add_right (portal.left_le h.inRange) _
      _ = portal.scraper.attempts *
            ((portal.scraper.circuitBreaker.threshold - 1).toNat +
              (n + 1) * Fintype.card W) := by
          rw [← Nat.mul_add]
          congr 1
          omega

variable {failureThreshold : Int} {cooldownSeconds : T}

/--
However the workers of a portal take their turns, in any stretch of a run that is
shorter than `n + 1` cooldowns and in which nothing succeeds, they send no more than
the attempts of as many fetches as it takes to open the breaker once and to be let
through by it, each of them, `n` times more.
-/
theorem requests_to_a_failing_portal_le
    (hnew : CircuitBreaker.new failureThreshold cooldownSeconds =
      .ok portal.scraper.circuitBreaker)
    (hidle : ∀ worker, portal.phases worker = .idle) {before : List (Turn W T)}
    (hclock : NonDecreasing (before ++ turns)) {n : Nat}
    (hspan : ∀ first ∈ turns, ∀ last ∈ turns,
      last.now - first.now < (n + 1) • cooldownSeconds)
    (hfails : (portal.after before).Fails turns) :
    (portal.after before).requests turns ≤ portal.scraper.attempts *
      ((failureThreshold - 1).toNat + (n + 1) * Fintype.card W) := by
  obtain ⟨hbefore, hturns, hlater⟩ := List.pairwise_append.mp hclock
  obtain ⟨rfl, rfl⟩ := CircuitBreaker.threshold_new hnew
  have hstart : ∀ now, portal.Sound now := fun now =>
    ⟨⟨[], CircuitBreaker.tracks_new hnew now⟩, fun w => by
      rw [hidle w]
      trivial⟩
  cases turns with
  | nil => exact Nat.zero_le _
  | cons first rest =>
      have hsound : (portal.after before).Sound first.now := by
        cases before with
        | nil => exact hstart _
        | cons turn before =>
            refine (hstart turn.now).after hbefore ?_ (hlater turn (.head _) first (.head _))
              fun later hmem => hlater later hmem first (.head _)
            exact List.forall_mem_cons.mpr ⟨le_rfl, (List.pairwise_cons.mp hbefore).1⟩
      have hfirst : ∀ turn ∈ first :: rest, first.now ≤ turn.now :=
        List.forall_mem_cons.mpr ⟨le_rfl, (List.pairwise_cons.mp hturns).1⟩
      obtain ⟨last, hmem, hlast⟩ : ∃ last ∈ first :: rest,
          ∀ turn ∈ first :: rest, turn.now ≤ last.now := by
        obtain hnil | ⟨init, last, hconcat⟩ := (first :: rest).eq_nil_or_concat
        · cases hnil
        · rw [List.concat_eq_append] at hconcat
          rw [hconcat] at hturns ⊢
          refine ⟨last, by simp, List.forall_mem_append.mpr ⟨fun turn hturn => ?_, by simp⟩⟩
          exact (List.pairwise_append.mp hturns).2.2 turn hturn last (.head _)
      obtain ⟨hattempts, hsettings⟩ := Prod.mk.inj (portal.settings_after before)
      obtain ⟨hthreshold, hcooldown⟩ := Prod.mk.inj hsettings
      have haffords : (portal.after before).Affords last.now first.now _ :=
        hsound.affords (hcooldown.symm ▸ hspan first (.head _) last hmem)
      have hbound := haffords.requests_le hsound hturns hfirst hlast hfails
      rwa [hthreshold, BaseScraper.attempts, hattempts] at hbound

end Runs

/-! ## Two workers and a portal that times out -/

def timeout : Visit Int where
  query := ⟨"idealista", .empty⟩
  allowedAt := 0
  buildUrl _ := .ok "https://www.idealista.com/venta-viviendas/"
  fetchOnce _ _ := .error ⟨"timed out", true⟩
  recordedAt := 0
  parse _ _ := .ok []

def idlePortal : Portal (Fin 2) Int where
  scraper := ⟨"idealista",
    ⟨1, 7, .closed, 0, none, CircuitBreaker.threshold_one, by decide⟩, 3⟩
  phases _ := .idle

/-- Both are let through, and fail after their last attempt. -/
def timeouts : List (Turn (Fin 2) Int) :=
  (List.range 6).flatMap fun now => [⟨0, now / 2, timeout⟩, ⟨1, now / 2, timeout⟩]

theorem requests_to_a_failing_portal_le_timeouts : idlePortal.requests timeouts ≤ 6 := by
  have hnew : CircuitBreaker.new 1 7 = .ok idlePortal.scraper.circuitBreaker := rfl
  have hclock : NonDecreasing ([] ++ timeouts) := by
    unfold NonDecreasing
    decide
  have hspan : ∀ first ∈ timeouts, ∀ last ∈ timeouts,
      last.now - first.now < (0 + 1) • (7 : Int) := by decide
  have hfails : (idlePortal.after []).Fails timeouts := by
    rw [after_nil]
    decide
  exact requests_to_a_failing_portal_le hnew (fun _ => rfl) hclock hspan hfails

example : idlePortal.requests timeouts = 6 := by decide

end Portal

end RealEstateTracker.Scraping
