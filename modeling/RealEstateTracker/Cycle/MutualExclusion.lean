import RealEstateTracker.Cycle.Deadlock
import RealEstateTracker.Foundation.FairLocking

/-!
# Mutual exclusion of the workers

A worker between two steps of its program holds what the steps before took and did
not give back.  So the locks that it takes around a part of its work admit as many
workers to that part as the lock has capacity.
-/

namespace RealEstateTracker.Cycle

open Foundation Foundation.Locking Domain Application LockSteps

/-- The write lock stays with the session across the step. -/
def LockStep.keepsWriting : LockStep → Bool
  | .commit | .release .databaseLock => false
  | _ => true

/-! ## Steps that are done -/

namespace LockSession

/-- The lock operations of steps after which the worker goes on. -/
def opsOf (s : LockSession) : List LockStep → List (LockOp CycleLock)
  | [] => []
  | .acquire lock :: rest => .acquire lock :: s.opsOf rest
  | .release lock :: rest => .release lock :: s.opsOf rest
  | .write :: rest => opsOf { s with pending := true } rest
  | .select :: rest | .flush :: rest => s.flushOps ++ s.flushed.opsOf rest
  | .commit :: rest => s.flushOps ++ s.flushed.endOps ++ idle.opsOf rest

theorem lockOps_eq_opsOf (s : LockSession) {done : List LockStep}
    (h : .commit ∉ done) (left : List LockStep) :
    s.lockOps (done ++ left) = s.opsOf done ++ (s.after done).lockOps left := by
  induction done generalizing s with
  | nil => rfl
  | cons step done ih =>
      have hdone : .commit ∉ done := fun hmem => h (.tail _ hmem)
      cases step with
      | acquire lock => exact congrArg (LockOp.acquire lock :: ·) (ih s hdone)
      | release lock => exact congrArg (LockOp.release lock :: ·) (ih s hdone)
      | write => exact ih { s with pending := true } hdone
      | select =>
          simp only [List.cons_append, lockOps, opsOf, after, ih s.flushed hdone,
            List.append_assoc]
      | flush =>
          simp only [List.cons_append, lockOps, opsOf, after, ih s.flushed hdone,
            List.append_assoc]
      | commit => exact absurd (.head _) h

theorem opsOf_append (s : LockSession) {first second : List LockStep}
    (h : .commit ∉ first ++ second) :
    s.opsOf (first ++ second) = s.opsOf first ++ (s.after first).opsOf second := by
  have hfirst : .commit ∉ first := fun hmem => h (List.mem_append_left _ hmem)
  have hsecond : .commit ∉ second := fun hmem => h (List.mem_append_right _ hmem)
  have hboth := lockOps_eq_opsOf s h []
  rw [List.append_assoc, lockOps_eq_opsOf s hfirst, lockOps_eq_opsOf _ hsecond,
    after_append, ← List.append_assoc] at hboth
  exact (List.append_cancel_right hboth).symm

theorem release_not_mem_flushOps (s : LockSession) (lock : CycleLock) :
    .release lock ∉ s.flushOps := by
  rw [flushOps]
  split <;> simp

theorem release_not_mem_opsOf (s : LockSession) {steps : List LockStep}
    (h : Statements steps) (lock : CycleLock) : .release lock ∉ s.opsOf steps := by
  induction steps generalizing s with
  | nil => exact List.not_mem_nil
  | cons step steps ih =>
      obtain ⟨hstep, hsteps⟩ := List.forall_mem_cons.mp h
      have hflush : .release lock ∉ s.flushOps ++ s.flushed.opsOf steps := by
        rw [List.mem_append, not_or]
        exact ⟨release_not_mem_flushOps s lock, ih s.flushed hsteps⟩
      cases step with
      | select => exact hflush
      | flush => exact hflush
      | write => exact ih { s with pending := true } hsteps
      | acquire taken => cases hstep
      | release given => cases hstep
      | commit => cases hstep

theorem release_mem_lockOps (s : LockSession) {steps : List LockStep} {lock : CycleLock}
    (h : .release lock ∈ steps) : .release lock ∈ s.lockOps steps := by
  induction steps generalizing s with
  | nil => cases h
  | cons step steps ih =>
      obtain rfl | hsteps := List.mem_cons.mp h
      · exact .head _
      cases step with
      | acquire taken => exact .tail _ (ih s hsteps)
      | release given => exact .tail _ (ih s hsteps)
      | write => exact ih _ hsteps
      | select => exact List.mem_append_right _ (ih s.flushed hsteps)
      | flush => exact List.mem_append_right _ (ih s.flushed hsteps)
      | commit => exact List.mem_append_right _ (ih idle hsteps)

theorem release_mem_of_writing {s : LockSession} (h : s.writing = true)
    (steps : List LockStep) : .release .databaseLock ∈ s.lockOps steps := by
  induction steps generalizing s with
  | nil => simp [lockOps, endOps, h]
  | cons step steps ih =>
      have hflushed : s.flushed.writing = true := by simp [h]
      cases step with
      | acquire lock => exact .tail _ (ih h)
      | release lock => exact .tail _ (ih h)
      | write => exact ih (s := { s with pending := true }) h
      | select => exact List.mem_append_right _ (ih hflushed)
      | flush => exact List.mem_append_right _ (ih hflushed)
      | commit =>
          refine List.mem_append_left _ (List.mem_append_right _ ?_)
          simp [endOps, h]

theorem databaseLock_mem_heldAfter (s : LockSession) {done : List LockStep}
    {held : List CycleLock} (hheld : s.writing = true → .databaseLock ∈ held)
    (hkeeps : ∀ step ∈ done, step.keepsWriting = true)
    (hwriting : (s.after done).writing = true) :
    .databaseLock ∈ heldAfter held (s.opsOf done) := by
  induction done generalizing s held with
  | nil => exact hheld hwriting
  | cons step done ih =>
      obtain ⟨hstep, hrest⟩ := List.forall_mem_cons.mp hkeeps
      have hflush (hafter : (s.flushed.after done).writing = true) :
          .databaseLock ∈ heldAfter held (s.flushOps ++ s.flushed.opsOf done) := by
        rw [heldAfter_append]
        refine ih s.flushed (fun hflushed => ?_) hrest hafter
        cases hs : s.writing with
        | true =>
            exact mem_heldAfter (hheld hs) (release_not_mem_flushOps s .databaseLock)
        | false =>
            have hpending : s.pending = true := by simpa [hs] using hflushed
            simp [flushOps, hs, hpending, heldAfter]
      cases step with
      | acquire lock => exact ih s (fun hs => .tail _ (hheld hs)) hrest hwriting
      | release lock =>
          have hne : CycleLock.databaseLock ≠ lock := by
            rintro rfl
            cases hstep
          exact ih s (fun hs => (List.mem_erase_of_ne hne).mpr (hheld hs)) hrest hwriting
      | write => exact ih { s with pending := true } hheld hrest hwriting
      | select => exact hflush hwriting
      | flush => exact hflush hwriting
      | commit => cases hstep

end LockSession

/-! ## Where a worker stands -/

open LockSession

/-- The worker has done the steps `done` of its program and comes to `step`. -/
structure Reached (program done : List LockStep) (step : LockStep)
    (left : List LockStep) (thread : Thread CycleLock) : Prop where
  program : program = done ++ step :: left
  rest : thread.rest = (idle.after done).lockOps (step :: left)

/-- The next step of the worker lies in `_resolve_candidates`. -/
def Resolving (planned : PlannedQuery) (visit : QueryVisit)
    (thread : Thread CycleLock) : Prop :=
  ∃ done step left rest, resolveCandidates visit.resolution = done ++ step :: left ∧
    Reached (runOne planned visit)
      ([.acquire (.portalSemaphore planned.portalSlug),
        .acquire (.signatureLock planned.signature)] ++ done) step (left ++ rest) thread

/-- The worker has its turn with an alert, and its next step lies in that turn. -/
def Persisting (planned : PlannedQuery) (visit : QueryVisit)
    (thread : Thread CycleLock) : Prop :=
  ∃ n alert before done step left rest, planned.alerts[n]? = some alert ∧ done ≠ [] ∧
    persistAlert alert (visit.alerts n) = done ++ step :: left ∧
    Reached (runOne planned visit) (before ++ done) step (left ++ rest) thread

/-- The session of the worker has flushed a write and has not ended since. -/
def Writing (planned : PlannedQuery) (visit : QueryVisit)
    (thread : Thread CycleLock) : Prop :=
  ∃ done step left, Reached (runOne planned visit) done step left thread ∧
    (idle.after done).writing = true

namespace LockSteps

theorem statements_resolveCandidates (resolution : Resolution) :
    Statements (resolveCandidates resolution) := by
  cases resolution with
  | scraped visit => exact statements_cons.mpr ⟨rfl, statements_scrapeCandidates visit⟩
  | hit => exact statements_cons.mpr ⟨rfl, statements_nil⟩
  | failed portalKnown => exact statements_cons.mpr ⟨rfl, statements_nil⟩

theorem statements_record (portalKnown : Bool) : Statements (record portalKnown) := by
  simp [record, LockStep.isStatement]

theorem keepsWriting_of_isStatement {step : LockStep} (h : step.isStatement = true) :
    step.keepsWriting = true := by
  cases step <;> first | rfl | cases h

theorem keepsWriting_of_mem_evaluateAndPersist {alerts : List SearchAlert}
    {visits : Nat → AlertVisit} {step : LockStep}
    (h : step ∈ evaluateAndPersist alerts visits) : step.keepsWriting = true := by
  obtain ⟨steps, hsteps, hstep⟩ := List.mem_flatten.mp h
  obtain ⟨n, hn, rfl⟩ := List.mem_mapIdx.mp hsteps
  obtain rfl | hstep := List.mem_cons.mp hstep
  · rfl
  obtain hstep | hstep := List.mem_append.mp hstep
  · exact keepsWriting_of_isStatement (statements_saved _ _ step hstep)
  · rw [List.mem_singleton.mp hstep]
    rfl

/-- All that a worker does before its commit leaves the write lock to its session. -/
theorem keepsWriting_of_mem_dropLast {planned : PlannedQuery} {visit : QueryVisit}
    {step : LockStep} (h : step ∈ (runOne planned visit).dropLast) :
    step.keepsWriting = true := by
  rw [runOne, List.dropLast_concat] at h
  obtain h | h := List.mem_append.mp h
  · obtain h | h := List.mem_append.mp h
    · obtain h | h := List.mem_append.mp h
      · obtain rfl | rfl := List.mem_pair.mp h <;> rfl
      · exact keepsWriting_of_isStatement (statements_resolveCandidates _ step h)
    · obtain rfl | rfl := List.mem_pair.mp h <;> rfl
  · cases hresolution : visit.resolution with
    | failed portalKnown =>
        rw [hresolution] at h
        exact keepsWriting_of_isStatement (statements_record portalKnown step h)
    | hit =>
        rw [hresolution] at h
        obtain h | h := List.mem_append.mp h
        · exact keepsWriting_of_isStatement (statements_loadCandidates _ step h)
        · exact keepsWriting_of_mem_evaluateAndPersist h
    | scraped scrape =>
        rw [hresolution] at h
        obtain h | h := List.mem_append.mp h
        · exact keepsWriting_of_isStatement (statements_loadCandidates _ step h)
        · exact keepsWriting_of_mem_evaluateAndPersist h

end LockSteps

namespace Reached

variable {planned : PlannedQuery} {visit : QueryVisit} {done left : List LockStep}
  {step : LockStep} {thread : Thread CycleLock}

theorem keepsWriting (h : Reached (runOne planned visit) done step left thread) :
    ∀ step ∈ done, step.keepsWriting = true := by
  intro taken htaken
  have hmem : taken ∈ (runOne planned visit).dropLast := by
    rw [h.program, List.dropLast_append_cons]
    exact List.mem_append_left _ htaken
  exact keepsWriting_of_mem_dropLast hmem

theorem commit_not_mem (h : Reached (runOne planned visit) done step left thread) :
    .commit ∉ done := by
  intro hcommit
  cases h.keepsWriting _ hcommit

/-- A worker that goes on holds what the steps that it has done leave it. -/
theorem held_eq (h : Reached (runOne planned visit) done step left thread)
    (hrest : thread.rest ≠ [])
    (hfollows : thread = ⟨[], []⟩ ∨ Follows (idle.lockOps (runOne planned visit)) thread) :
    thread.held = heldAfter [] (idle.opsOf done) := by
  obtain rfl | ⟨ops, hops, hheld⟩ := hfollows
  · exact absurd rfl hrest
  rw [h.program, lockOps_eq_opsOf idle h.commit_not_mem, ← h.rest] at hops
  rw [hheld, List.append_cancel_right hops]

theorem rest_ne_nil (h : Reached (runOne planned visit) done step left thread)
    {lock : CycleLock} (hmem : .release lock ∈ step :: left) : thread.rest ≠ [] := by
  rw [h.rest]
  exact List.ne_nil_of_mem (release_mem_lockOps _ hmem)

end Reached

section Holding

variable {planned : PlannedQuery} {visit : QueryVisit} {thread : Thread CycleLock}

theorem Resolving.holds (h : Resolving planned visit thread)
    (hfollows : thread = ⟨[], []⟩ ∨ Follows (idle.lockOps (runOne planned visit)) thread) :
    .portalSemaphore planned.portalSlug ∈ thread.held ∧
      .signatureLock planned.signature ∈ thread.held := by
  obtain ⟨done, step, left, rest, hsplit, hreached⟩ := h
  have hdone : Statements done := by
    have := statements_resolveCandidates visit.resolution
    rw [hsplit, statements_append] at this
    exact this.1
  have hrelease : LockStep.release (.signatureLock planned.signature) ∈
      step :: (left ++ rest) := by
    have hmem : LockStep.release (.signatureLock planned.signature) ∈
        runOne planned visit := by simp [runOne]
    rw [hreached.program] at hmem
    refine (List.mem_append.mp hmem).resolve_left fun hbefore => ?_
    obtain hentry | htaken := List.mem_append.mp hbefore
    · simp at hentry
    · cases hdone _ htaken
  rw [hreached.held_eq (hreached.rest_ne_nil hrelease) hfollows,
    opsOf_append idle hreached.commit_not_mem, heldAfter_append]
  exact ⟨mem_heldAfter (.tail _ (.head _)) (release_not_mem_opsOf _ hdone _),
    mem_heldAfter (.head _) (release_not_mem_opsOf _ hdone _)⟩

theorem turn_begun {alert : SearchAlert} {found : AlertVisit} {done left : List LockStep}
    {step : LockStep} (hsplit : persistAlert alert found = done ++ step :: left)
    (hdone : done ≠ []) :
    ∃ taken, done = .acquire .alertMutationLock :: taken ∧ Statements taken := by
  cases done with
  | nil => exact absurd rfl hdone
  | cons first taken =>
      obtain ⟨hfirst, hturn⟩ := List.cons.inj hsplit
      rw [List.append_eq] at hturn
      refine ⟨taken, congrArg (· :: taken) hfirst.symm, ?_⟩
      have hsaved := congrArg List.dropLast hturn
      rw [List.dropLast_concat, List.dropLast_append_cons] at hsaved
      have hstatements := statements_saved alert found
      rw [hsaved] at hstatements
      exact (statements_append.mp hstatements).1

theorem Persisting.holds (h : Persisting planned visit thread)
    (hfollows : thread = ⟨[], []⟩ ∨ Follows (idle.lockOps (runOne planned visit)) thread) :
    .alertMutationLock ∈ thread.held := by
  obtain ⟨n, alert, before, done, step, left, rest, -, hdone, hsplit, hreached⟩ := h
  obtain ⟨taken, rfl, htaken⟩ := turn_begun hsplit hdone
  have hrelease : LockStep.release .alertMutationLock ∈ step :: (left ++ rest) := by
    have hmem : LockStep.release .alertMutationLock ∈
        persistAlert alert (visit.alerts n) := by simp [persistAlert]
    rw [hsplit] at hmem
    obtain hbegun | hmem := List.mem_append.mp hmem
    · obtain heq | hbegun := List.mem_cons.mp hbegun
      · cases heq
      · cases htaken _ hbegun
    · exact List.mem_append_left rest hmem
  rw [hreached.held_eq (hreached.rest_ne_nil hrelease) hfollows,
    opsOf_append idle hreached.commit_not_mem, heldAfter_append]
  show _ ∈ heldAfter (.alertMutationLock :: _) ((idle.after before).opsOf taken)
  exact mem_heldAfter (.head _) (release_not_mem_opsOf _ htaken _)

theorem Writing.holds (h : Writing planned visit thread)
    (hfollows : thread = ⟨[], []⟩ ∨ Follows (idle.lockOps (runOne planned visit)) thread) :
    .databaseLock ∈ thread.held := by
  obtain ⟨done, step, left, hreached, hwriting⟩ := h
  have hrest : thread.rest ≠ [] := by
    rw [hreached.rest]
    exact List.ne_nil_of_mem (release_mem_of_writing hwriting (step :: left))
  rw [hreached.held_eq hrest hfollows]
  exact databaseLock_mem_heldAfter idle (fun hidle => Bool.noConfusion hidle)
    hreached.keepsWriting hwriting

end Holding

/--
In every state of every schedule at most `max_concurrency` workers of a portal and at
most one worker of a signature are inside `_resolve_candidates`, at most one has its turn
with an alert, and at most one has flushed a write without having ended its session.
-/
theorem workers_exclude_each_other (cycle : RunAlertCycle) (queries : List PlannedQuery)
    (visits : Fin queries.length → QueryVisit)
    (schedule : List (Turn (Fin queries.length))) :
    let threads := run cycle.capacity (start (programs queries visits)) schedule
    (∀ portalSlug, Set.ncard {i | (queries.get i).portalSlug = portalSlug ∧
        Resolving (queries.get i) (visits i) (threads i)} ≤
          cycle.maxConcurrencyForPortal portalSlug) ∧
      (∀ signature, Set.ncard {i | (queries.get i).signature = signature ∧
        Resolving (queries.get i) (visits i) (threads i)} ≤ 1) ∧
      Set.ncard {i | Persisting (queries.get i) (visits i) (threads i)} ≤ 1 ∧
      Set.ncard {i | Writing (queries.get i) (visits i) (threads i)} ≤ 1 := by
  intro threads
  have hfollows := follows_run cycle.capacity (programs queries visits) schedule
  refine ⟨fun portalSlug => ?_, fun signature => ?_, ?_, ?_⟩
  · refine ncard_le_capacity cycle.capacity (programs queries visits) schedule
      (.portalSemaphore portalSlug) ?_
    rintro i ⟨rfl, hresolving⟩
    exact (hresolving.holds (hfollows i)).1
  · refine ncard_le_capacity cycle.capacity (programs queries visits) schedule
      (.signatureLock signature) ?_
    rintro i ⟨rfl, hresolving⟩
    exact (hresolving.holds (hfollows i)).2
  · exact ncard_le_capacity cycle.capacity (programs queries visits) schedule
      .alertMutationLock fun i hpersisting => Persisting.holds hpersisting (hfollows i)
  · exact ncard_le_capacity cycle.capacity (programs queries visits) schedule
      .databaseLock fun i hwriting => Writing.holds hwriting (hfollows i)

/-- The scrape of the flats after two turns, and its alert after six. -/
example : Resolving flatsQuery (hitAndScrape 1) (run salesCycle.capacity
    (start (programs _ hitAndScrape)) (List.replicate 2 (.advance 1)) 1) :=
  ⟨[], .select, _, _, rfl, rfl, rfl⟩

example : Persisting flatsQuery (hitAndScrape 1) (run salesCycle.capacity
    (start (programs _ hitAndScrape)) (List.replicate 6 (.advance 1)) 1) :=
  ⟨0, flatsAlert, (runOne flatsQuery (hitAndScrape 1)).take 10, [_], _, _, [.commit], rfl,
    List.cons_ne_nil _ _, rfl, rfl, rfl⟩

end RealEstateTracker.Cycle
