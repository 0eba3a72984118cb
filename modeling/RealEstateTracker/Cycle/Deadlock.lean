import RealEstateTracker.Cycle.AtMostOnce
import RealEstateTracker.Cycle.LockSteps

/-!
# When a cycle can deadlock

A worker whose cache lookup hits takes the write lock of the database inside its
first turn with `alert_mutation_lock`.  A worker that already writes comes back
for `alert_mutation_lock` with the write lock in hand.  Two such workers may wait
for each other; in a plan without such a pair all workers take the locks in one
order, or nobody else takes the lock that is out of order.
-/

namespace RealEstateTracker.Cycle

open Foundation Foundation.Locking Domain Application Persistence LockSteps

/-! ## Statements only concern the write lock -/

def LockStep.isStatement : LockStep → Bool
  | .select | .write | .flush => true
  | .acquire _ | .release _ | .commit => false

def Statements (steps : List LockStep) : Prop :=
  ∀ step ∈ steps, step.isStatement = true

namespace LockSession

@[simp] theorem writing_flushed (s : LockSession) :
    s.flushed.writing = (s.pending || s.writing) := rfl

theorem writing_after {s : LockSession} (h : s.writing = true)
    (steps : List LockStep) : (s.after steps).writing = true := by
  induction steps generalizing s with
  | nil => exact h
  | cons step steps ih =>
      cases step with
      | select => exact ih (by simp [h])
      | flush => exact ih (by simp [h])
      | write => exact ih (s := { s with pending := true }) h
      | acquire lock => exact ih h
      | release lock => exact ih h
      | commit => exact ih h

theorem after_append (s : LockSession) (first second : List LockStep) :
    s.after (first ++ second) = (s.after first).after second := by
  induction first generalizing s with
  | nil => rfl
  | cons step first ih => cases step <;> exact ih _

theorem writing_after_select (s : LockSession) (first second : List LockStep) :
    (s.after (first ++ .write :: .select :: second)).writing = true := by
  rw [after_append]
  exact writing_after (by simp) second

theorem after_selects {s : LockSession} (hs : s.pending = false)
    {steps : List LockStep} (h : ∀ step ∈ steps, step = .select) :
    s.after steps = s := by
  obtain ⟨pending, writing⟩ := s
  subst hs
  induction steps with
  | nil => rfl
  | cons step steps ih =>
      obtain ⟨rfl, hsteps⟩ := List.forall_mem_cons.mp h
      exact ih hsteps

/-- All that statements do to the locks is to take the write lock, once. -/
theorem lockOps_append (s : LockSession) {steps : List LockStep}
    (h : Statements steps) (rest : List LockStep) :
    s.lockOps (steps ++ rest) =
      (if (s.after steps).writing && !s.writing then [.acquire .databaseLock]
        else []) ++ (s.after steps).lockOps rest := by
  induction steps generalizing s with
  | nil => simp [after]
  | cons step steps ih =>
      obtain ⟨hstep, hsteps⟩ := List.forall_mem_cons.mp h
      have hflush : s.flushOps ++ s.flushed.lockOps (steps ++ rest) =
          (if (s.flushed.after steps).writing && !s.writing then
            [.acquire .databaseLock] else []) ++
          (s.flushed.after steps).lockOps rest := by
        rw [ih s.flushed hsteps, ← List.append_assoc]
        congr 1
        cases hwriting : s.writing with
        | true => simp [flushOps, hwriting]
        | false =>
            cases hpending : s.pending with
            | false => simp [flushOps, hwriting, hpending]
            | true =>
                have := writing_after (s := s.flushed) (by simp [hpending]) steps
                simp [flushOps, hwriting, hpending, this]
      cases step with
      | select => exact hflush
      | flush => exact hflush
      | write => exact ih { s with pending := true } hsteps
      | acquire lock => cases hstep
      | release lock => cases hstep
      | commit => cases hstep

end LockSession

@[simp] theorem statements_nil : Statements [] :=
  fun _ h => absurd h List.not_mem_nil

@[simp] theorem statements_cons {step : LockStep} {steps : List LockStep} :
    Statements (step :: steps) ↔ step.isStatement = true ∧ Statements steps :=
  List.forall_mem_cons

@[simp] theorem statements_append {first second : List LockStep} :
    Statements (first ++ second) ↔ Statements first ∧ Statements second :=
  List.forall_mem_append

theorem statements_flatMap {α : Type} {items : List α}
    {steps : α → List LockStep} (h : ∀ item, Statements (steps item)) :
    Statements (items.flatMap steps) := by
  intro step hstep
  obtain ⟨item, -, hitem⟩ := List.mem_flatMap.mp hstep
  exact h item step hitem

namespace LockSteps

@[simp] theorem statements_getOrCreatePortal (known : Bool) :
    Statements (getOrCreatePortal known) := by
  cases known <;> simp [getOrCreatePortal, LockStep.isStatement]

@[simp] theorem statements_sessionGet (loaded : Bool) :
    Statements (sessionGet loaded) := by
  cases loaded <;> simp [sessionGet, LockStep.isStatement]

@[simp] theorem statements_merge : Statements merge := by
  simp [merge, LockStep.isStatement]

@[simp] theorem statements_find (portalKnown : Bool) :
    Statements (find portalKnown) := by
  cases portalKnown <;> simp [find, LockStep.isStatement]

@[simp] theorem statements_upsert (portalKnown listed : Bool) :
    Statements (upsert portalKnown listed) := by
  rw [upsert, statements_append]
  refine ⟨statements_find portalKnown, ?_⟩
  split <;> simp [LockStep.isStatement]

@[simp] theorem statements_addProperty (loaded priceChanged : Bool) :
    Statements (addProperty loaded priceChanged) := by
  cases priceChanged <;> simp [addProperty, LockStep.isStatement]

theorem statements_resolveListing (visit : ListingVisit) :
    Statements (resolveListing visit) := by
  rw [resolveListing, statements_append]
  refine ⟨statements_find _, ?_⟩
  split
  · exact statements_nil
  · split <;> simp

theorem statements_enqueue (isNew : Bool) : Statements (enqueue isNew) := by
  cases isNew <;> simp [enqueue, LockStep.isStatement]

theorem statements_persistMatch (visit : MatchVisit) :
    Statements (persistMatch visit) := by
  have henqueue : Statements (visit.enqueued.flatMap enqueue) :=
    statements_flatMap statements_enqueue
  cases hnew : visit.isNew <;>
    simp [persistMatch, addIfNew, listEnabledForUser, hnew, henqueue,
      LockStep.isStatement]

theorem statements_subscribe (visit : PortalVisit) :
    Statements (subscribe visit) := by
  cases hsubscribed : visit.subscribed <;>
    simp [subscribe, hsubscribed, LockStep.isStatement]

theorem statements_addAlert (alert : SearchAlert) (portal : String → PortalVisit) :
    Statements (addAlert alert portal) := by
  simp [addAlert, LockStep.isStatement, statements_flatMap,
    statements_subscribe]

theorem statements_saved (alert : SearchAlert) (visit : AlertVisit) :
    Statements (visit.found.flatMap persistMatch ++ addAlert alert visit.portal) :=
  statements_append.mpr
    ⟨statements_flatMap statements_persistMatch, statements_addAlert alert visit.portal⟩

theorem statements_scrapeCandidates (visit : ScrapeVisit) :
    Statements (scrapeCandidates visit) := by
  have hlistings : Statements (visit.listings.flatMap resolveListing) :=
    statements_flatMap statements_resolveListing
  cases hcached : visit.cached <;>
    simp [scrapeCandidates, putCache, record, hcached, hlistings,
      LockStep.isStatement]

theorem select_of_mem_loadCandidates {loaded : List Bool} {step : LockStep}
    (h : step ∈ loadCandidates loaded) : step = .select := by
  obtain ⟨found, -, hfound⟩ := List.mem_flatMap.mp h
  cases found with
  | true => cases hfound
  | false => exact List.mem_singleton.mp hfound

theorem statements_loadCandidates (loaded : List Bool) :
    Statements (loadCandidates loaded) := by
  intro step hstep
  rw [select_of_mem_loadCandidates hstep]
  rfl

/-! ## The lock operations of a worker -/

open LockSession

def alertTurns (n : Nat) : List (LockOp CycleLock) :=
  (List.replicate n
    [.acquire .alertMutationLock, .release .alertMutationLock]).flatten

def searchOps (planned : PlannedQuery) (locks : List (LockOp CycleLock)) :
    List (LockOp CycleLock) :=
  [.acquire (.portalSemaphore planned.portalSlug),
    .acquire (.signatureLock planned.signature)] ++ locks ++
  [.release (.signatureLock planned.signature),
    .release (.portalSemaphore planned.portalSlug)]

/-- The first save of a worker that has not written takes the write lock. -/
def firstTurn : List (LockOp CycleLock) :=
  [.acquire .alertMutationLock, .acquire .databaseLock,
    .release .alertMutationLock]

def workerOps (planned : PlannedQuery) : Resolution → List (LockOp CycleLock)
  | .scraped _ =>
      searchOps planned [.acquire .databaseLock] ++
        alertTurns planned.alerts.length ++ [.release .databaseLock]
  | .failed _ =>
      searchOps planned [] ++ [.acquire .databaseLock, .release .databaseLock]
  | .hit =>
      searchOps planned [] ++ match planned.alerts with
        | [] => []
        | _ :: alerts =>
            firstTurn ++ alertTurns alerts.length ++ [.release .databaseLock]

theorem writing_after_saved (s : LockSession) (alert : SearchAlert)
    (visit : AlertVisit) :
    (s.after (visit.found.flatMap persistMatch ++
      addAlert alert visit.portal)).writing = true := by
  have := writing_after_select s (visit.found.flatMap persistMatch ++ [.flush])
    (alert.portalSlugs.sorted.flatMap fun slug => subscribe (visit.portal slug))
  simpa [addAlert, merge] using this

theorem lockOps_persistAlert (s : LockSession) (alert : SearchAlert)
    (visit : AlertVisit) : ∃ t : LockSession, t.writing = true ∧
      ∀ rest, s.lockOps (persistAlert alert visit ++ rest) =
        .acquire .alertMutationLock ::
          ((if s.writing then [] else [.acquire .databaseLock]) ++
            .release .alertMutationLock :: t.lockOps rest) := by
  refine ⟨_, writing_after_saved s alert visit, fun rest => ?_⟩
  have happend := lockOps_append s (statements_saved alert visit)
    (.release .alertMutationLock :: rest)
  rw [writing_after_saved] at happend
  simp only [persistAlert, List.cons_append, List.append_assoc, List.nil_append,
    lockOps] at happend ⊢
  rw [happend]
  cases s.writing <;> rfl

theorem lockOps_evaluateAndPersist {s : LockSession} (hs : s.writing = true)
    (alerts : List SearchAlert) (visits : Nat → AlertVisit) :
    ∃ t : LockSession, t.writing = true ∧
      ∀ rest, s.lockOps (evaluateAndPersist alerts visits ++ rest) =
        alertTurns alerts.length ++ t.lockOps rest := by
  induction alerts generalizing s visits with
  | nil => exact ⟨s, hs, fun _ => rfl⟩
  | cons alert alerts ih =>
      obtain ⟨t, ht, hfirst⟩ := lockOps_persistAlert s alert (visits 0)
      obtain ⟨u, hu, hrest⟩ := ih ht fun n => visits (n + 1)
      refine ⟨u, hu, fun rest => ?_⟩
      rw [evaluateAndPersist, List.mapIdx_cons, List.flatten_cons, List.append_assoc,
        hfirst, if_pos hs]
      rw [evaluateAndPersist] at hrest
      rw [hrest]
      simp [alertTurns, List.replicate_succ]

theorem lockOps_commit {s : LockSession} (hs : s.writing = true) :
    s.lockOps [.commit] = [.release .databaseLock] := by
  simp [lockOps, flushOps, endOps, hs, idle]

theorem writing_after_scrape (visit : ScrapeVisit) :
    (idle.after (.select :: scrapeCandidates visit)).writing = true := by
  cases hcached : visit.cached with
  | true =>
      have := writing_after_select idle
        (.select :: (visit.listings.flatMap resolveListing ++
          sessionGet visit.cacheLoaded))
        ((if visit.recordPortalKnown then [] else [.write, .flush]) ++ [.write])
      simpa [scrapeCandidates, putCache, hcached, record, getOrCreatePortal]
        using this
  | false =>
      have := writing_after_select idle
        (.select :: (visit.listings.flatMap resolveListing ++
          sessionGet visit.cacheLoaded ++ getOrCreatePortal visit.putPortalKnown))
        ((if visit.recordPortalKnown then [] else [.write, .flush]) ++ [.write])
      simpa [scrapeCandidates, putCache, hcached, record, getOrCreatePortal]
        using this

theorem lockOps_hit (planned : PlannedQuery) (visit : QueryVisit) :
    idle.lockOps (loadCandidates visit.candidates ++
      evaluateAndPersist planned.alerts visit.alerts ++ [.commit]) =
      match planned.alerts with
      | [] => []
      | _ :: alerts =>
          firstTurn ++ alertTurns alerts.length ++ [.release .databaseLock] := by
  have hload : idle.after (loadCandidates visit.candidates) = idle :=
    after_selects rfl fun _ => select_of_mem_loadCandidates
  rw [List.append_assoc, lockOps_append _ (statements_loadCandidates _), hload]
  match planned.alerts with
  | [] => rfl
  | alert :: alerts =>
      obtain ⟨t, ht, hfirst⟩ := lockOps_persistAlert idle alert (visit.alerts 0)
      obtain ⟨u, hu, hrest⟩ :=
        lockOps_evaluateAndPersist ht alerts fun n => visit.alerts (n + 1)
      rw [evaluateAndPersist, List.mapIdx_cons, List.flatten_cons, List.append_assoc,
        hfirst]
      rw [evaluateAndPersist] at hrest
      rw [hrest, lockOps_commit hu]
      rfl

theorem lockOps_search (planned : PlannedQuery) {steps : List LockStep}
    (h : Statements steps) (rest : List LockStep) :
    idle.lockOps ([.acquire (.portalSemaphore planned.portalSlug),
        .acquire (.signatureLock planned.signature)] ++ steps ++
      [.release (.signatureLock planned.signature),
        .release (.portalSemaphore planned.portalSlug)] ++ rest) =
      searchOps planned
        (if (idle.after steps).writing then [.acquire .databaseLock] else []) ++
      (idle.after steps).lockOps rest := by
  have happend := lockOps_append idle h
    ([.release (.signatureLock planned.signature),
      .release (.portalSemaphore planned.portalSlug)] ++ rest)
  rw [show ((idle.after steps).writing && !idle.writing) =
    (idle.after steps).writing from Bool.and_true _] at happend
  simp only [List.append_assoc, List.cons_append, List.nil_append, lockOps,
    searchOps] at happend ⊢
  rw [happend]

theorem lockOps_runOne (planned : PlannedQuery) (visit : QueryVisit) :
    idle.lockOps (runOne planned visit) = workerOps planned visit.resolution := by
  match hresolution : visit.resolution with
  | .hit =>
      have hlookup : Statements [.select] := statements_cons.mpr ⟨rfl, statements_nil⟩
      rw [runOne, hresolution, List.append_assoc]
      exact (lockOps_search planned hlookup _).trans
        (congrArg (searchOps planned [] ++ ·) (lockOps_hit planned visit))
  | .failed portalKnown =>
      have hlookup : Statements [.select] := statements_cons.mpr ⟨rfl, statements_nil⟩
      rw [runOne, hresolution, List.append_assoc]
      refine (lockOps_search planned hlookup _).trans ?_
      cases portalKnown <;> rfl
  | .scraped scrape =>
      have hscrape : Statements (.select :: scrapeCandidates scrape) :=
        statements_cons.mpr ⟨rfl, statements_scrapeCandidates scrape⟩
      have hwriting := writing_after_scrape scrape
      have hload := statements_loadCandidates visit.candidates
      obtain ⟨t, ht, halerts⟩ := lockOps_evaluateAndPersist
        (writing_after hwriting (loadCandidates visit.candidates))
        planned.alerts visit.alerts
      rw [runOne, hresolution, List.append_assoc]
      refine (lockOps_search planned hscrape _).trans ?_
      rw [List.append_assoc, lockOps_append _ hload, halerts, lockOps_commit ht,
        hwriting]
      simp [workerOps]

end LockSteps

/-! ## The order of the locks -/

open LockSession

/-- The worker first needs the write lock inside a turn with `alert_mutation_lock`. -/
def WritesLate (planned : PlannedQuery) (resolution : Resolution) : Prop :=
  resolution = .hit ∧ planned.alerts ≠ []

/-- The worker comes for `alert_mutation_lock` when it has the write lock. -/
def ReturnsWriting (planned : PlannedQuery) : Resolution → Prop
  | .hit => 2 ≤ planned.alerts.length
  | .scraped _ => planned.alerts ≠ []
  | .failed _ => False

/-- The semaphore, the signature lock, then the write lock; `mutation` is where
`alert_mutation_lock` comes. -/
def lockRank (mutation : Nat) : CycleLock → Nat
  | .portalSemaphore _ => 0
  | .signatureLock _ => 1
  | .alertMutationLock => mutation
  | .databaseLock => 3

theorem heldAfter_alertTurns (n : Nat) :
    heldAfter [.databaseLock] (alertTurns n) = [.databaseLock] := by
  induction n with
  | zero => rfl
  | succ n ih => exact ih

theorem heldAfter_searchOps (planned : PlannedQuery) :
    heldAfter [] (searchOps planned []) = [] := by
  simp [searchOps, heldAfter]

theorem heldAfter_searchOps_writing (planned : PlannedQuery) :
    heldAfter [] (searchOps planned [.acquire .databaseLock]) =
      [.databaseLock] := by
  simp [searchOps, heldAfter]

theorem heldAfter_firstTurn : heldAfter [] firstTurn = [.databaseLock] := rfl

section Climbing

variable {mutation : Nat} {contended : CycleLock → Prop}

theorem climbs_searchOps (planned : PlannedQuery) :
    Climbs (lockRank mutation) contended [] (searchOps planned []) := by
  simp [searchOps, Climbs, lockRank]

theorem climbs_searchOps_writing (planned : PlannedQuery) :
    Climbs (lockRank mutation) contended []
      (searchOps planned [.acquire .databaseLock]) := by
  simp [searchOps, Climbs, lockRank]

theorem climbs_firstTurn (h : mutation < 3) :
    Climbs (lockRank mutation) contended [] firstTurn := by
  simp [firstTurn, Climbs, lockRank, h]

theorem climbs_alertTurns {n : Nat}
    (h : n ≠ 0 → contended .alertMutationLock → 3 < mutation) :
    Climbs (lockRank mutation) contended [.databaseLock] (alertTurns n) := by
  induction n with
  | zero => trivial
  | succ n ih =>
      have hturns : alertTurns (n + 1) = .acquire .alertMutationLock ::
          .release .alertMutationLock :: alertTurns n := rfl
      rw [hturns]
      refine ⟨by simp, fun hcontended => ?_, ?_⟩
      · simpa [lockRank] using h (Nat.succ_ne_zero n) hcontended
      · simpa [Climbs] using ih fun _ => h (Nat.succ_ne_zero n)

theorem climbs_writing {n : Nat}
    (h : n ≠ 0 → contended .alertMutationLock → 3 < mutation) :
    Climbs (lockRank mutation) contended [.databaseLock]
      (alertTurns n ++ [.release .databaseLock]) := by
  rw [climbs_append, heldAfter_alertTurns]
  exact ⟨climbs_alertTurns h, by simp [Climbs]⟩

theorem climbs_workerOps {planned : PlannedQuery} {resolution : Resolution}
    (hlate : WritesLate planned resolution → mutation < 3)
    (hreturn : ReturnsWriting planned resolution → contended .alertMutationLock →
      3 < mutation) :
    Climbs (lockRank mutation) contended [] (workerOps planned resolution) := by
  cases resolution with
  | scraped visit =>
      rw [workerOps, List.append_assoc, climbs_append, heldAfter_searchOps_writing]
      exact ⟨climbs_searchOps_writing planned, climbs_writing fun hn =>
        hreturn fun hnil => hn (List.length_eq_zero_iff.mpr hnil)⟩
  | failed portalKnown =>
      rw [workerOps, climbs_append, heldAfter_searchOps]
      exact ⟨climbs_searchOps planned, by simp [Climbs]⟩
  | hit =>
      rw [workerOps, climbs_append, heldAfter_searchOps]
      refine ⟨climbs_searchOps planned, ?_⟩
      cases halerts : planned.alerts with
      | nil => trivial
      | cons alert alerts =>
          show Climbs _ _ _ (firstTurn ++ alertTurns alerts.length ++ _)
          rw [List.append_assoc, climbs_append, heldAfter_firstTurn]
          refine ⟨climbs_firstTurn (hlate ⟨rfl, by simp [halerts]⟩),
            climbs_writing fun hn => hreturn ?_⟩
          show 2 ≤ planned.alerts.length
          rw [halerts, List.length_cons]
          omega

end Climbing

theorem acquires_alertMutationLock {planned : PlannedQuery}
    {resolution : Resolution}
    (h : .acquire .alertMutationLock ∈ workerOps planned resolution) :
    WritesLate planned resolution ∨ ReturnsWriting planned resolution := by
  cases resolution with
  | failed portalKnown => simp [workerOps, searchOps] at h
  | hit =>
      refine .inl ⟨rfl, fun hnil => ?_⟩
      simp [workerOps, searchOps, hnil] at h
  | scraped visit =>
      refine .inr fun hnil => ?_
      simp [workerOps, searchOps, alertTurns, hnil] at h

/-! ## The two workers that can wait for each other -/

theorem writesLate_eq {planned : PlannedQuery} {resolution : Resolution}
    (h : WritesLate planned resolution) :
    ∃ rest, workerOps planned resolution = searchOps planned [] ++
      .acquire .alertMutationLock :: .acquire .databaseLock :: rest := by
  obtain ⟨rfl, halerts⟩ := h
  match hplanned : planned.alerts, halerts with
  | alert :: alerts, _ => exact ⟨_, by rw [workerOps, hplanned]; rfl⟩

theorem returnsWriting_eq {planned : PlannedQuery} {resolution : Resolution}
    (h : ReturnsWriting planned resolution) :
    ∃ before rest, workerOps planned resolution =
        before ++ .acquire .alertMutationLock :: rest ∧
      Climbs (lockRank 2) (fun _ => True) [] before ∧
      heldAfter [] before = [.databaseLock] := by
  cases resolution with
  | failed portalKnown => exact h.elim
  | scraped visit =>
      have halerts : planned.alerts ≠ [] := h
      match hplanned : planned.alerts, halerts with
      | alert :: alerts, _ =>
          refine ⟨searchOps planned [.acquire .databaseLock],
            .release .alertMutationLock ::
              (alertTurns alerts.length ++ [.release .databaseLock]), ?_,
            climbs_searchOps_writing planned, heldAfter_searchOps_writing planned⟩
          rw [workerOps, hplanned, List.append_assoc]
          rfl
  | hit =>
      have hlength : 2 ≤ planned.alerts.length := h
      match hplanned : planned.alerts, hlength with
      | _ :: _ :: alerts, _ =>
          refine ⟨searchOps planned [] ++ firstTurn,
            .release .alertMutationLock ::
              (alertTurns alerts.length ++ [.release .databaseLock]), ?_, ?_, ?_⟩
          · rw [workerOps, hplanned, List.append_assoc]
            rfl
          · rw [climbs_append, heldAfter_searchOps]
            exact ⟨climbs_searchOps planned, climbs_firstTurn (by decide)⟩
          · rw [heldAfter_append, heldAfter_searchOps, heldAfter_firstTurn]

/-! ## The cycle -/

def programs (queries : List PlannedQuery)
    (visits : Fin queries.length → QueryVisit) (i : Fin queries.length) :
    List (LockOp CycleLock) :=
  idle.lockOps (runOne queries[i] (visits i))

theorem programs_eq (queries : List PlannedQuery)
    (visits : Fin queries.length → QueryVisit) (i : Fin queries.length) :
    programs queries visits i = workerOps queries[i] (visits i).resolution :=
  lockOps_runOne queries[i] (visits i)

theorem acquires_portalSemaphore {planned : PlannedQuery}
    {resolution : Resolution} {portalSlug : String}
    (h : .acquire (.portalSemaphore portalSlug) ∈ workerOps planned resolution) :
    portalSlug = planned.portalSlug := by
  cases resolution with
  | scraped visit => simpa [workerOps, searchOps, alertTurns] using h
  | failed portalKnown => simpa [workerOps, searchOps] using h
  | hit =>
      match halerts : planned.alerts with
      | [] => simpa [workerOps, searchOps, halerts] using h
      | _ :: _ => simpa [workerOps, searchOps, firstTurn, alertTurns, halerts] using h

theorem capacity_pos {cycle : RunAlertCycle} {queries : List PlannedQuery}
    (hcaps : ∀ planned ∈ queries, 0 < cycle.maxConcurrencyForPortal planned.portalSlug)
    (visits : Fin queries.length → QueryVisit) (i : Fin queries.length)
    (lock : CycleLock) (h : .acquire lock ∈ programs queries visits i) :
    0 < cycle.capacity lock := by
  cases lock with
  | portalSemaphore portalSlug =>
      rw [programs_eq] at h
      rw [acquires_portalSemaphore h]
      exact hcaps _ (List.getElem_mem _)
  | signatureLock signature => exact Nat.one_pos
  | alertMutationLock => exact Nat.one_pos
  | databaseLock => exact Nat.one_pos

/-- Without a pair that takes the locks in both orders there is one order for all. -/
theorem never_deadlocked {cycle : RunAlertCycle} {queries : List PlannedQuery}
    (hcaps : ∀ planned ∈ queries, 0 < cycle.maxConcurrencyForPortal planned.portalSlug)
    {visits : Fin queries.length → QueryVisit}
    (h : ∀ i j, i ≠ j → WritesLate queries[i] (visits i).resolution →
      ¬ ReturnsWriting queries[j] (visits j).resolution)
    (schedule : List (Turn (Fin queries.length)))
    (waiting : Finset (Fin queries.length)) :
    ¬ Deadlocked cycle.capacity
      (run cycle.capacity (start (programs queries visits)) schedule) waiting := by
  have hprograms := programs_eq queries visits
  by_cases hlate : ∃ i, WritesLate queries[i] (visits i).resolution
  · obtain ⟨i, hi⟩ := hlate
    by_cases hreturn : ReturnsWriting queries[i] (visits i).resolution
    · -- Only worker `i` takes `alert_mutation_lock`.
      have hothers : ∀ j, .acquire .alertMutationLock ∈ programs queries visits j →
          j = i := by
        intro j hj
        rw [hprograms] at hj
        by_contra hji
        obtain hj | hj := acquires_alertMutationLock hj
        · exact h j i hji hj hreturn
        · exact h i j (Ne.symm hji) hi hj
      refine @not_deadlocked_of_climbs _ _ _ _ _ (lockRank 2) (· ≠ .alertMutationLock)
        _ _ (capacity_pos hcaps visits) (fun j => ?_) (fun lock hlock j k hj hk => ?_)
        schedule waiting
      · rw [hprograms]
        exact climbs_workerOps (fun _ => by decide) fun _ hne => absurd rfl hne
      · obtain rfl := not_not.mp hlock
        rw [hothers j hj, hothers k hk]
    · -- `alert_mutation_lock` comes before the write lock.
      refine @not_deadlocked_of_climbs _ _ _ _ _ (lockRank 2) (fun _ => True)
        _ _ (capacity_pos hcaps visits) (fun j => ?_)
        (fun _ hlock => absurd trivial hlock) schedule waiting
      rw [hprograms]
      refine climbs_workerOps (fun _ => by decide) fun hj => ?_
      by_cases hji : j = i
      · subst hji
        exact absurd hj hreturn
      · exact absurd hj (h i j (Ne.symm hji) hi)
  · -- `alert_mutation_lock` comes last.
    refine @not_deadlocked_of_climbs _ _ _ _ _ (lockRank 4) (fun _ => True)
      _ _ (capacity_pos hcaps visits) (fun j => ?_)
      (fun _ hlock => absurd trivial hlock) schedule waiting
    rw [hprograms]
    exact climbs_workerOps (fun hj => absurd ⟨j, hj⟩ hlate) fun _ _ => by decide

theorem deadlock_reached {cycle : RunAlertCycle} {queries : List PlannedQuery}
    (hcaps : ∀ planned ∈ queries, 0 < cycle.maxConcurrencyForPortal planned.portalSlug)
    {visits : Fin queries.length → QueryVisit} {i j : Fin queries.length}
    (hij : i ≠ j) (hi : WritesLate queries[i] (visits i).resolution)
    (hj : ReturnsWriting queries[j] (visits j).resolution) :
    ∃ schedule waiting, Deadlocked cycle.capacity
      (run cycle.capacity (start (programs queries visits)) schedule) waiting := by
  obtain ⟨restI, hopsI⟩ := writesLate_eq hi
  obtain ⟨before, restJ, hopsJ, hclimbs, hafter⟩ := returnsWriting_eq hj
  exact exists_deadlock hij (by decide) ((programs_eq queries visits i).trans hopsI)
    ((programs_eq queries visits j).trans hopsJ) (climbs_searchOps queries[i])
    hclimbs (heldAfter_searchOps queries[i]) hafter (capacity_pos hcaps visits)
    rfl rfl

/--
Workers of one cycle can end up waiting for each other exactly when the cache
answers a query that has alerts while another worker comes for
`alert_mutation_lock` with the write lock: it scraped and has an alert, or the
cache answered it too and it has two.
-/
theorem cycle_never_deadlocks_iff {cycle : RunAlertCycle}
    {queries : List PlannedQuery}
    (hcaps : ∀ planned ∈ queries, 0 < cycle.maxConcurrencyForPortal planned.portalSlug)
    (visits : Fin queries.length → QueryVisit) :
    (∀ schedule waiting, ¬ Deadlocked cycle.capacity
      (run cycle.capacity (start (programs queries visits)) schedule) waiting) ↔
    ∀ i j, i ≠ j → WritesLate queries[i] (visits i).resolution →
      ¬ ReturnsWriting queries[j] (visits j).resolution := by
  constructor
  · intro hnever i j hij hi hj
    obtain ⟨schedule, waiting, hdeadlock⟩ := deadlock_reached hcaps hij hi hj
    exact hnever schedule waiting hdeadlock
  · exact never_deadlocked hcaps

/-! ## A hit and a scrape -/

def flatsAlert : SearchAlert :=
  { Alerts.salesAlert with
    id := .given 20
    name := "Flats"
    conditions := ⟨.all,
      .leaf ⟨"property_type", .eq, some (.scalar (.str "FLAT")), by decide, by decide⟩,
      []⟩
    named := by decide }

def flatsQuery : PlannedQuery :=
  ⟨"idealista", "idealista|property_type=FLAT",
    ⟨"idealista", Dict.empty.set "property_type" "FLAT"⟩, [flatsAlert]⟩

/-- Nothing matches; the portal of the alert is known and subscribed to. -/
def idleAlertVisit : AlertVisit := ⟨[], fun _ => ⟨true, true⟩⟩

/-- The sales query is answered from the cache, the other from an empty page. -/
def hitAndScrape (i : Fin [salesQuery, flatsQuery].length) : QueryVisit :=
  if i = 0 then ⟨.hit, [], fun _ => idleAlertVisit⟩
  else ⟨.scraped ⟨[], false, false, true, true⟩, [], fun _ => idleAlertVisit⟩

/-- One alert has the lock and wants to write, the other writes and wants the lock. -/
theorem hit_and_scrape_deadlock :
    ∃ schedule waiting, Deadlocked salesCycle.capacity
      (run salesCycle.capacity (start (programs _ hitAndScrape)) schedule) waiting :=
  deadlock_reached (fun _ _ => Nat.one_pos) (by decide : (0 : Fin 2) ≠ 1)
    ⟨rfl, List.cons_ne_nil _ _⟩ (List.cons_ne_nil _ _)

theorem cycle_never_deadlocks_iff_hitAndScrape :
    (∀ schedule waiting, ¬ Deadlocked salesCycle.capacity
      (run salesCycle.capacity (start (programs _ hitAndScrape)) schedule) waiting) ↔
    ∀ i j, i ≠ j →
      WritesLate [salesQuery, flatsQuery][i] (hitAndScrape i).resolution →
      ¬ ReturnsWriting [salesQuery, flatsQuery][j] (hitAndScrape j).resolution :=
  cycle_never_deadlocks_iff (fun _ _ => Nat.one_pos) hitAndScrape

end RealEstateTracker.Cycle
