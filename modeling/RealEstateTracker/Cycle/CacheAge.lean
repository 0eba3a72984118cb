import RealEstateTracker.Cycle.AtMostOnce

/-!
# The age of cached answers

Cached searches all live for the same time, whatever the frequencies of the
alerts that share them.  An alert is only answered from data younger than its own
period when no alert of any cycle runs more often than that.
-/

namespace RealEstateTracker.Cycle

open Foundation Domain Application Persistence

section Workers

variable [PythonRuntime] [PersistenceRuntime]

def RunAlertCycle.runAt (cycle : RunAlertCycle) (planned : PlannedQuery)
    (now : DateTime) : CycleTxn (Bool × Nat) := do
  let outcome ← (cycle.resolveCandidates planned now).attempt
  match outcome with
  | .ok propertyIds => cycle.persistMatches planned propertyIds now
  | .error (.scraperError error) => recordFailure planned error now
  | .error error => Txn.raise error

theorem runOne_eq (cycle : RunAlertCycle) (planned : PlannedQuery) :
    cycle.runOne planned = clock.bind (cycle.runAt planned) := rfl

/-! ## What a worker puts into the cache -/

structure PutRow (cycle : RunAlertCycle) (planned : PlannedQuery) (now : DateTime)
    (row : CacheRow) : Prop where
  signature : row.querySignature = planned.signature
  fetchedAt : row.fetchedAt = now
  expiresAt : row.expiresAt = now + cycle.cacheTtlSeconds * 1000000

/-- Cached rows are written as `put` does; one that is updated was there. -/
def PutAt (cycle : RunAlertCycle) (planned : PlannedQuery) (now : DateTime)
    (db : Store) : Write → Prop
  | .insertCache row => PutRow cycle planned now row
  | .updateCache row => PutRow cycle planned now row ∧
      (SearchCacheRepository.find planned.signature db).isSome
  | _ => True

variable {cycle : RunAlertCycle} {planned : PlannedQuery} {now : DateTime}

omit [PythonRuntime] [PersistenceRuntime] in
theorem putAt_of_table {db : Store} {write : Write} (h : write.table ≠ .caches) :
    PutAt cycle planned now db write := by
  cases write <;> trivial

omit [PythonRuntime] [PersistenceRuntime] in
theorem putAt_of_inTables {tables : List Table} (htables : .caches ∉ tables)
    {db : Store} {write : Write} (h : InTables tables write) :
    PutAt cycle planned now db write :=
  putAt_of_table fun heq => htables (heq ▸ h)

omit [PythonRuntime] [PersistenceRuntime] in
theorem putAt_of_allIn {tables : List Table} {writes : List Write} {db : Store}
    (h : AllIn tables writes) (htables : .caches ∉ tables) :
    ∀ write ∈ writes, PutAt cycle planned now db write := fun write hwrite =>
  putAt_of_inTables htables (h write hwrite)

omit [PythonRuntime] [PersistenceRuntime] in
theorem putAt_putWrites (ids : List PropertyId) (db : Store) :
    ∀ write ∈ SearchCacheRepository.putWrites planned.signature planned.portalSlug
      ids now cycle.cacheTtlSeconds db, PutAt cycle planned now db write := by
  unfold SearchCacheRepository.putWrites
  dsimp only
  split
  · next row hfind =>
    intro write hwrite
    rw [List.mem_singleton.mp hwrite]
    exact ⟨⟨rfl, rfl, rfl⟩, by rw [hfind]; rfl⟩
  · refine List.forall_mem_append.mpr ⟨?_, fun write hwrite => ?_⟩
    · exact putAt_of_allIn (allIn_portalWrites (.head _) planned.portalSlug db)
        (by simp : Table.caches ∉ [Table.portals])
    · rw [List.mem_singleton.mp hwrite]
      exact ⟨rfl, rfl, rfl⟩

omit [PythonRuntime] [PersistenceRuntime] in
theorem within_recordExecution (attempt : SearchExecutionRepository.Attempt) :
    (recordExecution attempt).Within (PutAt cycle planned now) fun _ => True :=
  Txn.within_exec fun stamp db =>
    putAt_of_allIn (allIn_recordWrites attempt stamp db) (by simp)

omit [PythonRuntime] [PersistenceRuntime] in
theorem within_of_only {α : Type} {tables : List Table} {p : CycleTxn α}
    (h : p.Only (InTables tables)) (htables : .caches ∉ tables) :
    p.Within (PutAt cycle planned now) fun _ => True :=
  h.within.mono (fun _ _ => putAt_of_inTables htables) fun _ h => h

theorem within_scrapeCandidates : (cycle.scrapeCandidates planned now).Within
    (PutAt cycle planned now) fun _ => True := by
  refine Txn.within_bind ⟨trivial, fun _ => by simp⟩ fun _ =>
    Txn.within_bind ⟨trivial, fun _ => by simp⟩ fun listings =>
      Txn.within_bind ⟨trivial, fun _ => by simp⟩ fun _ => ?_
  refine Txn.within_bind (Txn.within_foldEach fun resolved listing _ =>
    within_of_only (only_resolveListing _ resolved listing) (by decide))
    fun resolved => ?_
  exact Txn.within_bind (Txn.within_exec fun _ db => putAt_putWrites _ db) fun _ =>
    Txn.within_bind ⟨trivial, fun _ => trivial⟩ fun finishedAt =>
      Txn.within_bind (within_recordExecution _) fun _ => trivial

theorem within_runAt : (cycle.runAt planned now).Within (PutAt cycle planned now)
    fun _ => True := by
  refine Txn.within_bind (Txn.within_attempt (Txn.within_bind (by simp)
    fun cached => ?_)) fun outcome => ?_
  · cases cached with
    | some propertyIds => trivial
    | none => exact within_scrapeCandidates
  · cases outcome with
    | ok propertyIds =>
        exact (within_persistMatches cycle planned propertyIds now).mono
          (fun _ _ => putAt_of_inTables (by decide)) fun _ h => h
    | error error =>
        cases error with
        | scraperError error =>
            exact (within_recordFailure planned error now).mono
              (fun _ _ => putAt_of_inTables (by decide)) fun _ h => h
        | _ => trivial

/-! ## Cached rows expire after the lifetime -/

/-- A cached row that is written expires `ttl` seconds after it was fetched. -/
def Expires (ttl : Int) : Write → Prop
  | .insertCache row | .updateCache row =>
      row.expiresAt = row.fetchedAt + ttl * 1000000
  | _ => True

def Aged (ttl : Int) (db : Store) : Prop :=
  ∀ row ∈ db.caches, row.expiresAt = row.fetchedAt + ttl * 1000000

omit [PythonRuntime] [PersistenceRuntime] in
theorem aged_apply {ttl : Int} {write : Write} {db : Store}
    (hwrite : Expires ttl write) (h : Aged ttl db) : Aged ttl (write.apply db) := by
  cases write with
  | insertCache row =>
      refine List.forall_mem_append.mpr ⟨h, fun stored hstored => ?_⟩
      rw [List.mem_singleton.mp hstored]
      exact hwrite
  | updateCache model =>
      intro row hrow
      obtain ⟨stored, hstored, rfl⟩ := List.mem_map.mp hrow
      split
      · exact hwrite
      · exact h stored hstored
  | _ => exact h

omit [PythonRuntime] [PersistenceRuntime] in
theorem expires_of_putAt {db : Store} {write : Write}
    (h : PutAt cycle planned now db write) :
    Expires cycle.cacheTtlSeconds write := by
  cases write with
  | insertCache row => exact h.expiresAt.trans (by rw [h.fetchedAt])
  | updateCache row => exact h.1.expiresAt.trans (by rw [h.1.fetchedAt])
  | _ => trivial

theorem within_runOne (cycle : RunAlertCycle) (planned : PlannedQuery) :
    (cycle.runOne planned).Within (fun _ => Expires cycle.cacheTtlSeconds)
      fun _ => True :=
  Txn.within_bind ⟨trivial, fun _ => trivial⟩ fun _ =>
    within_runAt.mono (fun _ _ => expires_of_putAt) fun _ h => h

/-! ## Cached answers are fresh -/

/-- `cache_ttl_seconds` where the composition root leaves it out. -/
def defaultCacheTtlSeconds : Int := 900

/--
If worker `i` is about to look into the cache at `now` and finds a row that has
not expired, then less than the period of each of its alerts has passed since the
row was fetched.
-/
def AnswersFresh (cycles : Nat → RunAlertCycle) (planned : Nat → PlannedQuery)
    (sys : CycleSys) (i : Nat) : Prop :=
  ∀ now, (sys.workers i).code = (cycles i).runAt (planned i) now →
    ∀ row, SearchCacheRepository.find (planned i).signature
        ((sys.workers i).session.view sys.store) = some row →
      now < row.expiresAt → ∀ alert ∈ (planned i).alerts,
        now - row.fetchedAt < alert.frequencySeconds * 1000000

/--
With the default lifetime, and no alert that runs more often than every 900
seconds, no alert is ever answered from data older than its own period.
-/
theorem cached_answers_are_fresh (cycles : Nat → RunAlertCycle)
    (planned : Nat → PlannedQuery)
    (hdefault : ∀ i, (cycles i).cacheTtlSeconds = defaultCacheTtlSeconds)
    (hseldom : ∀ i, ∀ alert ∈ (planned i).alerts,
      defaultCacheTtlSeconds ≤ alert.frequencySeconds)
    {db : Store} (hempty : db.caches = [])
    (oracle : Oracle CycleCall CycleAnswer) (schedule : List Nat) (i : Nat) :
    AnswersFresh cycles planned
      ((Sys.start db fun i => (cycles i).runOne (planned i)).run oracle schedule)
      i := by
  intro now _ row hrow hlive alert halert
  have hcode : ∀ i, ((cycles i).runOne (planned i)).Within
      (fun _ => Expires defaultCacheTtlSeconds) fun _ => True := fun i =>
    hdefault i ▸ within_runOne (cycles i) (planned i)
  have hstart : Aged defaultCacheTtlSeconds db := by simp [Aged, hempty]
  have haged := (@Sys.store_run _ _ _ _ _ _ _ _ _ oracle _ (fun _ _ => aged_apply)
    _ _ hcode hstart schedule).2 i
  have hexpires := haged row (List.mem_of_find?_eq_some hrow)
  have hfrequency := hseldom i alert halert
  simp only [defaultCacheTtlSeconds] at hexpires hfrequency
  rw [hexpires] at hlive
  have hdate : ∀ a b c : Int, a < b + 900 * 1000000 → 900 ≤ c →
      a - b < c * 1000000 := by omega
  exact hdate _ _ _ hlive hfrequency

end Workers

/-! ## An alert that is due every minute -/

def minuteAlert : SearchAlert :=
  { Alerts.salesAlert with frequencySeconds := 60, seldom := by decide }

def minuteQuery : PlannedQuery :=
  ⟨"idealista", "idealista|", ⟨"idealista", .empty⟩, [minuteAlert]⟩

def defaultCycle : RunAlertCycle :=
  ⟨.empty, defaultRegistry, defaultCacheTtlSeconds, fun _ => 1⟩

def minuteOracle : Oracle CycleCall CycleAnswer := fun i _ request =>
  match request with
  | .clock | .utcNow => (i * 60000000 : Int)
  | .scraperForPortal _ | .normalizerForPortal _ => .ok ()
  | .fetch _ => .ok []
  | .normalize _ _ => .ok ⟨none, []⟩

def minuteWorkers : CycleSys :=
  Sys.start Alerts.salesStore fun _ =>
    @RunAlertCycle.runOne .plain .plain defaultCycle minuteQuery

/-- A minute after the scrape the alert is due again, and answered from the cache. -/
theorem minute_alert_is_answered_from_old_data :
    let sys := minuteWorkers.run minuteOracle (List.replicate 12 0 ++ [1])
    sys.Finished 0 (.ok (true, 0)) ∧
      ¬@AnswersFresh .plain .plain (fun _ => defaultCycle) (fun _ => minuteQuery)
        sys 1 := by
  refine ⟨rfl, fun h => ?_⟩
  have hfresh := h 60000000 rfl _ rfl (by decide) minuteAlert (.head _)
  revert hfresh
  decide

theorem cached_answers_are_fresh_hourly :
    @AnswersFresh .plain .plain (fun _ => defaultCycle) (fun _ => salesQuery)
      ((Sys.start Alerts.salesStore fun _ =>
        @RunAlertCycle.runOne .plain .plain defaultCycle salesQuery).run
          minuteOracle (List.replicate 12 0 ++ [1])) 1 :=
  @cached_answers_are_fresh .plain .plain (fun _ => defaultCycle)
    (fun _ => salesQuery) (fun _ => rfl)
    (fun _ alert halert => by
      rw [List.mem_singleton.mp halert]
      decide)
    Alerts.salesStore rfl minuteOracle _ 1

end RealEstateTracker.Cycle
