import RealEstateTracker.Cycle.RunAlertCycle
import RealEstateTracker.Foundation.SerialRun

/-!
# What the parts of a cycle write

Resolving candidates writes what a search finds; persisting writes matches,
notifications and alerts.  Neither commits.
-/

namespace RealEstateTracker.Cycle

open Foundation Domain Application Persistence

def listingTables : List Table := [.portals, .properties, .prices, .listings]

def searchTables : List Table := listingTables ++ [.caches, .executions]

def alertTables : List Table := [.portals, .alerts, .conditions, .subscriptions]

def matchTables : List Table := [.alertMatches, .notifications]

def InTables (tables : List Table) (write : Write) : Prop :=
  write.table ∈ tables

def AllIn (tables : List Table) (writes : List Write) : Prop :=
  ∀ write ∈ writes, InTables tables write

/-! ## Writes of the repositories -/

theorem allIn_nil (tables : List Table) : AllIn tables [] := fun _ h => by
  simp at h

theorem allIn_singleton {tables : List Table} {write : Write}
    (h : tables.contains write.table = true) : AllIn tables [write] :=
  fun w hw => by
    rw [List.mem_singleton.mp hw]
    exact List.contains_iff_mem.mp h

theorem allIn_append {tables : List Table} {first second : List Write}
    (hfirst : AllIn tables first) (hsecond : AllIn tables second) :
    AllIn tables (first ++ second) := fun w hw =>
  (List.mem_append.mp hw).elim (hfirst w) (hsecond w)

theorem AllIn.mono {tables other : List Table} {writes : List Write}
    (h : AllIn tables writes) (hsub : ∀ table ∈ tables, table ∈ other) :
    AllIn other writes := fun write hwrite => hsub _ (h write hwrite)

theorem AllIn.spares {tables : List Table} {writes : List Write}
    (h : AllIn tables writes) {table : Table} (htable : table ∉ tables) :
    ∀ write ∈ writes, write.table ≠ table :=
  fun write hwrite heq => htable (heq ▸ h write hwrite)

theorem AllIn.not_mem {tables other : List Table} {writes : List Write}
    (h : AllIn tables writes) (hdisjoint : ∀ table ∈ tables, table ∉ other) :
    ∀ write ∈ writes, write.table ∉ other :=
  fun write hwrite => hdisjoint _ (h write hwrite)

theorem allIn_portalWrites {tables : List Table} (h : .portals ∈ tables)
    (slug : String) (db : Store) : AllIn tables (portalWrites slug db) := by
  unfold portalWrites
  split
  · exact allIn_nil _
  · exact allIn_singleton (List.contains_iff_mem.mpr h)

theorem allIn_addWrites_alert (alert : SearchAlert) (stamp : Stamp) (db : Store) :
    AllIn alertTables (AlertRepository.addWrites alert stamp db) := by
  refine allIn_append (allIn_append (allIn_append ?_ ?_) ?_) ?_
  · refine allIn_singleton ?_
    unfold AlertRepository.rowWrite
    split <;> rfl
  · intro write hwrite
    obtain ⟨row, -, rfl⟩ := List.mem_map.mp hwrite
    show Table.conditions ∈ alertTables
    decide
  · exact allIn_singleton rfl
  · intro write hwrite
    obtain ⟨slug, -, hwrite⟩ := List.mem_flatMap.mp hwrite
    refine allIn_append ?_ ?_ write hwrite <;> split
    · exact allIn_nil _
    · exact allIn_singleton rfl
    · exact allIn_nil _
    · exact allIn_singleton rfl

section Runtime

variable [PythonRuntime] [PersistenceRuntime]

omit [PythonRuntime] in
theorem allIn_addWrites_property (prop : Property) (row : PropertyRow)
    (now : DateTime) (stamp : Stamp) (db : Store) :
    AllIn [.properties, .prices] (PropertyRepository.addWrites prop row now stamp db) := by
  refine List.forall_mem_cons.mpr ⟨?_, ?_⟩
  · unfold PropertyRepository.rowWrite
    split <;> exact List.mem_cons_self
  · unfold PropertyRepository.priceWrites
    split
    · exact allIn_nil _
    · split
      · exact allIn_singleton rfl
      · exact allIn_nil _

omit [PythonRuntime] [PersistenceRuntime] in
theorem allIn_upsertWrites (listing : RawListing) (id : PropertyId)
    (hash : String) (stamp : Stamp) (db : Store) :
    AllIn [.portals, .listings]
      (PortalListingRepository.upsertWrites listing id hash stamp db) := by
  unfold PortalListingRepository.upsertWrites
  dsimp only
  split
  · exact allIn_singleton rfl
  · exact allIn_append (allIn_portalWrites (by decide) _ _)
      (allIn_singleton rfl)

omit [PythonRuntime] [PersistenceRuntime] in
theorem allIn_putWrites (signature slug : String) (ids : List PropertyId)
    (fetchedAt : DateTime) (ttl : Int) (db : Store) :
    AllIn [.portals, .caches]
      (SearchCacheRepository.putWrites signature slug ids fetchedAt ttl db) := by
  unfold SearchCacheRepository.putWrites
  dsimp only
  split
  · exact allIn_singleton rfl
  · exact allIn_append (allIn_portalWrites (by decide) _ _)
      (allIn_singleton rfl)

omit [PythonRuntime] [PersistenceRuntime] in
theorem allIn_recordWrites (attempt : SearchExecutionRepository.Attempt)
    (stamp : Stamp) (db : Store) : AllIn [.portals, .executions]
      (SearchExecutionRepository.recordWrites attempt stamp db) :=
  allIn_append (allIn_portalWrites (by decide) _ _)
    (allIn_singleton rfl)

/-! ## Programs -/

omit [PythonRuntime] [PersistenceRuntime] in
theorem only_recordExecution (attempt : SearchExecutionRepository.Attempt) :
    (recordExecution attempt).Only (InTables searchTables) :=
  Txn.only_exec fun stamp db => (allIn_recordWrites attempt stamp db).mono (by decide)

theorem only_storeListing (listing : RawListing) (resolved : Resolved)
    (result : NormalizationResult) :
    (storeListing listing resolved result).Only (InTables listingTables) := by
  unfold storeListing
  dsimp only
  split
  · exact Txn.only_done _
  · next prop _ =>
    refine Txn.only_bind (Txn.only_bind (fun now => Txn.only_done now) fun now =>
      Txn.only_bind (Txn.only_ofExcept _) fun row => Txn.only_exec fun stamp db =>
        (allIn_addWrites_property prop row now stamp db).mono (by decide))
      fun _ => ?_
    exact Txn.only_bind (Txn.only_exec fun stamp db =>
      (allIn_upsertWrites listing prop.id _ stamp db).mono (by decide))
      fun _ => Txn.only_done _

theorem only_resolveListing (portalSlug : String) (resolved : Resolved)
    (listing : RawListing) : (resolveListing portalSlug resolved listing).Only
      (InTables listingTables) := by
  refine Txn.only_bind (Txn.only_query _) fun unchanged => ?_
  cases unchanged with
  | some propertyId => exact Txn.only_done _
  | none =>
      exact Txn.only_bind (fun answer => Txn.only_ofExcept answer) fun result =>
        only_storeListing listing resolved result

theorem only_resolveCandidates (cycle : RunAlertCycle) (planned : PlannedQuery)
    (now : DateTime) : (cycle.resolveCandidates planned now).Only
      (InTables searchTables) := by
  refine Txn.only_bind (Txn.only_query _) fun cached => ?_
  cases cached with
  | some propertyIds => exact Txn.only_done _
  | none =>
      refine Txn.only_bind (fun answer => Txn.only_ofExcept answer) fun _ => ?_
      refine Txn.only_bind (fun answer => Txn.only_ofExcept answer)
        fun listings => ?_
      refine Txn.only_bind (fun answer => Txn.only_ofExcept answer) fun _ => ?_
      refine Txn.only_bind (Txn.only_foldEach fun resolved listing _ =>
        (only_resolveListing _ resolved listing).mono fun write h =>
          List.mem_append_left _ h) fun resolved => ?_
      refine Txn.only_bind (Txn.only_exec fun _ db =>
        (allIn_putWrites _ _ _ _ _ db).mono (by decide)) fun _ => ?_
      refine Txn.only_bind (fun finishedAt => Txn.only_done finishedAt)
        fun finishedAt => ?_
      exact Txn.only_bind (only_recordExecution _) fun _ => Txn.only_done _

theorem only_loadCandidates (propertyIds : List PropertyId) :
    (RunAlertCycle.loadCandidates propertyIds).Only (InTables []) :=
  Txn.only_foldEach fun _ _ _ => Txn.only_bind (Txn.only_query _) fun _ =>
    Txn.only_bind (Txn.only_ofExcept _) fun _ => Txn.only_done _

omit [PythonRuntime] in
/-- What follows a match that was inserted. -/
theorem only_notify (userId : UserId) (now : DateTime) (matchId : MatchId) (created : Nat) :
    Txn.Only (InTables matchTables) (do
      let listed ← Txn.query (NotificationChannelRepository.listEnabledForUser userId)
      let channels ← Txn.ofExcept listed
      Txn.forEach channels fun channel =>
        Txn.exec (NotificationRepository.enqueueWrites matchId channel.id now)
      return created + 1 : CycleTxn Nat) := by
  refine Txn.only_bind (Txn.only_query _) fun listed => ?_
  refine Txn.only_bind (Txn.only_ofExcept _) fun channels => ?_
  refine Txn.only_bind (Txn.only_forEach fun channel _ =>
    Txn.only_exec fun stamp db => ?_) fun _ => Txn.only_done _
  unfold NotificationRepository.enqueueWrites
  split
  · exact allIn_nil matchTables
  · exact allIn_singleton rfl

omit [PythonRuntime] in
theorem only_persistMatch (userId : UserId) (now : DateTime) (created : Nat)
    (found : AlertMatch) :
    (RunAlertCycle.persistMatch userId now created found).Only
      (InTables matchTables) := by
  refine Txn.only_bind ⟨fun stamp db => ?_, fun stamp db => ?_⟩ fun matchId => ?_
  · unfold MatchRepository.addIfNewWrites
    split
    · exact allIn_nil matchTables
    · exact allIn_singleton rfl
  · dsimp only
    split <;> trivial
  · cases matchId with
    | none => exact Txn.only_done _
    | some matchId => exact only_notify userId now matchId created

theorem only_evaluateAndPersist (cycle : RunAlertCycle)
    (alerts : List SearchAlert) (candidates : List Property) (now : DateTime) :
    (cycle.evaluateAndPersist alerts candidates now).Only
      (InTables (matchTables ++ alertTables)) := by
  refine Txn.only_foldEach fun created alert _ => ?_
  refine Txn.only_bind (Txn.only_ofExcept _) fun found => ?_
  refine Txn.only_bind (Txn.only_foldEach fun created found _ =>
    (only_persistMatch _ _ created found).mono fun write h =>
      List.mem_append_left _ h) fun created => ?_
  refine Txn.only_bind (Txn.only_exec fun stamp db => ?_) fun _ =>
    Txn.only_done _
  exact fun write hwrite => List.mem_append_right _
    (allIn_addWrites_alert _ stamp db write hwrite)

/-! ## After the candidates are resolved -/

theorem within_persistMatches (cycle : RunAlertCycle) (planned : PlannedQuery)
    (propertyIds : List PropertyId) (now : DateTime) :
    (cycle.persistMatches planned propertyIds now).Within
      (fun _ => InTables (matchTables ++ alertTables)) fun _ => True := by
  refine Txn.within_bind (((only_loadCandidates propertyIds).mono fun _ h => ?_).within)
    fun candidates => ?_
  · exact absurd h List.not_mem_nil
  · exact Txn.within_bind (only_evaluateAndPersist cycle _ candidates now).within
      fun created => Txn.within_bind (by simp) fun _ => trivial

omit [PythonRuntime] [PersistenceRuntime] in
theorem within_recordFailure (planned : PlannedQuery) (error : String) (now : DateTime) :
    (RunAlertCycle.recordFailure planned error now).Within
      (fun _ => InTables [.portals, .executions]) fun _ => True :=
  Txn.within_bind ⟨trivial, fun _ => trivial⟩ fun _ =>
    Txn.within_bind (Txn.within_exec fun stamp db => allIn_recordWrites _ stamp db)
      fun _ => Txn.within_bind (by simp) fun _ => trivial

/-! ## Calls after the candidates are resolved -/

section Asks

variable {K : CycleCall → Prop}

theorem asks_loadCandidates (propertyIds : List PropertyId) :
    (RunAlertCycle.loadCandidates propertyIds).Within (fun _ _ => True) K :=
  Txn.within_foldEach fun _ _ _ => Txn.within_bind (by simp) fun _ =>
    Txn.within_bind (by simp) fun _ => trivial

omit [PythonRuntime] in
theorem asks_persistMatch (userId : UserId) (now : DateTime) (created : Nat)
    (found : AlertMatch) :
    (RunAlertCycle.persistMatch userId now created found).Within (fun _ _ => True) K := by
  refine Txn.within_bind ⟨fun _ _ _ _ => trivial, fun stamp db => ?_⟩
    fun matchId => ?_
  · dsimp only
    split <;> trivial
  · cases matchId with
    | none => trivial
    | some matchId =>
        exact Txn.within_bind (by simp) fun _ => Txn.within_bind (by simp)
          fun channels => Txn.within_bind (Txn.within_forEach fun _ _ =>
            Txn.within_exec fun _ _ _ _ => trivial) fun _ => trivial

theorem asks_persistMatches (cycle : RunAlertCycle) (planned : PlannedQuery)
    (propertyIds : List PropertyId) (now : DateTime) :
    (cycle.persistMatches planned propertyIds now).Within (fun _ _ => True) K := by
  refine Txn.within_bind (asks_loadCandidates propertyIds) fun candidates => ?_
  refine Txn.within_bind (Txn.within_foldEach fun created alert _ => ?_)
    fun created => Txn.within_bind (by simp) fun _ => trivial
  exact Txn.within_bind (by simp) fun found =>
    Txn.within_bind (Txn.within_foldEach fun created found _ =>
      asks_persistMatch _ _ created found) fun created =>
        Txn.within_bind (Txn.within_exec fun _ _ _ _ => trivial) fun _ => trivial

/-- What a worker does once its candidates are resolved, or not. -/
def afterCandidates (cycle : RunAlertCycle) (planned : PlannedQuery)
    (now : DateTime) : Except PyError (List PropertyId) → CycleTxn (Bool × Nat)
  | .ok propertyIds => cycle.persistMatches planned propertyIds now
  | .error (.scraperError error) => RunAlertCycle.recordFailure planned error now
  | .error error => Txn.raise error

/-- Only a clock is asked. -/
theorem asks_afterCandidates (cycle : RunAlertCycle) (planned : PlannedQuery)
    (now : DateTime) (hclock : K .clock) (outcome : Except PyError (List PropertyId)) :
    (afterCandidates cycle planned now outcome).Within (fun _ _ => True) K := by
  cases outcome with
  | ok propertyIds => exact asks_persistMatches cycle planned propertyIds now
  | error error =>
      cases error with
      | scraperError error =>
          exact Txn.within_bind ⟨hclock, fun _ => trivial⟩ fun finishedAt =>
            Txn.within_bind (Txn.within_exec fun _ _ _ _ => trivial) fun _ =>
              Txn.within_bind (by simp) fun _ => trivial
      | _ => trivial

end Asks

theorem runOne_eq_bind (cycle : RunAlertCycle) (planned : PlannedQuery) :
    cycle.runOne planned = clock.bind fun now =>
      (cycle.resolveCandidates planned now).attempt.bind
        (afterCandidates cycle planned now) := by
  refine congrArg clock.bind (funext fun now => congrArg _ (funext fun outcome => ?_))
  rcases outcome with error | ids
  · cases error <;> rfl
  · rfl

end Runtime

end RealEstateTracker.Cycle
