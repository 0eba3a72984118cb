import RealEstateTracker.Alerts.ReadBack
import RealEstateTracker.Cycle.Isolation
import RealEstateTracker.Foundation.Outcome

/-!
# A failed scrape

A scrape fails before the unit of work has written anything, so what the failure
branch commits is its own record.  An alert that was due therefore stays due.
-/

namespace RealEstateTracker.Cycle

open Foundation Domain Application Persistence

/-! ## Due alerts -/

section Due

variable [PythonRuntime] {now later : DateTime} {db db' : Store}
  {due : List SearchAlert}

omit [PythonRuntime] in
theorem isDue_mono {row : AlertRow} (h : AlertRepository.isDue now row = true)
    (hle : now ≤ later) : AlertRepository.isDue later row = true := by
  unfold AlertRepository.isDue at h ⊢
  split
  · rfl
  · next lastRunAt hlast =>
    rw [hlast] at h
    exact decide_eq_true ((of_decide_eq_true h).trans (Int.sub_le_sub_right hle _))

theorem mem_listDue (h : AlertRepository.listDue now db = .ok due)
    (alert : SearchAlert) :
    alert ∈ due ↔ ∃ row ∈ db.alerts, (row.isActive = true ∧
      AlertRepository.isDue now row = true) ∧
        AlertRepository.toDomain db row = .ok alert := by
  rw [mem_of_mapM_eq_ok h]
  simp only [List.mem_filter, and_assoc]

/-- One alert that cannot be read keeps every other one from being listed. -/
theorem raises_listDue :
    Raises (AlertRepository.listDue now db) ↔ ∃ row ∈ db.alerts,
      (row.isActive = true ∧ AlertRepository.isDue now row = true) ∧
        Raises (AlertRepository.toDomain db row) := by
  rw [AlertRepository.listDue, raises_mapM]
  simp only [List.mem_filter, and_assoc]

theorem listDue_congr (halerts : db'.alerts = db.alerts)
    (hconditions : db'.conditions = db.conditions)
    (hsubscriptions : db'.subscriptions = db.subscriptions) :
    AlertRepository.listDue now db' = AlertRepository.listDue now db := by
  have hread : AlertRepository.toDomain db' = AlertRepository.toDomain db := by
    funext row
    simp only [AlertRepository.toDomain, AlertRepository.rowsOf,
      AlertRepository.portalSlugs, hconditions, hsubscriptions]
  rw [AlertRepository.listDue, halerts, hread, AlertRepository.listDue]

end Due

/-- A due alert is listed, unless another one cannot be read. -/
def ListedUnlessUnreadable [PythonRuntime] (alert : SearchAlert) (now : DateTime)
    (db : Store) : Prop :=
  match AlertRepository.listDue now db with
  | .ok due => alert ∈ due
  | .error _ => ∃ row ∈ db.alerts, (row.isActive = true ∧
      AlertRepository.isDue now row = true) ∧
        Raises (AlertRepository.toDomain db row)

theorem listed_later [PythonRuntime] {now later : DateTime} {db : Store}
    {due : List SearchAlert} (h : AlertRepository.listDue now db = .ok due)
    {alert : SearchAlert} (halert : alert ∈ due) (hle : now ≤ later) :
    ListedUnlessUnreadable alert later db := by
  unfold ListedUnlessUnreadable
  split
  · next due' hlater =>
    obtain ⟨row, hrow, ⟨hactive, hdue⟩, hread⟩ := (mem_listDue h alert).mp halert
    exact (mem_listDue hlater alert).mpr
      ⟨row, hrow, ⟨hactive, isDue_mono hdue hle⟩, hread⟩
  · next error hlater => exact raises_listDue.mp ⟨error, hlater⟩

/-! ## The failure branch -/

structure FailureOf (planned : PlannedQuery) (message : String)
    (row : ExecutionRow) : Prop where
  portalSlug : row.portalSlug = planned.portalSlug
  querySignature : row.querySignature = planned.signature
  status : row.status = .failed
  error : row.error = some message

def withExecution (row : ExecutionRow) (db : Store) : Store :=
  { db with
    portals := if db.portals.contains row.portalSlug then db.portals
      else db.portals ++ [row.portalSlug]
    executions := db.executions ++ [row] }

section Records

variable {attempt : SearchExecutionRepository.Attempt} {stamp : Stamp} {db : Store}

theorem applyAll_recordWrites :
    applyAll (SearchExecutionRepository.recordWrites attempt stamp db) db =
      withExecution (SearchExecutionRepository.row attempt stamp) db := by
  unfold SearchExecutionRepository.recordWrites portalWrites withExecution
  rw [SearchExecutionRepository.row]
  split <;> rfl

theorem admits_recordWrites (hfresh : FreshExecutions db) :
    Database.admits db (SearchExecutionRepository.recordWrites attempt stamp db) =
      true := by
  have hnew : db.executions.any (·.id =
      (SearchExecutionRepository.row attempt stamp).id) = false := by
    refine List.any_eq_false.mpr fun row hrow heq => ?_
    have hdrawn := hfresh row hrow stamp.txn
    rw [of_decide_eq_true heq] at hdrawn
    simp [drawnBy, SearchExecutionRepository.row, Uuid.drawn] at hdrawn
  rw [admits_eq]
  by_cases hportal : attempt.portalSlug ∈ db.portals
  · rw [SearchExecutionRepository.recordWrites_of_mem hportal]
    have hslug : (SearchExecutionRepository.row attempt stamp).portalSlug ∈
      db.portals := hportal
    simp [admitsAll, Write.admitted, hnew, hslug]
  · have hwrites : portalWrites attempt.portalSlug db =
        [.insertPortal attempt.portalSlug] := by
      rw [portalWrites, if_neg (by simpa using hportal)]
    have hslug : (SearchExecutionRepository.row attempt stamp).portalSlug ∈
      db.portals ++ [attempt.portalSlug] := List.mem_concat_self
    simp [SearchExecutionRepository.recordWrites, hwrites, admitsAll, Write.admitted,
      Write.apply, hnew, hportal, hslug]

end Records

section Workers

variable [PythonRuntime] [PersistenceRuntime] {cycle : RunAlertCycle}
  {planned : PlannedQuery} {answers : Nat → (request : CycleCall) → CycleAnswer request}
  {i : Nat} {db : Store} {message : String}

def fetchedSession (answers : Nat → (request : CycleCall) → CycleAnswer request)
    (i : Nat) (planned : PlannedQuery) (message : String) : CycleSession :=
  ((((Session.start i).answered .clock (answers 0 .clock)).wrote []).answered
    (.scraperForPortal planned.portalSlug) (.ok ())).answered
      (.fetch planned.query) (.error (.scraperError message))

theorem eval_resolveCandidates_failed
    (hcache : SearchCacheRepository.get planned.signature (answers 0 .clock) db = none)
    (hscraper : answers 2 (.scraperForPortal planned.portalSlug) = .ok ())
    (hfetch : answers 3 (.fetch planned.query) = .error (.scraperError message)) :
    (cycle.resolveCandidates planned (answers 0 .clock)).eval answers
        ((Session.start i).answered .clock (answers 0 .clock)) db =
      ⟨.error (.scraperError message), fetchedSession answers i planned message, db⟩ := by
  have hview : ((Session.start i).answered .clock (answers 0 .clock) : CycleSession).view
      db = db := rfl
  simp only [RunAlertCycle.resolveCandidates, Txn.query, Txn.bind_eq, Txn.bind, Txn.eval,
    hview, hcache]
  unfold RunAlertCycle.scrapeCandidates scraperForPortal fetch
  simp [Txn.bind, Txn.eval, Txn.ofExcept, fetchedSession, Session.start, Session.answered,
    Session.wrote, hscraper, hfetch]

theorem eval_runOne_failed
    (hcache : SearchCacheRepository.get planned.signature (answers 0 .clock) db = none)
    (hscraper : answers 2 (.scraperForPortal planned.portalSlug) = .ok ())
    (hfetch : answers 3 (.fetch planned.query) = .error (.scraperError message)) :
    (cycle.runOne planned).eval answers (.start i) db =
      (RunAlertCycle.recordFailure planned message (answers 0 .clock)).eval answers
        (fetchedSession answers i planned message) db := by
  change ((cycle.resolveCandidates planned (answers 0 .clock)).attempt.bind _).eval answers
    ((Session.start i).answered .clock (answers 0 .clock)) db = _
  rw [Txn.eval_bind, Txn.eval_attempt,
    eval_resolveCandidates_failed hcache hscraper hfetch]
  rfl

omit [PythonRuntime] [PersistenceRuntime] in
theorem eval_recordFailure (hfresh : FreshExecutions db) (planned : PlannedQuery)
    (answers : Nat → (request : CycleCall) → CycleAnswer request) (message : String)
    (now : DateTime) {s : CycleSession} (hpending : s.pending = []) :
    let ended := (RunAlertCycle.recordFailure planned message now).eval answers s db
    ended.outcome = .ok (false, 0) ∧
      ∃ row, FailureOf planned message row ∧ ended.store = withExecution row db := by
  let finishedAt := answers s.ops .clock
  let recorded := s.answered .clock finishedAt
  let attempt := failedAttempt planned message now finishedAt
  have hview : recorded.view db = db := by
    rw [Session.view_answered, Session.view, hpending, applyAll_nil]
  have heval : (RunAlertCycle.recordFailure planned message now).eval answers s db =
      ((Txn.commitOr .integrityError).bind fun _ => .done (false, 0)).eval answers
        (recorded.wrote (SearchExecutionRepository.recordWrites attempt recorded.stamp
          (recorded.view db))) db := rfl
  rw [hview] at heval
  have hwritten : (recorded.wrote (SearchExecutionRepository.recordWrites attempt
      recorded.stamp db)).pending =
        SearchExecutionRepository.recordWrites attempt recorded.stamp db := by
    rw [Session.pending_wrote, Session.pending_answered, hpending, List.nil_append]
  intro ended
  have hended : ended = _ := heval
  rw [Txn.eval_commitOr_bind _ _ (by rw [hwritten]; exact admits_recordWrites hfresh),
    hwritten, applyAll_recordWrites] at hended
  rw [hended]
  exact ⟨rfl, _, ⟨rfl, rfl, rfl, rfl⟩, rfl⟩

/--
A worker whose fetch raises a `ScraperError` reports a failed query, and its
record is all that it leaves in the store.  An alert that was due is listed at
every later time at which the due alerts can be listed at all.
-/
theorem failed_scrape_leaves_its_record (cycle : RunAlertCycle)
    (planned : PlannedQuery) (answers : Nat → (request : CycleCall) → CycleAnswer request)
    (i : Nat) {db : Store} (hfresh : FreshExecutions db) {message : String}
    (hcache : SearchCacheRepository.get planned.signature (answers 0 .clock) db = none)
    (hscraper : answers 2 (.scraperForPortal planned.portalSlug) = .ok ())
    (hfetch : answers 3 (.fetch planned.query) = .error (.scraperError message)) :
    let ended := (cycle.runOne planned).eval answers (.start i) db
    ended.outcome = .ok (false, 0) ∧
      (∃ row, FailureOf planned message row ∧ ended.store = withExecution row db) ∧
      ∀ now due, AlertRepository.listDue now db = .ok due → ∀ alert ∈ due,
        ∀ later, now ≤ later → ListedUnlessUnreadable alert later ended.store := by
  intro ended
  have hended : ended = _ := eval_runOne_failed hcache hscraper hfetch
  have hpending : (fetchedSession answers i planned message).pending = [] := rfl
  obtain ⟨houtcome, row, hrow, hstore⟩ :=
    eval_recordFailure hfresh planned answers message (answers 0 .clock) hpending
  rw [← hended] at houtcome hstore
  refine ⟨houtcome, ⟨row, hrow, hstore⟩, fun now due hdue alert halert later hle => ?_⟩
  rw [hstore]
  have hsame : AlertRepository.listDue now (withExecution row db) =
      AlertRepository.listDue now db := listDue_congr rfl rfl rfl
  exact listed_later (hsame.trans hdue) halert hle

end Workers

/-! ## An alert that cannot be read -/

def rentalsAlert : SearchAlert :=
  { Alerts.salesAlert with
    id := .given 9
    name := "Rentals in Pontevedra", named := by decide
    conditions := ⟨.all,
      .leaf ⟨"listing_type", .eq, some (.scalar (.str "RENT")), by decide, by decide⟩,
      []⟩ }

/-- Two overlapping saves have left two trees of the sales alert. -/
def brokenStore : Store :=
  ((Sys.start (Alerts.saved rentalsAlert ⟨7, 0⟩ Alerts.salesStore)
    Alerts.salesSaves).run (fun _ _ => Empty.elim) [0, 1, 0, 1]).store

def rentalsQuery : PlannedQuery :=
  ⟨"idealista", "idealista|", ⟨"idealista", .empty⟩, [rentalsAlert]⟩

def blockedOracle : Oracle CycleCall CycleAnswer := fun i op request =>
  match request with
  | .fetch _ => .error (.scraperError "blocked")
  | request => quietOracle i op request

def blockedRun : Ended Store Write CycleCall CycleAnswer PyError (Bool × Nat) :=
  (@RunAlertCycle.runOne .plain .plain salesCycle rentalsQuery).eval (blockedOracle 0)
    (.start 0) brokenStore

/-- Once the sales alert is due as well, the list of the due alerts raises. -/
theorem unreadable_alert_blocks_the_list :
    FreshExecutions brokenStore ∧
      SearchCacheRepository.get rentalsQuery.signature 1 brokenStore = none ∧
      blockedOracle 0 2 (.scraperForPortal rentalsQuery.portalSlug) = .ok () ∧
      blockedOracle 0 3 (.fetch rentalsQuery.query) = .error (.scraperError "blocked") ∧
      rentalsAlert ∈ rentalsQuery.alerts ∧
      @AlertRepository.listDue .plain 10 brokenStore = .ok [rentalsAlert] ∧
      ¬∃ due, @AlertRepository.listDue .plain 3600000010 blockedRun.store = .ok due ∧
        rentalsAlert ∈ due := by
  refine ⟨fun _ hrow => absurd hrow List.not_mem_nil, rfl, rfl, rfl, .head _,
    rfl, ?_⟩
  rintro ⟨due, hdue, -⟩
  cases hdue

theorem failed_scrape_leaves_its_record_sales :
    let ended := (@RunAlertCycle.runOne .plain .plain salesCycle salesQuery).eval
      (blockedOracle 0) (.start 0) Alerts.salesStore
    ended.outcome = .ok (false, 0) ∧
      (∃ row, FailureOf salesQuery "blocked" row ∧
        ended.store = withExecution row Alerts.salesStore) ∧
      ∃ due, @AlertRepository.listDue .plain 10 ended.store = .ok due ∧
        Alerts.salesAlert ∈ due := by
  obtain ⟨houtcome, hstore, hlisted⟩ :=
    @failed_scrape_leaves_its_record .plain .plain salesCycle salesQuery
      (blockedOracle 0) 0 Alerts.salesStore (fun _ hrow => absurd hrow List.not_mem_nil)
      "blocked" rfl rfl rfl
  refine ⟨houtcome, hstore, _, rfl, ?_⟩
  exact hlisted 0 [Alerts.salesAlert] rfl _ (.head _) 10 (by decide)

end RealEstateTracker.Cycle
