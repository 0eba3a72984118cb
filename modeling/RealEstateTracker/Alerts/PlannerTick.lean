import RealEstateTracker.Alerts.AtomicEdits
import RealEstateTracker.Alerts.CreateAlert
import RealEstateTracker.Alerts.LostUpdate
import RealEstateTracker.Cycle.Accounting
import RealEstateTracker.Foundation.Marking

/-!
# The planner tick

A tick lists the alerts that are due, and its cycle records a run for each of them.
Whatever the workers do, and whatever jobs come between two ticks, an alert that was
run waits for its frequency; and a tick leaves no alert due but those whose queries
all failed.
-/

namespace RealEstateTracker.Alerts

open Foundation Domain Application Persistence AlertRepository RealEstateTracker.Cycle

/-! ## The record of a run -/

/-- The row of an alert, which is there once. -/
def OnlyRow (a : AlertId) (db : Store) (row : AlertRow) : Prop :=
  db.alerts.filter (·.id = a) = [row]

def Scheduled (a : AlertId) (db : Store) : Prop :=
  ∃ row, OnlyRow a db row ∧ 0 < row.frequencySeconds

def RanSince (since : DateTime) (a : AlertId) (db : Store) : Prop :=
  ∃ row, OnlyRow a db row ∧ 0 < row.frequencySeconds ∧
    ∃ last, row.lastRunAt = some last ∧ since ≤ last

/-- A write that leaves alert `a` in its place and takes back no run since then. -/
def KeepsRun (since : DateTime) (a : AlertId) : Write → Prop
  | .insertAlert row => row.id ≠ a
  | .updateAlert _ model => model.id = a → 0 < model.frequencySeconds ∧
      ∃ last, model.lastRunAt = some last ∧ since ≤ last
  | _ => True

def SetsRun (a : AlertId) : Write → Prop
  | .updateAlert loaded model => model.id = a ∧ loaded.lastRunAt ≠ model.lastRunAt
  | _ => False

section Rows

variable {since : DateTime} {a : AlertId} {db : Store} {write : Write}

theorem filter_updateWhere {b : AlertId} (change : AlertRow → AlertRow)
    (hid : ∀ row, (change row).id = row.id) (rows : List AlertRow) :
    (updateWhere (·.id = b) change rows).filter (·.id = a) =
      if b = a then (rows.filter (·.id = a)).map change
      else rows.filter (·.id = a) := by
  induction rows with
  | nil => split <;> rfl
  | cons row rows ih =>
      rw [updateWhere] at ih ⊢
      by_cases hba : b = a <;> by_cases hrow : row.id = b <;>
        by_cases ha : row.id = a <;> simp_all

theorem filter_apply_of_untouched (h : Touches a write = false) :
    (write.apply db).alerts.filter (·.id = a) = db.alerts.filter (·.id = a) := by
  cases write with
  | insertAlert row =>
      have hid : row.id ≠ a := by simpa [Touches] using h
      simp [Write.apply, List.filter_append, hid]
  | updateAlert loaded model =>
      have hid : model.id ≠ a := by simpa [Touches] using h
      exact (filter_updateWhere (AlertRow.update loaded model) (fun _ => rfl) db.alerts).trans
        (if_neg hid)
  | _ => rfl

theorem find_of_onlyRow {row : AlertRow} (h : OnlyRow a db row) :
    find a db = some row := by
  rw [find, ← List.head?_filter, h]
  rfl

theorem keepsRun_of_untouched (h : Touches a write = false) : KeepsRun since a write := by
  cases write with
  | insertAlert row => simpa [KeepsRun, Touches] using h
  | updateAlert loaded model =>
      exact fun hid => absurd hid (by simpa [Touches] using h)
  | _ => trivial

theorem setsRun_of_touched (h : SetsRun a write) : Touches a write = true := by
  cases write with
  | updateAlert loaded model => simpa [Touches] using h.1
  | _ => cases h

theorem ranSince_iff {row : AlertRow} (h : OnlyRow a db row) :
    RanSince since a db ↔ 0 < row.frequencySeconds ∧
      ∃ last, row.lastRunAt = some last ∧ since ≤ last := by
  constructor
  · rintro ⟨row', hrow', hran⟩
    obtain rfl := List.singleton_inj.mp (h.symm.trans hrow')
    exact hran
  · exact fun hran => ⟨row, h, hran⟩

theorem onlyRow_updateAlert (loaded : AlertRow) {model row : AlertRow}
    (hid : model.id = a) (h : OnlyRow a db row) :
    OnlyRow a ((Write.updateAlert loaded model).apply db)
      (AlertRow.update loaded model row) := by
  refine (filter_updateWhere (AlertRow.update loaded model) (fun _ => rfl)
    db.alerts).trans ?_
  rw [if_pos hid, h]
  rfl

theorem frequency_pos_update (loaded : AlertRow) {model row : AlertRow}
    (hmodel : 0 < model.frequencySeconds) (hrow : 0 < row.frequencySeconds) :
    0 < (AlertRow.update loaded model row).frequencySeconds := by
  simp only [AlertRow.update, column]
  split
  · exact hrow
  · exact hmodel

theorem scheduled_apply (hkeeps : KeepsRun since a write) (h : Scheduled a db) :
    Scheduled a (write.apply db) := by
  obtain ⟨row, honly, hfrequency⟩ := h
  cases htouches : Touches a write with
  | false => exact ⟨row, (filter_apply_of_untouched htouches).trans honly, hfrequency⟩
  | true =>
      cases write with
      | insertAlert inserted => exact absurd (by simpa [Touches] using htouches) hkeeps
      | updateAlert loaded model =>
          have hid : model.id = a := by simpa [Touches] using htouches
          exact ⟨_, onlyRow_updateAlert loaded hid honly,
            frequency_pos_update loaded (hkeeps hid).1 hfrequency⟩
      | _ => cases htouches

theorem ranSince_apply (hkeeps : KeepsRun since a write) (h : Scheduled a db) :
    RanSince since a (write.apply db) ↔ SetsRun a write ∨ RanSince since a db := by
  obtain ⟨row, honly, hfrequency⟩ := h
  cases htouches : Touches a write with
  | false =>
      have hsets : ¬SetsRun a write := fun hsets => by
        rw [setsRun_of_touched hsets] at htouches
        cases htouches
      simp only [RanSince, OnlyRow, filter_apply_of_untouched htouches, hsets, false_or]
  | true =>
      cases write with
      | insertAlert inserted => exact absurd (by simpa [Touches] using htouches) hkeeps
      | updateAlert loaded model =>
          have hid : model.id = a := by simpa [Touches] using htouches
          obtain ⟨hmodel, last, hlast, hsince⟩ := hkeeps hid
          have hupdated := onlyRow_updateAlert loaded hid honly
          have hpos := frequency_pos_update loaded hmodel hfrequency
          by_cases hsame : loaded.lastRunAt = model.lastRunAt
          · -- the column is not written
            have hcolumn : (AlertRow.update loaded model row).lastRunAt = row.lastRunAt :=
              if_pos hsame
            have hsets : ¬SetsRun a (.updateAlert loaded model) := fun h => h.2 hsame
            simp only [hsets, false_or, ranSince_iff hupdated, ranSince_iff honly, hcolumn,
              hpos, hfrequency]
          · have hcolumn : (AlertRow.update loaded model row).lastRunAt = model.lastRunAt :=
              if_neg hsame
            exact iff_of_true ⟨_, hupdated, hpos, last, hcolumn.trans hlast, hsince⟩
              (.inl ⟨hid, hsame⟩)
      | _ => cases htouches

end Rows

/-- The last run of an alert as a mark: it may rise above `since`, it never falls back. -/
def runs (since : DateTime) (a : AlertId) : Marking Store Write where
  safe := KeepsRun since a
  sets := SetsRun a
  placed := Scheduled a
  marked := RanSince since a
  placed_apply _ _ := scheduled_apply
  marked_apply _ _ := ranSince_apply

section Saves

variable {since : DateTime} {a : AlertId} {db : Store} {writes : List Write}
  {alert : SearchAlert}

theorem mem_addWrites_touched {stamp : Stamp} {write : Write}
    (hwrite : write ∈ addWrites alert stamp db) (htouches : Touches a write = true) :
    alert.id = a ∧ write = rowWrite alert db := by
  have hmem : write ∈ (addWrites alert stamp db).filter (Touches a) :=
    List.mem_filter.mpr ⟨hwrite, htouches⟩
  rw [touched_addWrites] at hmem
  split at hmem
  · next hid => exact ⟨hid, List.mem_singleton.mp hmem⟩
  · cases hmem

theorem rowWrite_mem_addWrites (alert : SearchAlert) (stamp : Stamp) (db : Store) :
    rowWrite alert db ∈ addWrites alert stamp db := by
  simp [addWrites, mergeWrites]

theorem untouched_addWrites {stamp : Stamp} (hid : alert.id ≠ a) :
    ∀ write ∈ addWrites alert stamp db, Touches a write = false := by
  intro write hwrite
  by_contra htouches
  exact hid (mem_addWrites_touched hwrite (by simpa using htouches)).1

theorem frequencySeconds_pos (alert : SearchAlert) : 0 < alert.frequencySeconds := by
  have hseldom := alert.seldom
  have hmin : 0 < minFrequencySeconds := by decide
  omega

/-- A save of a present alert with a run no older than `since` takes back no run. -/
theorem keepsRun_addWrites (stamp : Stamp) (hscheduled : Scheduled a db)
    (hlast : alert.id = a → ∃ last, alert.lastRunAt = some last ∧ since ≤ last) :
    ∀ write ∈ addWrites alert stamp db, KeepsRun since a write := by
  intro write hwrite
  cases htouches : Touches a write with
  | false => exact keepsRun_of_untouched htouches
  | true =>
      obtain ⟨rfl, rfl⟩ := mem_addWrites_touched hwrite htouches
      obtain ⟨row, honly, -⟩ := hscheduled
      rw [rowWrite, find_of_onlyRow honly]
      exact fun _ => ⟨frequencySeconds_pos alert, hlast rfl⟩

end Saves

/-! ## What a worker records -/

section Workers

variable [PythonRuntime] [PersistenceRuntime] {since : DateTime} {a : AlertId}
  {s : CycleSession} {db : Store}

/-- The clock has not gone back. -/
def AnswersAfter (since : DateTime) : (request : CycleCall) → CycleAnswer request → Prop
  | .clock, now => since ≤ now
  | _, _ => True

abbrev runContract (since : DateTime) (a : AlertId) :
    Contract Store Write CycleCall CycleAnswer :=
  (runs since a).contract (AnswersAfter since)

def Evaluates (a : AlertId) (alerts : List SearchAlert) : Prop :=
  ∃ alert ∈ alerts, alert.id = a

omit [PythonRuntime] [PersistenceRuntime] in
theorem keepsRun_of_apart (since : DateTime) (a : AlertId) (write : Write)
    (h : ApartFromAlerts write) : (runs since a).safe write :=
  keepsRun_of_untouched (touches_of_apart h)

omit [PythonRuntime] [PersistenceRuntime] in
/-- Once a worker has saved the alert with its run, it knows of the run. -/
theorem keeps_markRun {alert : SearchAlert} {now : DateTime} (hnow : since ≤ now)
    {known : Prop} (h : known → (runs since a).Noted s db) :
    (AlertRepository.add (alert.markRun now) : CycleTxn Unit).Keeps (runContract since a)
      (Txn.keptOk fun _ s db => known ∨ alert.id = a → (runs since a).Noted s db) s db := by
  intro db' hgrows hfinds
  have hview : Scheduled a (s.view db') := (runs since a).placed_applyAll hfinds.2 hfinds.1
  refine ⟨keepsRun_addWrites _ hview fun _ => ⟨now, rfl, hnow⟩, ?_⟩
  rintro (hknown | rfl)
  · exact ((h hknown).grows hgrows).wrote _
  obtain ⟨row, honly, hfrequency⟩ := hview
  have hrow : rowWrite (alert.markRun now) (s.view db') =
      .updateAlert row (toModel (alert.markRun now)) := by
    rw [rowWrite, show (alert.markRun now).id = alert.id from rfl, find_of_onlyRow honly]
  by_cases hsame : row.lastRunAt = some now
  · have hran : RanSince since alert.id (s.view db') :=
      ⟨row, honly, hfrequency, now, hsame, hnow⟩
    exact ((Marking.marked_view_iff hfinds).mp hran).wrote _
  · refine .inl ⟨rowWrite (alert.markRun now) (s.view db'), ?_, ?_⟩
    · rw [Session.pending_wrote]
      exact List.mem_append_right _ (rowWrite_mem_addWrites _ _ _)
    · rw [hrow]
      exact ⟨rfl, hsame⟩

theorem keeps_evaluate_marks (cycle : RunAlertCycle) (alerts : List SearchAlert)
    (candidates : List Property) {now : DateTime} (hnow : since ≤ now) :
    (cycle.evaluateAndPersist alerts candidates now).Keeps (runContract since a)
      (Txn.keptOk fun _ s db => Evaluates a alerts → (runs since a).Noted s db) s db := by
  refine Txn.keeps_ok_foldEach (fun before _ s db => Evaluates a before →
    (runs since a).Noted s db) ?_ fun h => by simp [Evaluates] at h
  intro before alert after created s db _ h
  refine Txn.keeps_ok_bind (Marking.keeps_ok_of_only (keepsRun_of_apart since a)
    (Txn.only_ofExcept _) h) fun found s db h => ?_
  refine Txn.keeps_ok_bind (Marking.keeps_ok_of_only (keepsRun_of_apart since a)
    (Txn.only_foldEach fun created found _ => (only_persistMatch _ _ created found).mono
      fun _ => apart_of_inTables (by decide) (by decide) (by decide)) h)
    fun created s db h => ?_
  refine Txn.keeps_ok_bind (keeps_markRun hnow h) fun _ s db h => fun hevaluates => ?_
  obtain ⟨evaluated, hevaluated, hid⟩ := hevaluates
  rcases List.mem_append.mp hevaluated with hbefore | hlast
  · exact h (.inl ⟨evaluated, hbefore, hid⟩)
  · obtain rfl := List.mem_singleton.mp hlast
    exact h (.inr hid)

/-- The query of a worker succeeded: it has evaluated its alerts and committed. -/
def Succeeded : Except PyError (Bool × Nat) → Prop
  | .ok (succeeded, _) => succeeded = true
  | .error _ => False

/-- What a worker leaves behind when its query succeeds. -/
def MarksRun (since : DateTime) (a : AlertId) (planned : PlannedQuery)
    (outcome : Except PyError (Bool × Nat)) (_ : CycleSession) (db : Store) : Prop :=
  Succeeded outcome → Evaluates a planned.alerts → RanSince since a db

theorem keeps_runOne_marks (cycle : RunAlertCycle) (planned : PlannedQuery) :
    (cycle.runOne planned).Keeps (runContract since a) (MarksRun since a planned) s db := by
  intro now hnow
  change Txn.Keeps _ ((cycle.resolveCandidates _ now).attempt.bind _) _ _ _
  refine (Txn.keeps_bind _ _).mpr ((Txn.keeps_attempt _).mpr (Txn.keeps_mono _ ?_
    (Marking.keeps_of_only (keepsRun_of_apart since a)
      ((only_resolveCandidates cycle planned now).mono fun _ => apart_of_inTables
        (by decide) (by decide) (by decide)) False.elim)))
  rintro (error | propertyIds) s db -
  · cases error with
    | scraperError error =>
        intro finishedAt _ db _ _
        exact ⟨fun write hwrite => keepsRun_of_apart since a write (apart_of_inTables
            (by decide) (by decide) (by decide) (allIn_recordWrites _ _ _ write hwrite)),
          fun _ _ _ => ⟨fun h => Bool.noConfusion h, False.elim⟩⟩
    | _ => exact fun h => h.elim
  · refine (Txn.keeps_bind _ _).mpr (Txn.keeps_mono _ ?_ (Marking.keeps_ok_of_only
      (keepsRun_of_apart since a) ((only_loadCandidates propertyIds).mono fun _ =>
        apart_of_inTables (by decide) (by decide) (by decide)) False.elim))
    rintro (error | candidates) s db -
    · exact fun h => h.elim
    refine (Txn.keeps_bind _ _).mpr (Txn.keeps_mono _ ?_
      (keeps_evaluate_marks cycle planned.alerts candidates hnow))
    rintro (error | created) s db h
    · exact fun h => h.elim
    intro db' hgrows hfinds
    refine ⟨fun _ hevaluates => ?_, fun h => h.elim⟩
    exact (Marking.marked_view_iff hfinds).mpr ((h hevaluates).grows hgrows)

/-! ## What a worker leaves alone -/

variable {rely : CycleRely}

structure Unsaved (a : AlertId) (s : CycleSession) : Prop where
  uncommitted : s.history = []
  untouched : ∀ write ∈ s.pending, Touches a write = false

/-- A worker whose query fails, or has nothing to do with the alert, never touches it. -/
def LeavesAlone (a : AlertId) (evaluates : Prop)
    (outcome : Except PyError (Bool × Nat)) (s : CycleSession) : Prop :=
  (Succeeded outcome → ¬evaluates) →
    ∀ batch ∈ s.history, ∀ write ∈ batch, Touches a write = false

omit [PythonRuntime] [PersistenceRuntime] in
theorem wp_unsaved {α : Type} {p : CycleTxn α} (hp : p.Only (Touches a · = false))
    (h : Unsaved a s) : Txn.wp rely (fun _ => True) p (fun _ s => Unsaved a s) s := by
  refine Txn.wp_of_only (fun s writes hwrites h => ⟨h.uncommitted, ?_⟩)
    (fun s request answer h => ⟨h.uncommitted, h.untouched⟩) hp h
  rw [Session.pending_wrote]
  exact List.forall_mem_append.mpr ⟨h.untouched, hwrites⟩

omit [PythonRuntime] [PersistenceRuntime] in
theorem untouched_of_inTables {tables : List Table} (halerts : .alerts ∉ tables)
    {write : Write} (h : InTables tables write) : Touches a write = false := by
  cases write with
  | insertAlert row => exact absurd h halerts
  | updateAlert loaded model => exact absurd h halerts
  | _ => rfl

theorem only_evaluate_untouched (cycle : RunAlertCycle) {alerts : List SearchAlert}
    (candidates : List Property) (now : DateTime) :
    (cycle.evaluateAndPersist alerts candidates now).Only fun write =>
      ¬Evaluates a alerts → Touches a write = false := by
  refine Txn.only_foldEach fun created alert halert => ?_
  refine Txn.only_bind (Txn.only_ofExcept _) fun found => ?_
  refine Txn.only_bind (Txn.only_foldEach fun created found _ =>
    (only_persistMatch _ _ created found).mono fun _ h _ =>
      untouched_of_inTables (by decide) h) fun created => ?_
  refine Txn.only_bind (Txn.only_exec fun stamp db write hwrite halone => ?_)
    fun _ => Txn.only_done _
  have hid : (alert.markRun now).id ≠ a := fun hid => halone ⟨alert, halert, hid⟩
  exact untouched_addWrites hid write hwrite

omit [PythonRuntime] [PersistenceRuntime] in
theorem leavesAlone_of_uncommitted {evaluates : Prop}
    (outcome : Except PyError (Bool × Nat)) (h : s.history = []) :
    LeavesAlone a evaluates outcome s := by
  intro _ batch hbatch
  rw [h] at hbatch
  cases hbatch

omit [PythonRuntime] [PersistenceRuntime] in
theorem wp_commit_leavesAlone {evaluates : Prop} (reported : Bool × Nat)
    (huncommitted : s.history = [])
    (h : (reported.1 = true → ¬evaluates) →
      ∀ write ∈ s.pending, Touches a write = false) :
    Txn.wp rely (fun _ => True)
      ((Txn.commitOr .integrityError).bind fun _ => .done reported)
      (LeavesAlone a evaluates) s := by
  refine ⟨trivial, fun halone batch hbatch => ?_,
    fun _ => leavesAlone_of_uncommitted _ huncommitted⟩
  rw [Session.history_committed, huncommitted] at hbatch
  obtain rfl := List.mem_singleton.mp hbatch
  exact h halone

theorem wp_runOne_leavesAlone (cycle : RunAlertCycle) (planned : PlannedQuery)
    (h : Unsaved a s) :
    Txn.wp rely (fun _ => True) (cycle.runOne planned)
      (LeavesAlone a (Evaluates a planned.alerts)) s := by
  intro now _
  change Txn.wp rely _ ((cycle.resolveCandidates _ now).attempt.bind _) _ _
  refine (Txn.wp_bind _ _).mpr ((Txn.wp_attempt _).mpr (Txn.wp_mono _ ?_
    (wp_unsaved ((only_resolveCandidates cycle planned now).mono fun _ =>
      untouched_of_inTables (by decide)) ⟨h.uncommitted, h.untouched⟩)))
  rintro (error | propertyIds) s h
  · cases error with
    | scraperError error =>
        intro finishedAt _
        change Txn.wp rely _ ((recordExecution _).bind _) _ _
        refine (Txn.wp_bind _ _).mpr (Txn.wp_mono _ ?_ (wp_unsaved
          ((only_recordExecution _).mono fun _ => untouched_of_inTables (by decide))
          ⟨h.uncommitted, h.untouched⟩))
        rintro (error | _) s h
        · exact leavesAlone_of_uncommitted _ h.uncommitted
        · exact wp_commit_leavesAlone (false, 0) h.uncommitted fun _ => h.untouched
    | _ => exact leavesAlone_of_uncommitted _ h.uncommitted
  · refine (Txn.wp_bind _ _).mpr (Txn.wp_mono _ ?_ (wp_unsaved
      ((only_loadCandidates propertyIds).mono fun _ => untouched_of_inTables (by decide)) h))
    rintro (error | candidates) s h
    · exact leavesAlone_of_uncommitted _ h.uncommitted
    refine (Txn.wp_bind _ _).mpr (Txn.wp_mono _ ?_ (Txn.wp_of_only
      (I := fun s => s.history = [] ∧ (¬Evaluates a planned.alerts →
        ∀ write ∈ s.pending, Touches a write = false))
      (P := fun write => ¬Evaluates a planned.alerts → Touches a write = false)
      (fun s writes hwrites h => ⟨h.1, fun halone => ?_⟩) (fun _ _ _ h => h)
      (only_evaluate_untouched cycle candidates now) ⟨h.uncommitted, fun _ => h.untouched⟩))
    · rintro (error | created) s ⟨huncommitted, huntouched⟩
      · exact leavesAlone_of_uncommitted _ huncommitted
      · exact wp_commit_leavesAlone (true, created) huncommitted fun halone =>
          huntouched (halone rfl)
    · rw [Session.pending_wrote]
      exact List.forall_mem_append.mpr ⟨h.2 halone, fun write hwrite =>
        hwrites write hwrite halone⟩

end Workers

/-! ## Ticks -/

/--
A tick: the answers to the transaction that lists the due alerts, and how the
workers of its cycle are answered and take turns.
-/
structure Tick where
  txn : Nat
  answers : Nat → (request : CycleCall) → CycleAnswer request
  names : Nat → Nat
  oracle : Oracle CycleCall CycleAnswer
  schedule : List Nat

namespace Tick

variable [PythonRuntime] (tick : Tick)

def startedAt : DateTime := tick.answers 0 .clock

def due (db : Store) : Except PyError (List SearchAlert) :=
  (PlannerTick.listDue.eval tick.answers (.start tick.txn) db).outcome

theorem due_eq (db : Store) : tick.due db = listDue tick.startedAt db := by
  change ((Txn.ofExcept (listDue tick.startedAt db)).eval tick.answers _ db).outcome = _
  cases listDue tick.startedAt db <;> rfl

variable [PersistenceRuntime] (cycle : RunAlertCycle)

def queries (db : Store) : List PlannedQuery :=
  match tick.due db with
  | .ok due => plan cycle.capabilities due
  | .error _ => []

/-- The cycle over what the tick lists; a listing that raises leaves nothing to do. -/
def ran (db : Store) : CycleSys :=
  (Sys.startAs tick.names db (cycle.worker (tick.queries cycle db))).run tick.oracle
    tick.schedule

def after (db : Store) : Store := (tick.ran cycle db).store

/-- No worker reads a time before the tick. -/
def Clocked : Prop := ∀ i op, tick.startedAt ≤ tick.oracle i op .clock

/-- A query of the alert succeeded. -/
def Ran (a : AlertId) (db : Store) : Prop :=
  ∃ i planned outcome, (tick.queries cycle db)[i]? = some planned ∧
    Evaluates a planned.alerts ∧ (tick.ran cycle db).Finished i outcome ∧ Succeeded outcome

end Tick

section Ticks

variable [PythonRuntime] [PersistenceRuntime] {tick : Tick} {cycle : RunAlertCycle}
  {a : AlertId} {db : Store} {since : DateTime}

omit [PersistenceRuntime] in
theorem fields_of_toDomain {row : AlertRow} {alert : SearchAlert}
    (h : toDomain db row = .ok alert) : toModel alert = row := by
  obtain ⟨group, -, hnew⟩ := bind_eq_ok.mp h
  unfold SearchAlert.new at hnew
  split at hnew
  · split at hnew
    · split at hnew
      · obtain rfl := Except.ok.inj hnew
        rfl
      · cases hnew
    · cases hnew
  · cases hnew

omit [PersistenceRuntime] in
theorem row_of_query {planned : PlannedQuery} (hplanned : planned ∈ tick.queries cycle db)
    {alert : SearchAlert} (halert : alert ∈ planned.alerts) :
    ∃ row ∈ db.alerts, toModel alert = row ∧ row.isActive = true ∧
      isDue tick.startedAt row = true := by
  unfold Tick.queries at hplanned
  split at hplanned
  · next due hdue =>
    rw [Tick.due_eq] at hdue
    have hmem := ((planned_of_mem hplanned).mem_alerts.mp halert).1
    obtain ⟨row, hrow, hdomain⟩ := (mem_of_mapM_eq_ok hdue alert).mp hmem
    obtain ⟨hactive, hisDue⟩ := List.mem_filter.mp hrow
    exact ⟨row, (List.mem_filter.mp hactive).1, fields_of_toDomain hdomain,
      (List.mem_filter.mp hactive).2, hisDue⟩
  · cases hplanned

omit [PythonRuntime] [PersistenceRuntime] in
theorem onlyRow_of_mem (hids : (db.alerts.map (·.id)).Nodup) {row : AlertRow}
    (hrow : row ∈ db.alerts) : OnlyRow row.id db row := by
  unfold OnlyRow
  generalize db.alerts = rows at hids hrow
  induction rows with
  | nil => cases hrow
  | cons first rows ih =>
      obtain ⟨hfirst, hrest⟩ := List.nodup_cons.mp hids
      have hother : ∀ other ∈ rows, other.id ≠ first.id := fun other hother heq =>
        hfirst (List.mem_map.mpr ⟨other, hother, heq⟩)
      rcases List.mem_cons.mp hrow with rfl | hrow
      · rw [List.filter_cons_of_pos (by simp)]
        exact congrArg _ (List.filter_eq_nil_iff.mpr fun other hmem => by
          simpa using hother other hmem)
      · rw [List.filter_cons_of_neg (by simpa using (hother row hrow).symm)]
        exact ih hrest hrow

omit [PersistenceRuntime] in
theorem scheduled_of_query (hids : (db.alerts.map (·.id)).Nodup) {planned : PlannedQuery}
    (hplanned : planned ∈ tick.queries cycle db) (h : Evaluates a planned.alerts) :
    Scheduled a db := by
  obtain ⟨alert, halert, rfl⟩ := h
  obtain ⟨row, hrow, rfl, -⟩ := row_of_query hplanned halert
  exact ⟨_, onlyRow_of_mem hids hrow, frequencySeconds_pos alert⟩

theorem keptBy_ran (hclock : ∀ i op, since ≤ tick.oracle i op .clock)
    (hscheduled : Scheduled a db) :
    Marking.KeptBy (runs since a) (AnswersAfter since)
        (fun i outcome s db' => ∀ planned, (tick.queries cycle db)[i]? = some planned →
          MarksRun since a planned outcome s db') (tick.ran cycle db) ∧
      (RanSince since a db → RanSince since a (tick.after cycle db)) := by
  refine Marking.keptBy_run hscheduled (fun i => ?_) (fun i op request => ?_) tick.schedule
  · unfold RunAlertCycle.worker
    cases hquery : (tick.queries cycle db)[i]? with
    | none => exact fun planned h => by cases h
    | some query =>
        refine Txn.keeps_mono _ (fun outcome s db' h planned hplanned => ?_)
          (keeps_runOne_marks cycle query)
        obtain rfl := Option.some.inj hplanned
        exact h
  · cases request with
    | clock => exact hclock i op
    | _ => trivial

theorem ranSince_of_ran (hids : (db.alerts.map (·.id)).Nodup) (hclock : tick.Clocked)
    (h : tick.Ran cycle a db) : RanSince tick.startedAt a (tick.after cycle db) := by
  obtain ⟨i, planned, outcome, hplanned, hevaluates, hfinished, hsucceeded⟩ := h
  have hscheduled := scheduled_of_query hids (List.mem_of_getElem? hplanned) hevaluates
  exact Marking.marked_of_finished (keptBy_ran hclock hscheduled).1 hfinished
    fun s db' h => h planned hplanned hsucceeded hevaluates

/-- The worker of the cycle evaluates the alert. -/
def EvaluatedBy (tick : Tick) (cycle : RunAlertCycle) (db : Store) (a : AlertId)
    (i : Nat) : Prop :=
  ∃ planned, (tick.queries cycle db)[i]? = some planned ∧ Evaluates a planned.alerts

theorem wp_worker_leavesAlone {rely : CycleRely} (tick : Tick) (cycle : RunAlertCycle)
    (db : Store) (i name : Nat) :
    Txn.wp rely (fun _ => True) (cycle.worker (tick.queries cycle db) i)
      (LeavesAlone a (EvaluatedBy tick cycle db a i)) (.start name) := by
  unfold RunAlertCycle.worker
  cases hquery : (tick.queries cycle db)[i]? with
  | none => exact leavesAlone_of_uncommitted _ rfl
  | some planned =>
      refine Txn.wp_mono _ (fun outcome s h hspared => h fun hsucceeded hevaluates => ?_)
        (wp_runOne_leavesAlone cycle planned ⟨rfl, fun write hwrite => by cases hwrite⟩)
      exact hspared hsucceeded ⟨planned, hquery, hevaluates⟩

/-- A worker beyond the plan has nothing to do. -/
theorem finished_beyond (tick : Tick) (cycle : RunAlertCycle) (db : Store) {i : Nat}
    (hi : (tick.queries cycle db).length ≤ i) :
    (tick.ran cycle db).Finished i (.ok (true, 0)) := by
  have hstart : (Sys.startAs tick.names db
      (cycle.worker (tick.queries cycle db))).Finished i (.ok (true, 0)) := by
    show cycle.worker (tick.queries cycle db) i = _
    rw [RunAlertCycle.worker, List.getElem?_eq_none hi]
    rfl
  rw [Tick.ran, Sys.Finished, Sys.workers_run_of_finished tick.oracle hstart]
  exact hstart

/-- Where none of its queries succeeds, a tick leaves the row of an alert as it was. -/
theorem filter_after {outcomes : Nat → Except PyError (Bool × Nat)}
    (hended : ∀ i < (tick.queries cycle db).length,
      (tick.ran cycle db).Finished i (outcomes i))
    (hfailed : ∀ i, EvaluatedBy tick cycle db a i → ¬Succeeded (outcomes i)) :
    (tick.after cycle db).alerts.filter (·.id = a) = db.alerts.filter (·.id = a) := by
  have hstart : ∀ i, Sys.Holds (.finding fun _ => True) (fun _ => True)
      (LeavesAlone a (EvaluatedBy tick cycle db a i)) ((Sys.startAs tick.names db
        (cycle.worker (tick.queries cycle db))).workers i) :=
    fun i => wp_worker_leavesAlone tick cycle db i _
  refine Sys.store_run_of_history (P := (Touches a · = false))
    (I := fun db' : Store => db'.alerts.filter (·.id = a) = db.alerts.filter (·.id = a))
    (fun write db' huntouched h => (filter_apply_of_untouched huntouched).trans h) rfl
    tick.schedule fun i => ?_
  have hleaves : Sys.Holds _ _ _ ((tick.ran cycle db).workers i) :=
    (Sys.store_run_of_wp (fun _ _ _ _ _ => trivial) trivial hstart tick.schedule).2 i
  by_cases hi : i < (tick.queries cycle db).length
  · rw [Sys.Holds, hended i hi, Txn.wp_ofExcept] at hleaves
    exact hleaves fun hsucceeded hevaluated => hfailed i hevaluated hsucceeded
  · rw [Sys.Holds, finished_beyond tick cycle db (not_lt.mp hi), Txn.wp_ofExcept] at hleaves
    refine hleaves fun _ hevaluated => ?_
    obtain ⟨planned, hplanned, -⟩ := hevaluated
    exact hi (List.getElem?_eq_some_iff.mp hplanned).1

/-! ## What is due after a tick -/

def Due (now : DateTime) (a : AlertId) (db : Store) : Prop :=
  ∃ row ∈ db.alerts, row.id = a ∧ row.isActive = true ∧ isDue now row = true

omit [PythonRuntime] [PersistenceRuntime] in
theorem not_due_of_ranSince {now : DateTime} (h : RanSince now a db) : ¬Due now a db := by
  rintro ⟨row, hrow, hid, -, hdue⟩
  obtain ⟨only, honly, hfrequency, last, hlast, hsince⟩ := h
  have hmem : row ∈ db.alerts.filter (·.id = a) :=
    List.mem_filter.mpr ⟨hrow, decide_eq_true hid⟩
  rw [honly] at hmem
  obtain rfl := List.mem_singleton.mp hmem
  simp only [isDue, hlast, decide_eq_true_eq] at hdue
  have hpast : (now - last : Int) ≤ 0 := Int.sub_nonpos_of_le hsince
  have hperiod : 0 < row.frequencySeconds * 1000000 := Int.mul_pos hfrequency (by decide)
  exact absurd (hperiod.trans_le hdue) (not_lt.mpr hpast)

omit [PythonRuntime] [PersistenceRuntime] in
theorem due_congr {now : DateTime} {db' : Store}
    (h : db'.alerts.filter (·.id = a) = db.alerts.filter (·.id = a)) :
    Due now a db' ↔ Due now a db := by
  have hrows : ∀ row, row ∈ db'.alerts ∧ row.id = a ↔ row ∈ db.alerts ∧ row.id = a := by
    intro row
    have hmem := congrArg (row ∈ ·) h
    simpa using hmem
  simp only [Due, ← and_assoc, hrows]

/--
Once all workers of a tick have ended, the alerts that are due at its start are
those that were due and whose queries all failed.
-/
theorem due_after_tick_iff (tick : Tick) (cycle : RunAlertCycle) {db : Store}
    (hids : (db.alerts.map (·.id)).Nodup) (hclock : tick.Clocked)
    {outcomes : Nat → Except PyError (Bool × Nat)}
    (hended : ∀ i < (tick.queries cycle db).length,
      (tick.ran cycle db).Finished i (outcomes i)) (a : AlertId) :
    Due tick.startedAt a (tick.after cycle db) ↔
      Due tick.startedAt a db ∧
        ∀ i, EvaluatedBy tick cycle db a i → ¬Succeeded (outcomes i) := by
  by_cases hfailed : ∀ i, EvaluatedBy tick cycle db a i → ¬Succeeded (outcomes i)
  · rw [due_congr (filter_after hended hfailed)]
    exact (and_iff_left hfailed).symm
  · refine iff_of_false (not_due_of_ranSince ?_) fun h => hfailed h.2
    obtain ⟨i, hi⟩ := not_forall.mp hfailed
    obtain ⟨⟨planned, hplanned, hevaluates⟩, hsucceeded⟩ := Classical.not_imp.mp hi
    have hi : i < (tick.queries cycle db).length :=
      (List.getElem?_eq_some_iff.mp hplanned).1
    exact ranSince_of_ran hids hclock
      ⟨i, planned, outcomes i, hplanned, hevaluates, hended i hi, not_not.mp hsucceeded⟩

end Ticks

/-! ## A tick over the sales alert -/

def answersAt (now : DateTime) (_ : Nat) (request : CycleCall) : CycleAnswer request :=
  match request with
  | .clock => now
  | .utcNow => now
  | request => quietOracle 0 0 request

/-- The cycle has one worker, which comes to its end. -/
def salesTick (txn : Nat) (now : DateTime) : Tick where
  txn := txn
  answers := answersAt now
  names i := txn + 1 + i
  oracle _ := answersAt now
  schedule := List.replicate 10 0

theorem clocked_salesTick (txn : Nat) (now : DateTime) :
    (salesTick txn now).Clocked := fun _ _ => le_rfl

theorem due_after_tick_iff_salesTick :
    Due 1 salesAlert.id (@Tick.after .plain (salesTick 10 1) .plain salesCycle salesStore) ↔
      Due 1 salesAlert.id salesStore ∧
        ∀ i, @EvaluatedBy .plain (salesTick 10 1) salesCycle salesStore salesAlert.id i →
          ¬Succeeded (.ok (true, 0)) :=
  @due_after_tick_iff .plain .plain (salesTick 10 1) salesCycle salesStore (by decide)
    (clocked_salesTick 10 1) (fun _ => .ok (true, 0))
    (fun i hi => by obtain rfl : i = 0 := Nat.lt_one_iff.mp hi; rfl) salesAlert.id

/-! ## Jobs between two ticks -/

section Jobs

variable [PythonRuntime] [PersistenceRuntime]

/-- The use cases that save alerts. -/
structure Dependencies where
  createAlert : CreateAlert
  updateAlert : UpdateAlert
  runAlertCycle : RunAlertCycle

/--
One job after the other: only the workers of a tick overlap.  The jobs of a user
are given the answers to their calls and the number of their session.
-/
inductive Job where
  | plannerTick (tick : Tick)
  | createAlert (id : AlertId) (request : CreateRequest)
      (answers : Nat → (request : CycleCall) → CycleAnswer request) (txn : Nat)
  | updateAlert (request : UpdateRequest)
      (answers : Nat → (request : CycleCall) → CycleAnswer request) (txn : Nat)

namespace Job

def after (dependencies : Dependencies) (db : Store) : Job → Store
  | .plannerTick tick => tick.after dependencies.runAlertCycle db
  | .createAlert id request answers txn =>
      ((dependencies.createAlert.run id request).eval answers (.start txn) db).store
  | .updateAlert request answers txn =>
      ((dependencies.updateAlert.run request).eval answers (.start txn) db).store

/-- No worker reads a time before `since`, and a created alert gets an identifier of its own. -/
def Timely (since : DateTime) (db : Store) : Job → Prop
  | .plannerTick tick => ∀ i op, since ≤ tick.oracle i op .clock
  | .createAlert id _ _ _ => ∀ row ∈ db.alerts, row.id ≠ id
  | .updateAlert _ _ _ => True

def afterAll (dependencies : Dependencies) (db : Store) (jobs : List Job) : Store :=
  jobs.foldl (Job.after dependencies) db

/-- Every job of a history is timely. -/
def AllTimely (dependencies : Dependencies) (since : DateTime) : Store → List Job → Prop
  | _, [] => True
  | db, job :: jobs =>
      job.Timely since db ∧ AllTimely dependencies since (job.after dependencies db) jobs

end Job

variable {dependencies : Dependencies} {a : AlertId} {db : Store} {since : DateTime}

omit [PythonRuntime] [PersistenceRuntime] in
theorem ranSince_saved {alert : SearchAlert} (stamp : Stamp) (h : RanSince since a db)
    (hlast : alert.id = a → ∃ last, alert.lastRunAt = some last ∧ since ≤ last) :
    RanSince since a (saved alert stamp db) := by
  have hscheduled : Scheduled a db := by
    obtain ⟨row, honly, hfrequency, -⟩ := h
    exact ⟨row, honly, hfrequency⟩
  exact ((runs since a).marked_applyAll (keepsRun_addWrites stamp hscheduled hlast)
    hscheduled).mpr (.inr h)

theorem ranSince_tick {tick : Tick} (hclock : ∀ i op, since ≤ tick.oracle i op .clock)
    (h : RanSince since a db) : RanSince since a (tick.after dependencies.runAlertCycle db) := by
  have hscheduled : Scheduled a db := by
    obtain ⟨row, honly, hfrequency, -⟩ := h
    exact ⟨row, honly, hfrequency⟩
  exact (keptBy_ran hclock hscheduled).2 h

omit [PersistenceRuntime] in
/-- An edit saves the last run that it has read. -/
theorem ranSince_update (update : UpdateAlert) (request : UpdateRequest)
    (answers : Nat → (request : CycleCall) → CycleAnswer request) (txn : Nat)
    (h : RanSince since a db) :
    RanSince since a ((update.run request).eval answers (.start txn) db).store := by
  rw [eval_run]
  split
  · exact h
  · exact h
  · next alert hget =>
    obtain ⟨error, -, hstore⟩ | ⟨edited, hedit, -, hstore⟩ :=
      eval_saveEdit answers txn db update request alert
    · rw [hstore]
      exact h
    · rw [hstore]
      refine ranSince_saved _ h fun hid => ?_
      obtain ⟨row, honly, -, last, hlast, hsince⟩ := h
      have hsame : edited.id = request.alertId :=
        (edit_eq_ok hedit).2.1.1.trans (get_eq_ok hget).1
      have hrow : toDomain db row = .ok alert := by
        have hfind := find_of_onlyRow honly
        rw [← hid, hsame] at hfind
        rw [AlertRepository.get, hfind] at hget
        cases hdomain : toDomain db row with
        | error error => simp [hdomain, Except.map] at hget
        | ok loaded => simpa [hdomain, Except.map] using hget
      refine ⟨last, ?_, hsince⟩
      rw [lastRunAt_edit hedit, ← hlast, ← fields_of_toDomain hrow]
      rfl

omit [PersistenceRuntime] in
/-- A creation saves an alert of its own, or nothing. -/
theorem ranSince_create (create : CreateAlert) {id : AlertId} (hid : id ≠ a)
    (request : CreateRequest) (answers : Nat → (request : CycleCall) → CycleAnswer request)
    (txn : Nat) (h : RanSince since a db) :
    RanSince since a ((create.run id request).eval answers (.start txn) db).store := by
  unfold CreateAlert.run
  cases hparse : parseConditions create.fieldRegistry request.conditionStrings with
  | error error => exact h
  | ok conditions =>
      change RanSince since a (Txn.eval answers ((Txn.ofExcept (SearchAlert.create id
        request.userId request.name request.portalSlugs request.frequencySeconds conditions
        (answers 0 .clock))).bind _) ((Session.start txn).answered .clock _) db).store
      cases hcreate : SearchAlert.create id request.userId request.name
          request.portalSlugs request.frequencySeconds conditions (answers 0 .clock) with
      | error error => exact h
      | ok alert =>
          have hother : alert.id ≠ a := (owner_of_new hcreate).1.trans_ne hid
          change RanSince since a (Txn.eval answers
            ((Txn.commitOr PyError.integrityError).bind fun _ => Txn.done alert)
            (((Session.start txn).answered .clock _).wrote
              (addWrites alert ⟨txn, 1⟩ db)) db).store
          cases hadmits : Database.admits db (addWrites alert ⟨txn, 1⟩ db) with
          | false => simpa [Txn.commitOr, Txn.bind, Txn.eval, Session.start, hadmits]
              using h
          | true =>
              rw [Txn.eval_commitOr_bind _ _ (by simpa [Session.start] using hadmits)]
              exact ranSince_saved _ h fun heq => absurd heq hother

theorem ranSince_after {job : Job} (htimely : job.Timely since db)
    (h : RanSince since a db) : RanSince since a (job.after dependencies db) := by
  cases job with
  | plannerTick tick => exact ranSince_tick htimely h
  | createAlert id request answers txn =>
      refine ranSince_create _ (fun hid => ?_) request answers txn h
      obtain ⟨row, honly, -⟩ := h
      have hmem : row ∈ db.alerts.filter (·.id = a) := honly ▸ List.mem_singleton_self row
      obtain ⟨hrow, hrowId⟩ := List.mem_filter.mp hmem
      exact htimely row hrow ((of_decide_eq_true hrowId).trans hid.symm)
  | updateAlert request answers txn => exact ranSince_update _ request answers txn h

/-- The record of a run stays, whatever jobs follow. -/
theorem ranSince_afterAll {jobs : List Job}
    (htimely : Job.AllTimely dependencies since db jobs) (h : RanSince since a db) :
    RanSince since a (Job.afterAll dependencies db jobs) := by
  induction jobs generalizing db with
  | nil => exact h
  | cons job jobs ih => exact ih htimely.2 (ranSince_after htimely.1 h)

/--
An alert that was run waits for its frequency.  However the workers of a tick take
turns, and whatever alerts are created, edited and run in between, a tick that lists
an alert starts no earlier than its frequency after any tick that ran it.
-/
theorem runs_are_spaced (dependencies : Dependencies) {first second : Tick} {db : Store}
    {jobs : List Job} {alert : SearchAlert} {due : List SearchAlert}
    (hids : (db.alerts.map (·.id)).Nodup) (hclock : first.Clocked)
    (hran : first.Ran dependencies.runAlertCycle alert.id db)
    (htimely : Job.AllTimely dependencies first.startedAt
      (first.after dependencies.runAlertCycle db) jobs)
    (hdue : second.due (Job.afterAll dependencies
      (first.after dependencies.runAlertCycle db) jobs) = .ok due) (halert : alert ∈ due) :
    first.startedAt + alert.frequencySeconds * 1000000 ≤ second.startedAt := by
  obtain ⟨only, honly, -, last, hlast, hsince⟩ :=
    ranSince_afterAll htimely (ranSince_of_ran hids hclock hran)
  rw [Tick.due_eq] at hdue
  obtain ⟨row, hrow, hdomain⟩ := (mem_of_mapM_eq_ok hdue alert).mp halert
  obtain ⟨hactive, hisDue⟩ := List.mem_filter.mp hrow
  have hsame : row = only := by
    have hmem : row ∈ (Job.afterAll dependencies (first.after dependencies.runAlertCycle db)
        jobs).alerts.filter (·.id = alert.id) := by
      refine List.mem_filter.mpr ⟨(List.mem_filter.mp hactive).1, ?_⟩
      rw [← fields_of_toDomain hdomain]
      exact decide_eq_true rfl
    rw [honly] at hmem
    exact List.mem_singleton.mp hmem
  rw [← hsame] at hlast
  have hfrequency : row.frequencySeconds = alert.frequencySeconds := by
    rw [← fields_of_toDomain hdomain]
    rfl
  simp only [isDue, hlast, decide_eq_true_eq, hfrequency] at hisDue
  have hwait : alert.frequencySeconds * 1000000 + last ≤ second.startedAt :=
    Int.add_le_of_le_sub_right hisDue
  refine le_trans ?_ hwait
  rw [Int.add_comm]
  exact Int.add_le_add_left hsince _

end Jobs

def salesDependencies : Dependencies :=
  ⟨⟨defaultRegistry⟩, salesRace.update, salesCycle⟩

/-- The alert is renamed an hour before it is run again. -/
theorem runs_are_spaced_renamed :
    (salesTick 10 1).startedAt + (renamed.markRun 1).frequencySeconds * 1000000 ≤
      (salesTick 20 3600000001).startedAt :=
  @runs_are_spaced .plain .plain salesDependencies (salesTick 10 1) (salesTick 20 3600000001)
    salesStore [.updateAlert salesRace.request (answersAt 1) 15] (renamed.markRun 1)
    [renamed.markRun 1] (by decide) (clocked_salesTick 10 1)
    ⟨0, _, .ok (true, 0), rfl, ⟨salesAlert, .head _, rfl⟩, rfl, rfl⟩ ⟨trivial, trivial⟩ rfl
    (.head _)

end RealEstateTracker.Alerts
