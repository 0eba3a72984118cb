import RealEstateTracker.Alerts.ReadBack
import RealEstateTracker.Alerts.UpdateAlert
import RealEstateTracker.Application.QueryGroups
import RealEstateTracker.Cycle.AtMostOnce
import RealEstateTracker.Foundation.RelyGuarantee

/-!
# Lost updates

A cycle saves the alerts that the planner tick listed, with a new last run, and
an edit saves the alert that it read, with new fields.  Both write back the whole
aggregate: what was committed between the read and the commit is overwritten.
-/

namespace RealEstateTracker.Alerts

open Foundation Domain Application Persistence AlertRepository RealEstateTracker.Cycle

/-! ## A planner tick and an edit -/

inductive RaceResult where
  | updated (alert : SearchAlert)
  | listed (due : List SearchAlert)
  | ran (outcome : Bool × Nat)

abbrev RaceSys := Sys Store Write CycleCall CycleAnswer PyError RaceResult

section Programs

variable [PythonRuntime]

/-- The transaction of the planner tick that lists the due alerts. -/
def PlannerTick.listDue : CycleTxn (List SearchAlert) := do
  let now ← clock
  let due ← Txn.query (AlertRepository.listDue now)
  Txn.ofExcept due

variable [PersistenceRuntime]

structure Race where
  update : UpdateAlert
  request : UpdateRequest
  cycle : RunAlertCycle

/--
Worker 0 edits the alert, worker 1 lists the due alerts, and the others are the
workers of the cycle over what it lists.
-/
def Race.programs (race : Race) (due : List SearchAlert) : Nat → CycleTxn RaceResult
  | 0 => (race.update.run race.request).bind fun alert => .done (.updated alert)
  | 1 => PlannerTick.listDue.bind fun due => .done (.listed due)
  | k + 2 =>
      (race.cycle.worker (plan race.cycle.capabilities due) k).bind fun outcome =>
        .done (.ran outcome)

structure Race.Ticks (race : Race) (due : List SearchAlert) (store : Store)
    (oracle : Oracle CycleCall CycleAnswer) (first : List Nat) : Prop where
  listing : ∀ i ∈ first, i < 2
  listed : ((Sys.start store (race.programs due)).run oracle first).Finished 1
    (.ok (.listed due))

end Programs

/-! ## Saves of one alert -/

def savedRow (a : AlertId) : Write → Option AlertRow
  | .insertAlert row => if row.id = a then some row else none
  | .updateAlert _ model => if model.id = a then some model else none
  | _ => none

def savedRows (a : AlertId) (writes : List Write) : List AlertRow :=
  writes.filterMap (savedRow a)

def HasSaved (a : AlertId) (session : Session Write CycleCall CycleAnswer)
    (model : AlertRow) : Prop :=
  ∃ batch ∈ session.history, model ∈ savedRows a batch

def recordStep (a : AlertId) (sys : RaceSys) (last : Option DateTime) (i : Nat) :
    Option DateTime :=
  match (sys.workers i).code with
  | .commit _ =>
      if 2 ≤ i ∧ Database.admits sys.store (sys.workers i).session.pending = true then
        match (savedRows a (sys.workers i).session.pending).getLast? with
        | some model => model.lastRunAt
        | none => last
      else last
  | _ => last

/-- The last run of the alert that the workers of the cycle have recorded in a run. -/
def lastRecorded (a : AlertId) (oracle : Oracle CycleCall CycleAnswer) :
    RaceSys → Option DateTime → List Nat → Option DateTime
  | _, last, [] => last
  | sys, last, i :: schedule =>
      lastRecorded a oracle (sys.step oracle i) (recordStep a sys last i) schedule

theorem lastRecorded_concat (a : AlertId) (oracle : Oracle CycleCall CycleAnswer)
    (sys : RaceSys) (last : Option DateTime) (schedule : List Nat) (i : Nat) :
    lastRecorded a oracle sys last (schedule ++ [i]) =
      recordStep a (sys.run oracle schedule)
        (lastRecorded a oracle sys last schedule) i := by
  induction schedule generalizing sys last with
  | nil => rfl
  | cons j schedule ih => exact ih _ _

section Statement

variable [PythonRuntime]

/--
When a worker is about to commit a save of the alert, the rows that the save
replaces are still there, and the stored alert is the one that was read: for the
edit its last run is the one that the save carries, for the cycle the rest of it
is as it was listed.
-/
structure SavesWhatItRead (a : AlertId) (due : List SearchAlert) (sys : RaceSys)
    (i : Nat) : Prop where
  current : SaveIsCurrent a sys i
  unchanged : ∀ next, (sys.workers i).code = .commit next →
    Database.admits sys.store (sys.workers i).session.pending = true →
      ∀ model ∈ savedRows a (sys.workers i).session.pending, ∀ stored,
        AlertRepository.get a sys.store = .ok (some stored) →
          if i = 0 then model.lastRunAt = stored.lastRunAt
          else ∀ listed ∈ due, listed.id = a →
            listed = withLastRun stored listed.lastRunAt

/-- The stored alert has the fields that were requested and the run that was recorded. -/
structure BothApplied (race : Race) (alert : SearchAlert) (sys : RaceSys)
    (last : Option DateTime) (final : SearchAlert) : Prop where
  stored : AlertRepository.get race.request.alertId sys.store = .ok (some final)
  requested : Requested race.update race.request alert final
  recorded : final.lastRunAt = last
  runFirst : ∃ now, race.update.edit race.request now (withLastRun alert last) = .ok final
  editFirst : ∃ now edited, race.update.edit race.request now alert = .ok edited ∧
    final = withLastRun edited last

theorem savesWhatItRead_of_not_commit {a : AlertId}
    {due : List SearchAlert} {sys : RaceSys} {i : Nat}
    (h : ∀ next, (sys.workers i).code ≠ .commit next) : SavesWhatItRead a due sys i where
  current := by
    unfold SaveIsCurrent
    split
    · next next hcode => exact absurd hcode (h next)
    · trivial
  unchanged next hcode := absurd hcode (h next)

end Statement
/-! ## What is pending for the alert -/

def ApartFromAlerts (write : Write) : Prop :=
  write.table ∉ [.alerts, .conditions, .subscriptions]

section Writes

variable {a : AlertId} {alert : SearchAlert} {write : Write} {writes : List Write}
  {db : Store}

theorem spares_of_apart (h : ApartFromAlerts write) : Spares a write := by
  cases write <;> first | trivial | simp [ApartFromAlerts, Write.table] at h

theorem touches_of_apart (h : ApartFromAlerts write) : Touches a write = false := by
  cases write <;> first | rfl | simp [ApartFromAlerts, Write.table] at h

theorem savedRows_filter (a : AlertId) (writes : List Write) :
    savedRows a (writes.filter (Touches a)) = savedRows a writes := by
  rw [savedRows, List.filterMap_filter]
  refine List.filterMap_congr fun write _ => ?_
  cases write <;> simp [savedRow, Touches]

theorem savedRows_of_untouched (h : writes.filter (Touches a) = []) :
    savedRows a writes = [] := by
  rw [← savedRows_filter, h]
  rfl

theorem savedRows_of_touched {loaded model : AlertRow} (hid : model.id = a)
    (h : writes.filter (Touches a) = [.updateAlert loaded model]) :
    savedRows a writes = [model] := by
  rw [← savedRows_filter, h]
  simp [savedRows, savedRow, hid]

theorem portalSlugs_applyAll {slugs : FrozenSet} (hslugs : portalSlugs a db = slugs)
    (hinserted : ∀ row ∈ insertedSubscriptions writes, row.alertId = a →
      row.portalSlug ∈ slugs.sorted) :
    portalSlugs a (applyAll writes db) = slugs := by
  refine FrozenSet.ext fun slug => ?_
  rw [← hslugs] at hinserted ⊢
  simp only [portalSlugs, FrozenSet.mem_ofList, List.mem_map, List.mem_filter,
    subscriptions_applyAll, List.mem_append, decide_eq_true_eq] at hinserted ⊢
  constructor
  · rintro ⟨row, ⟨hrow | hrow, hid⟩, rfl⟩
    · exact ⟨row, ⟨hrow, hid⟩, rfl⟩
    · exact hinserted row hrow hid
  · rintro ⟨row, ⟨hrow, hid⟩, rfl⟩
    exact ⟨row, ⟨.inl hrow, hid⟩, rfl⟩

theorem insertedSubscriptions_of_apart (h : ∀ write ∈ writes, ApartFromAlerts write) :
    insertedSubscriptions writes = [] := by
  refine List.filterMap_eq_nil_iff.mpr fun write hwrite => ?_
  have htable := h write hwrite
  cases write <;> first | rfl | simp [ApartFromAlerts, Write.table] at htable

end Writes

/--
What a transaction has pending for alert `a`: nothing, or one save of it, whose
update is of the stored row as long as the rows that the save replaces are there.
-/
inductive PendingFor (a : AlertId) (P : SearchAlert → Prop) (db : Store)
    (pending : List Write) : Prop
  | unsaved (untouched : pending.filter (Touches a) = [])
      (inserted : ∀ row ∈ insertedRows pending, row.alertId ≠ a)
      (subscribed : ∀ row ∈ insertedSubscriptions pending, row.alertId ≠ a)
  | saved (alert : SearchAlert) (stamp : Stamp) (loaded : AlertRow) (halert : P alert)
      (hid : alert.id = a)
      (touched : pending.filter (Touches a) = [.updateAlert loaded (toModel alert)])
      (inserted : (insertedRows pending).filter (·.alertId = a) =
        conditionRows alert stamp)
      (subscribed : ∀ row ∈ insertedSubscriptions pending, row.alertId = a →
        row.portalSlug ∈ alert.portalSlugs.sorted)
      (current : (∀ row ∈ db.conditions, row.alertId = a →
        row.id ∈ deletedIds pending) → find a db = some loaded)

section PendingFor

variable {a : AlertId} {P : SearchAlert → Prop} {db db' : Store}
  {pending writes : List Write}

theorem PendingFor.nil : PendingFor a P db [] := .unsaved rfl
  (by simp [insertedRows, Store.empty]) (by simp [insertedSubscriptions])

theorem PendingFor.apart (h : PendingFor a P db pending)
    (hwrites : ∀ write ∈ writes, ApartFromAlerts write) :
    PendingFor a P db (pending ++ writes) := by
  have htouched : (pending ++ writes).filter (Touches a) =
      pending.filter (Touches a) := by
    have hnone : writes.filter (Touches a) = [] :=
      List.filter_eq_nil_iff.mpr fun write hwrite => by
        simp [touches_of_apart (hwrites write hwrite)]
    rw [List.filter_append, hnone, List.append_nil]
  obtain ⟨hids, hrows⟩ := spares_append (fun write hwrite => by
    have := hwrites write hwrite
    cases write <;> first | trivial | simp [ApartFromAlerts, Write.table] at this) pending
  have hsubscribed : insertedSubscriptions (pending ++ writes) =
      insertedSubscriptions pending := by
    rw [insertedSubscriptions_append, insertedSubscriptions_of_apart hwrites,
      List.append_nil]
  cases h with
  | unsaved untouched inserted subscribed =>
      exact .unsaved (htouched.trans untouched) (by rwa [hrows]) (by rwa [hsubscribed])
  | saved alert stamp loaded halert hid touched inserted subscribed current =>
      exact .saved alert stamp loaded halert hid (htouched.trans touched)
        (by rwa [hrows]) (by rwa [hsubscribed]) (by rwa [hids])

variable {alert : SearchAlert} {old : Uuid → Prop} {flag : Bool}
  {worker : Worker Store Write CycleCall CycleAnswer PyError RaceResult}

theorem insertedRows_ne_nil {stamp : Stamp} (h : (insertedRows pending).filter
    (·.alertId = a) = conditionRows alert stamp) :
    ∃ row ∈ insertedRows pending, row.alertId = a := by
  obtain ⟨row, hrow⟩ := List.exists_mem_of_ne_nil _ (conditionRows_ne_nil alert stamp)
  rw [← h, List.mem_filter] at hrow
  exact ⟨row, hrow.1, by simpa using hrow.2⟩

theorem PendingFor.other (h : PendingFor a P db worker.session.pending)
    (hfacts : WorkerFacts a old db.conditions flag worker)
    (hdb : Committed old worker db) (hne : alert.id ≠ a) :
    PendingFor a P db (worker.session.pending ++
      addWrites alert worker.session.stamp (worker.session.view db)) := by
  obtain ⟨hrows, hids⟩ := hfacts.whole_other hdb hne
  have htouched : (addWrites alert worker.session.stamp
      (worker.session.view db)).filter (Touches a) = [] :=
    (touched_addWrites a).trans (if_neg hne)
  have hsubs := @mem_insertedSubscriptions_addWrites alert worker.session.stamp
    (worker.session.view db)
  cases h with
  | unsaved untouched inserted subscribed =>
      refine .unsaved ?_ ?_ ?_
      · rw [List.filter_append, untouched, htouched, List.append_nil]
      · intro row hrow
        obtain hrow | hrow := hfacts.mem_insertedRows_added hdb hrow
        · exact inserted row hrow
        · rwa [(mem_conditionRows hrow).1]
      · intro row hrow
        rw [insertedSubscriptions_append, List.mem_append] at hrow
        obtain hrow | hrow := hrow
        · exact subscribed row hrow
        · obtain ⟨slug, -, rfl, -⟩ := hsubs.mp hrow
          exact hne
  | saved saved stamp loaded halert hid touched inserted subscribed current =>
      refine .saved saved stamp loaded halert hid ?_ (hrows.trans inserted) ?_ ?_
      · rw [List.filter_append, touched, htouched, List.append_nil]
      · intro row hrow hrowA
        rw [insertedSubscriptions_append, List.mem_append] at hrow
        obtain hrow | hrow := hrow
        · exact subscribed row hrow hrowA
        · obtain ⟨slug, -, rfl, -⟩ := hsubs.mp hrow
          exact absurd hrowA hne
      · exact fun hall => current fun row hrow hrowA =>
          (hids row hrow hrowA).mp (hall row hrow hrowA)

theorem PendingFor.self (h : PendingFor a P db worker.session.pending)
    (hfacts : WorkerFacts a old db.conditions false worker)
    (hdb : Committed old worker db) (hid : alert.id = a) (halert : P alert)
    (hreadable : ReadableRow a db) :
    PendingFor a P db (worker.session.pending ++
      addWrites alert worker.session.stamp (worker.session.view db)) := by
  obtain ⟨hrows, hall⟩ := hfacts.whole_saved hdb hid
  obtain ⟨⟨loaded, hfind, -⟩, -⟩ := hreadable
  cases h with
  | saved saved stamp loaded halert' hid' touched inserted subscribed current =>
      obtain ⟨row, hrow, hrowA⟩ := insertedRows_ne_nil inserted
      exact absurd hrowA ((hfacts.unsaved rfl).1 row hrow)
  | unsaved untouched inserted subscribed =>
      have hview : find a (worker.session.view db) = some loaded :=
        (find_applyAll_of_untouched untouched).trans hfind
      have htouched : (addWrites alert worker.session.stamp
          (worker.session.view db)).filter (Touches a) =
            [.updateAlert loaded (toModel alert)] := by
        rw [touched_addWrites, if_pos hid, rowWrite, hid, hview]
      refine .saved alert worker.session.stamp loaded halert hid ?_ hrows ?_
        fun _ => hfind
      · rw [List.filter_append, untouched, htouched, List.nil_append]
      · intro row hrow hrowA
        rw [insertedSubscriptions_append, List.mem_append] at hrow
        obtain hrow | hrow := hrow
        · exact absurd hrowA (subscribed row hrow)
        · obtain ⟨slug, hslug, rfl, -⟩ :=
            mem_insertedSubscriptions_addWrites.mp hrow
          exact hslug

theorem PendingFor.kept (h : PendingFor a P db pending)
    (hrows : rowsOf a db' = rowsOf a db) (hfind : find a db' = find a db) :
    PendingFor a P db' pending := by
  have hmem : ∀ row, row ∈ db'.conditions ∧ row.alertId = a ↔
      row ∈ db.conditions ∧ row.alertId = a := by
    intro row
    have hsame : row ∈ rowsOf a db' ↔ row ∈ rowsOf a db := by rw [hrows]
    simpa [rowsOf] using hsame
  cases h with
  | unsaved untouched inserted subscribed =>
      exact .unsaved untouched inserted subscribed
  | saved alert stamp loaded halert hid touched inserted subscribed current =>
      refine .saved alert stamp loaded halert hid touched inserted subscribed
        fun hall => hfind.trans (current fun row hrow hrowA => ?_)
      have hrow' := (hmem row).mpr ⟨hrow, hrowA⟩
      exact hall row hrow'.1 hrow'.2

/-- A commit that brings a row which the pending save does not replace. -/
theorem PendingFor.replaced (h : PendingFor a P db pending)
    (hnew : ∃ row ∈ db'.conditions, row.alertId = a ∧ row.id ∉ deletedIds pending) :
    PendingFor a P db' pending := by
  obtain ⟨row, hrow, hrowA, hkept⟩ := hnew
  cases h with
  | unsaved untouched inserted subscribed =>
      exact .unsaved untouched inserted subscribed
  | saved alert stamp loaded halert hid touched inserted subscribed current =>
      exact .saved alert stamp loaded halert hid touched inserted subscribed
        fun hall => absurd (hall row hrow hrowA) hkept

end PendingFor

/-! ## What each worker saves -/

section Contracts

variable [PythonRuntime] [PersistenceRuntime]

/-- The alerts that a worker saves under the identifier of the edited one. -/
def Race.SavedBy (race : Race) (due : List SearchAlert) (alert : SearchAlert) :
    Nat → SearchAlert → Prop
  | 0, saved => ∃ now last, race.update.edit race.request now
      (withLastRun alert last) = .ok saved
  | 1, _ => False
  | _ + 2, saved => ∃ listed ∈ due, ∃ now, saved = listed.markRun now

/-- Until it has saved, the edit finds the alert as it was, but for the last run. -/
def Race.contract (race : Race) (due : List SearchAlert) (alert : SearchAlert)
    (i : Nat) : Contract Store Write CycleCall CycleAnswer where
  finds s db := i = 0 → (∀ model, ¬HasSaved race.request.alertId s model) →
    ∃ last, AlertRepository.get race.request.alertId db =
      .ok (some (withLastRun alert last))
  grows _ _ := True
  answers _ _ := True
  promises s db writes := (∀ write ∈ writes, ApartFromAlerts write) ∨
    ∃ saved, writes = addWrites saved s.stamp (s.view db) ∧
      (saved.id = race.request.alertId → race.SavedBy due alert i saved)
  refl _ := trivial
  trans _ _ _ _ _ := trivial

/-- The edit succeeds only after it has saved. -/
def Race.Ends (race : Race) : Nat → Except PyError RaceResult →
    Session Write CycleCall CycleAnswer → Store → Prop
  | 0, .ok _, s, _ => ∃ model, HasSaved race.request.alertId s model
  | _, _, _, _ => True

variable {race : Race} {due : List SearchAlert} {alert : SearchAlert}
  {s : Session Write CycleCall CycleAnswer} {db : Store} {i : Nat} {α : Type}

omit [PythonRuntime] [PersistenceRuntime] in
theorem savedRows_addWrites (saved : SearchAlert) (stamp : Stamp) :
    savedRows saved.id (addWrites saved stamp db) = [toModel saved] := by
  rw [← savedRows_filter, touched_addWrites, if_pos rfl, rowWrite]
  split <;> simp [savedRows, savedRow, toModel]

theorem keeps_edit (hid : alert.id = race.request.alertId) :
    Txn.Keeps (race.contract due alert 0) (race.programs due 0)
      (race.Ends 0) (.start 0) db := by
  intro now _ db' _ hfinds
  refine ⟨.inl (by simp), ?_⟩
  obtain ⟨last, hget⟩ := hfinds rfl fun model ⟨batch, hbatch, _⟩ => by
    cases hbatch
  change Txn.Keeps _ (((Txn.ofExcept (AlertRepository.get race.request.alertId
    db')).bind _).bind _) _ _ _
  rw [hget]
  change Txn.Keeps _ (((Txn.ofExcept (race.update.edit race.request now
    (withLastRun alert last))).bind _).bind _) _ _ _
  cases hedit : race.update.edit race.request now (withLastRun alert last) with
  | error error => trivial
  | ok edited =>
      intro db'' _ _
      refine ⟨.inr ⟨edited, rfl, fun _ => ⟨now, last, hedit⟩⟩, fun _ _ _ => ?_⟩
      refine ⟨⟨toModel edited, _, .head _, ?_⟩, trivial⟩
      have hedited : edited.id = race.request.alertId :=
        (edit_eq_ok hedit).2.1.1.trans hid
      rw [← hedited, Session.pending_wrote]
      exact (savedRows_addWrites edited _).symm ▸ List.mem_singleton_self _

theorem keeps_listDue :
    Txn.Keeps (race.contract due alert 1) (race.programs due 1) (race.Ends 1) s db := by
  intro now _ db' _ _
  refine ⟨.inl (by simp), ?_⟩
  change Txn.Keeps _ ((Txn.ofExcept (listDue now
    ((s.answered .clock now).view db'))).bind _) _ _ _
  cases listDue now ((s.answered .clock now).view db') <;> trivial

omit [PersistenceRuntime] in
theorem keeps_of_apart {p : CycleTxn α} (h : p.Only ApartFromAlerts) :
    Txn.Keeps (race.contract due alert i) p (Txn.keptOk fun _ _ _ => True) s db := by
  refine Txn.keeps_mono p ?_ (Txn.keeps_of_within
    (fun _ _ _ _ hwrites => Or.inl hwrites) h.within)
  rintro (error | value) _ _ _ <;> trivial

omit [PythonRuntime] [PersistenceRuntime] in
theorem apart_of_inTables {tables : List Table} (halerts : .alerts ∉ tables)
    (hconditions : .conditions ∉ tables) (hsubscriptions : .subscriptions ∉ tables)
    {write : Write} (h : InTables tables write) : ApartFromAlerts write := by
  unfold ApartFromAlerts
  intro hmem
  simp only [List.mem_cons, List.not_mem_nil, or_false] at hmem
  rcases hmem with heq | heq | heq
  · exact halerts (heq ▸ h)
  · exact hconditions (heq ▸ h)
  · exact hsubscriptions (heq ▸ h)

theorem keeps_evaluateAndPersist {k : Nat} {alerts : List SearchAlert}
    (hdue : ∀ listed ∈ alerts, listed ∈ due) (candidates : List Property)
    (now : DateTime) : Txn.Keeps (race.contract due alert (k + 2))
      (race.cycle.evaluateAndPersist alerts candidates now)
        (Txn.keptOk fun _ _ _ => True) s db := by
  refine Txn.keeps_ok_foldEach (fun _ _ _ _ => True) ?_ trivial
  intro before listed after created s db halerts _
  have hlisted : listed ∈ alerts := by simp [halerts]
  refine Txn.keeps_ok_bind (keeps_of_apart (Txn.only_ofExcept _)) fun found _ _ _ => ?_
  refine Txn.keeps_ok_bind (keeps_of_apart (Txn.only_foldEach fun created found _ =>
    (only_persistMatch _ _ created found).mono fun _ => apart_of_inTables
      (by decide) (by decide) (by decide))) fun created s db _ => ?_
  intro db' _ _
  exact ⟨.inr ⟨_, rfl, fun _ => ⟨listed, hdue listed hlisted, now, rfl⟩⟩, trivial⟩

theorem keeps_worker (k : Nat) : Txn.Keeps (race.contract due alert (k + 2))
    (race.programs due (k + 2)) (race.Ends (k + 2)) s db := by
  refine Txn.keeps_mono (Q := Txn.keptOk fun _ _ _ => True) _ ?_ ?_
  · intro outcome s db _
    cases outcome <;> trivial
  refine Txn.keeps_ok_bind (P := fun _ _ _ => True) ?_ fun _ _ _ _ => trivial
  unfold RunAlertCycle.worker
  split
  · next planned hplanned =>
    have hdue : ∀ listed ∈ planned.alerts, listed ∈ due := fun listed hlisted =>
      ((planned_of_mem (List.mem_of_getElem? hplanned)).mem_alerts.mp hlisted).1
    refine Txn.keeps_ok_bind (keeps_of_apart fun now => Txn.only_done now)
      fun now s db _ => ?_
    refine Txn.keeps_ok_bind (keeps_of_apart (Txn.only_attempt
      ((only_resolveCandidates race.cycle planned now).mono fun _ => apart_of_inTables
        (by decide) (by decide) (by decide)))) fun outcome s db _ => ?_
    rcases outcome with error | propertyIds
    · cases error with
      | scraperError error =>
          refine Txn.keeps_ok_bind (keeps_of_apart fun now => Txn.only_done now)
            fun finishedAt s db _ => ?_
          refine Txn.keeps_ok_bind (keeps_of_apart ((only_recordExecution _).mono
            fun _ => apart_of_inTables (by decide) (by decide) (by decide)))
            fun _ s db _ => ?_
          exact fun _ _ _ => ⟨trivial, trivial⟩
      | _ => trivial
    · refine Txn.keeps_ok_bind (keeps_of_apart ((only_loadCandidates _).mono
        fun _ => apart_of_inTables (by decide) (by decide) (by decide)))
        fun candidates s db _ => ?_
      refine Txn.keeps_ok_bind (keeps_evaluateAndPersist hdue candidates now)
        fun created s db _ => ?_
      exact fun _ _ _ => ⟨trivial, trivial⟩
  · trivial

end Contracts

/-! ## Each transaction saves the alert at most once -/

section Savings

variable {a : AlertId} {α β : Type} {flag : Bool}

theorem saving_bind_of_only {p : CycleTxn α} {f : α → CycleTxn β}
    (hp : p.Only ApartFromAlerts) (hf : ∀ value, Saving a flag (f value)) :
    Saving a flag (p.bind f) := by
  induction p with
  | done value => exact hf value
  | raise error => trivial
  | stmt writes next ih =>
      exact .inl ⟨fun stamp db write hwrite => spares_of_apart (hp.1 stamp db write hwrite),
        fun stamp db => ih stamp db (hp.2 stamp db)⟩
  | call request next ih => exact fun answer => ih answer (hp answer)
  | commit next ih => exact hp.elim

theorem saving_commitOr {error : PyError} {f : Unit → CycleTxn β}
    (hf : Saving a false (f ())) :
    Saving a flag ((Txn.commitOr error : CycleTxn Unit).bind f) := by
  rintro (_ | _)
  · trivial
  · exact hf

variable [PythonRuntime]

theorem saving_update (update : UpdateAlert) (request : UpdateRequest)
    {f : SearchAlert → CycleTxn β} (hf : ∀ alert, Saving a false (f alert)) :
    Saving a false ((update.run request).bind f) := by
  unfold UpdateAlert.run
  simp only [Txn.bind_eq, Txn.bind_assoc]
  refine saving_bind_of_only (fun now => Txn.only_done now) fun now => ?_
  refine saving_bind_of_only (Txn.only_query _) fun found => ?_
  refine saving_bind_of_only (Txn.only_ofExcept _) fun alert => ?_
  cases alert with
  | none => trivial
  | some alert =>
      simp only [Txn.bind_assoc]
      refine saving_bind_of_only (Txn.only_ofExcept _) fun edited => ?_
      exact .inr ⟨edited, rfl, fun _ => rfl, fun _ _ => saving_commitOr (hf edited)⟩

variable [PersistenceRuntime]

theorem saving_evaluateAndPersist (cycle : RunAlertCycle) (candidates : List Property)
    (now : DateTime) {f : Nat → CycleTxn β}
    (hf : ∀ flag created, Saving a flag (f created)) {alerts : List SearchAlert}
    (hdistinct : (alerts.map (·.id)).Nodup)
    (honce : flag = true → a ∉ alerts.map (·.id)) :
    Saving a flag ((cycle.evaluateAndPersist alerts candidates now).bind f) := by
  unfold RunAlertCycle.evaluateAndPersist
  generalize 0 = created
  induction alerts generalizing flag created with
  | nil => exact hf flag created
  | cons alert rest ih =>
      rw [List.map_cons, List.nodup_cons] at hdistinct
      rw [Txn.foldEach, Txn.bind_assoc, RunAlertCycle.persistAlert]
      simp only [Txn.bind_eq, Txn.bind_assoc]
      refine saving_bind_of_only (Txn.only_ofExcept _) fun found => ?_
      refine saving_bind_of_only (Txn.only_foldEach fun created found _ =>
        (only_persistMatch _ _ created found).mono fun _ => apart_of_inTables
          (by decide) (by decide) (by decide)) fun created => ?_
      refine .inr ⟨alert.markRun now, rfl, fun hid => ?_, fun stamp db => ?_⟩
      · cases flag with
        | false => rfl
        | true => exact absurd (hid ▸ List.mem_cons_self) (honce rfl)
      · refine ih hdistinct.2 (fun hsaved hmem => ?_) created
        rcases Bool.or_eq_true_iff.mp hsaved with hflag | hid
        · exact honce hflag (List.mem_cons_of_mem _ hmem)
        · obtain rfl : alert.id = a := of_decide_eq_true hid
          exact hdistinct.1 hmem

theorem saving_runOne (cycle : RunAlertCycle) {planned : PlannedQuery}
    (hdistinct : (planned.alerts.map (·.id)).Nodup) {f : Bool × Nat → CycleTxn β}
    (hf : ∀ outcome, Saving a false (f outcome)) :
    Saving a false ((cycle.runOne planned).bind f) := by
  unfold RunAlertCycle.runOne
  simp only [Txn.bind_eq, Txn.bind_assoc]
  refine saving_bind_of_only (fun now => Txn.only_done now) fun now => ?_
  refine saving_bind_of_only (Txn.only_attempt ((only_resolveCandidates cycle planned
    now).mono fun _ => apart_of_inTables (by decide) (by decide) (by decide)))
    fun outcome => ?_
  rcases outcome with error | propertyIds
  · cases error with
    | scraperError error =>
        simp only [RunAlertCycle.recordFailure, Txn.bind_eq, Txn.bind_assoc]
        refine saving_bind_of_only (fun now => Txn.only_done now) fun finishedAt => ?_
        refine saving_bind_of_only ((only_recordExecution _).mono fun _ =>
          apart_of_inTables (by decide) (by decide) (by decide)) fun _ => ?_
        exact saving_commitOr (hf _)
    | _ => trivial
  · simp only [RunAlertCycle.persistMatches, Txn.bind_eq, Txn.bind_assoc]
    refine saving_bind_of_only ((only_loadCandidates _).mono fun _ =>
      apart_of_inTables (by decide) (by decide) (by decide)) fun candidates => ?_
    exact saving_evaluateAndPersist cycle candidates now
      (fun _ created => saving_commitOr (hf _)) hdistinct nofun

theorem saving_programs (race : Race) {due : List SearchAlert}
    (hdistinct : (due.map (·.id)).Nodup) (i : Nat) :
    Saving a false (race.programs due i) := by
  match i with
  | 0 => exact saving_update race.update race.request fun _ => trivial
  | 1 =>
      refine saving_bind_of_only (Txn.only_bind (fun now => Txn.only_done now) fun now =>
        Txn.only_bind (Txn.only_query _) fun listed => Txn.only_ofExcept listed)
        fun _ => trivial
  | k + 2 =>
      show Saving a false ((race.cycle.worker (plan race.cycle.capabilities due)
        k).bind _)
      unfold RunAlertCycle.worker
      split
      · next planned hplanned =>
        have halerts := (planned_of_mem (List.mem_of_getElem? hplanned)).alerts
        refine saving_runOne race.cycle ?_ fun _ => trivial
        rw [halerts]
        exact hdistinct.sublist (List.filter_sublist.map _)
      · trivial

end Savings

/-! ## What every state of a race keeps -/

theorem hasSaved_committed {a : AlertId}
    {session : Session Write CycleCall CycleAnswer} {model : AlertRow} :
    HasSaved a session.committed model ↔
      HasSaved a session model ∨ model ∈ savedRows a session.pending := by
  simp only [HasSaved, Session.history_committed, List.mem_append,
    List.mem_singleton, or_and_right, exists_or, exists_eq_left]

section Invariant

variable [PythonRuntime] [PersistenceRuntime]

/-- The stored alert: as it was, or edited, and with the last run that was recorded. -/
structure Race.Holds (race : Race) (alert : SearchAlert) (sys : RaceSys)
    (last : Option DateTime) (stored : SearchAlert) : Prop where
  get : AlertRepository.get race.request.alertId sys.store = .ok (some stored)
  recorded : stored.lastRunAt = last
  unedited : (∀ model, ¬HasSaved race.request.alertId (sys.workers 0).session model) →
    stored = withLastRun alert last
  edited : (∃ model, HasSaved race.request.alertId (sys.workers 0).session model) →
    ∃ now, race.update.edit race.request now (withLastRun alert last) = .ok stored

structure RaceInvariant (race : Race) (due : List SearchAlert) (alert : SearchAlert)
    (sys : RaceSys) (last : Option DateTime) : Prop where
  saves : SaveInvariant race.request.alertId sys
  tree : FormsOneTree race.request.alertId sys.store
  pending : ∀ i, PendingFor race.request.alertId (race.SavedBy due alert i) sys.store
    (sys.workers i).session.pending
  keeping : ∀ i, Sys.Keeping (race.contract due alert i) (race.Ends i) (sys.workers i)
    sys.store
  holds : ∃ stored, race.Holds alert sys last stored

variable {race : Race} {due : List SearchAlert} {alert stored : SearchAlert}
  {sys sys' : RaceSys} {last : Option DateTime} {i : Nat}

omit [PersistenceRuntime] in
theorem portalSlugs_of_holds (h : race.Holds alert sys last stored) :
    stored.portalSlugs = alert.portalSlugs := by
  by_cases hsaved : ∃ model, HasSaved race.request.alertId (sys.workers 0).session model
  · obtain ⟨now, hedit⟩ := h.edited hsaved
    exact (edit_eq_ok hedit).2.2
  · rw [h.unedited (not_exists.mp hsaved), portalSlugs_withLastRun]

omit [PersistenceRuntime] in
theorem Race.Holds.congr (h : race.Holds alert sys last stored)
    (hget : AlertRepository.get race.request.alertId sys'.store =
      AlertRepository.get race.request.alertId sys.store)
    (hsaved : ∀ j model, HasSaved race.request.alertId (sys'.workers j).session model ↔
      HasSaved race.request.alertId (sys.workers j).session model) :
    race.Holds alert sys' last stored where
  get := hget.trans h.get
  recorded := h.recorded
  unedited hnone := h.unedited fun model hmodel => hnone model ((hsaved 0 model).mpr hmodel)
  edited := fun ⟨model, hmodel⟩ => h.edited ⟨model, (hsaved 0 model).mp hmodel⟩

omit [PersistenceRuntime] in
theorem Race.Holds.finds (h : race.Holds alert sys last stored) (i : Nat) :
    (race.contract due alert i).finds (sys.workers i).session sys.store := by
  rintro rfl hnone
  exact ⟨last, by rw [h.get, ← h.unedited hnone]⟩

omit [PythonRuntime] [PersistenceRuntime] in
theorem unsaved_of_saving {a : AlertId} {flag : Bool} {writes : Stamp → Store → List Write}
    {next : Stamp → Store → CycleTxn RaceResult} (h : Saving a flag (.stmt writes next))
    {saved : SearchAlert} {stamp : Stamp} {view : Store}
    (hwrites : writes stamp view = addWrites saved stamp view) (hid : saved.id = a) :
    flag = false := by
  obtain ⟨hspares, -⟩ | ⟨alert, rfl, honce, -⟩ := h
  · have hall := hspares stamp view
    have hrow : rowWrite saved view ∈ addWrites saved stamp view := by
      simp [addWrites, mergeWrites]
    have hspared := hall _ (hwrites ▸ hrow)
    unfold rowWrite at hspared
    split at hspared <;> exact absurd hid hspared
  · by_contra hflag
    have hne : alert.id ≠ a := fun heq => hflag (honce heq)
    have htouched := @touched_addWrites saved stamp view a
    rw [← hwrites, touched_addWrites, if_neg hne, if_pos hid] at htouched
    cases htouched

omit [PersistenceRuntime] in
theorem RaceInvariant.pending_stmt (h : RaceInvariant race due alert sys last)
    {writes : Stamp → Store → List Write} {next : Stamp → Store → CycleTxn RaceResult}
    (hcode : (sys.workers i).code = .stmt writes next) :
    PendingFor race.request.alertId (race.SavedBy due alert i) sys.store
      ((sys.workers i).session.pending ++ writes (sys.workers i).session.stamp
        ((sys.workers i).session.view sys.store)) := by
  obtain ⟨flag, hfacts⟩ := h.saves.workers i
  obtain ⟨stored, hholds⟩ := h.holds
  have hcommitted := h.saves.committed i
  have hsaving := hfacts.code
  rw [hcode] at hsaving
  obtain hapart | ⟨saved, hwrites, hsaved⟩ :=
    (h.keeping i).promises (hholds.finds i) hcode
  · exact (h.pending i).apart hapart
  · rw [hwrites]
    by_cases hid : saved.id = race.request.alertId
    · obtain rfl := unsaved_of_saving hsaving hwrites hid
      exact (h.pending i).self hfacts hcommitted hid (hsaved hid) h.saves.readable
    · exact (h.pending i).other hfacts hcommitted hid

omit [PersistenceRuntime] in
theorem RaceInvariant.unsaved_commit (h : RaceInvariant race due alert sys last)
    (huntouched : (sys.workers i).session.pending.filter
      (Touches race.request.alertId) = [])
    (hinserted : ∀ row ∈ insertedRows (sys.workers i).session.pending,
      row.alertId ≠ race.request.alertId)
    (hsubscribed : ∀ row ∈ insertedSubscriptions (sys.workers i).session.pending,
      row.alertId ≠ race.request.alertId) :
    let store := applyAll (sys.workers i).session.pending sys.store
    rowsOf race.request.alertId store = rowsOf race.request.alertId sys.store ∧
      find race.request.alertId store = find race.request.alertId sys.store ∧
        AlertRepository.get race.request.alertId store =
          AlertRepository.get race.request.alertId sys.store := by
  obtain ⟨flag, hfacts⟩ := h.saves.workers i
  have hrows : rowsOf race.request.alertId
      (applyAll (sys.workers i).session.pending sys.store) =
        rowsOf race.request.alertId sys.store := by
    cases flag with
    | false => exact SaveInvariant.rowsOf_commit_of_unsaved hfacts
    | true =>
        obtain ⟨⟨saved, stamp, -, hnew⟩, -⟩ := hfacts.whole rfl
        obtain ⟨row, hrow, hid⟩ := insertedRows_ne_nil hnew
        exact absurd hid (hinserted row hrow)
  have hfind : find _ (applyAll _ sys.store) = _ :=
    find_applyAll_of_untouched huntouched
  exact ⟨hrows, hfind, get_congr hfind hrows (portalSlugs_applyAll rfl
    fun row hrow hid => absurd hid (hsubscribed row hrow))⟩

omit [PersistenceRuntime] in
theorem SavesWhatItRead.all_deleted {a : AlertId}
    {next : Bool → CycleTxn RaceResult} (h : SavesWhatItRead a due sys i)
    (hcode : (sys.workers i).code = .commit next)
    (hadmits : Database.admits sys.store (sys.workers i).session.pending = true)
    {stamp : Stamp} {saved : SearchAlert}
    (hinserted : (insertedRows (sys.workers i).session.pending).filter
      (·.alertId = a) = conditionRows saved stamp) :
    ∀ row ∈ sys.store.conditions, row.alertId = a →
      row.id ∈ deletedIds (sys.workers i).session.pending := by
  have hcurrent := h.current
  unfold SaveIsCurrent at hcurrent
  rw [hcode] at hcurrent
  intro row hrow hid
  exact hcurrent hadmits (insertedRows_ne_nil hinserted) row
    (List.mem_filter.mpr ⟨hrow, by simpa using hid⟩)

omit [PersistenceRuntime] in
theorem Race.Holds.saved_commit (h : race.Holds alert sys last stored)
    {saved : SearchAlert} {stamp : Stamp}
    (hunchanged : if i = 0 then saved.lastRunAt = stored.lastRunAt
      else ∀ listed ∈ due, listed.id = race.request.alertId →
        listed = withLastRun stored listed.lastRunAt)
    (hsaved : race.SavedBy due alert i saved)
    (hid : saved.id = race.request.alertId)
    (hrow : savedRows race.request.alertId (sys.workers i).session.pending =
      [toModel saved])
    (hfind : find race.request.alertId sys'.store = some (toModel saved))
    (hrows : rowsOf race.request.alertId sys'.store = conditionRows saved stamp)
    (hslugs : saved.portalSlugs = stored.portalSlugs →
      portalSlugs race.request.alertId sys'.store = saved.portalSlugs)
    (hself : (sys'.workers i).session = (sys.workers i).session.committed)
    (hothers : ∀ j, j ≠ i → sys'.workers j = sys.workers j) :
    race.Holds alert sys' (if 2 ≤ i then saved.lastRunAt else last) saved := by
  have hget : saved.portalSlugs = stored.portalSlugs →
      AlertRepository.get race.request.alertId sys'.store = .ok (some saved) := by
    intro hsame
    rw [← hid] at hfind hrows hslugs ⊢
    exact get_of_parts hfind hrows (hslugs hsame)
  have hnew : HasSaved race.request.alertId (sys'.workers i).session (toModel saved) := by
    rw [hself, hasSaved_committed, hrow]
    exact .inr (.head _)
  match i, hsaved with
  | 0, hsaved =>
      obtain ⟨now, last, hedit⟩ := hsaved
      obtain rfl : saved.lastRunAt = last := lastRunAt_edit hedit
      have hsame : saved.portalSlugs = stored.portalSlugs :=
        (edit_eq_ok hedit).2.2.trans (portalSlugs_of_holds h).symm
      have hlast : saved.lastRunAt = last := hunchanged.trans h.recorded
      exact ⟨hget hsame, hlast, fun hnone => absurd hnew (hnone _),
        fun _ => ⟨now, hlast ▸ hedit⟩⟩
  | k + 2, hsaved =>
      obtain ⟨listed, hlisted, now, rfl⟩ := hsaved
      have hrun : listed.markRun now = withLastRun stored (some now) := by
        rw [hunchanged listed hlisted hid, markRun_eq, withLastRun_withLastRun]
      rw [if_pos (Nat.le_add_left 2 k)]
      rw [hrun] at hget ⊢
      refine ⟨hget rfl, rfl, fun hnone => ?_, fun hsome => ?_⟩
      · rw [hothers 0 (Nat.succ_ne_zero _).symm] at hnone
        rw [h.unedited hnone]
        rfl
      · rw [hothers 0 (Nat.succ_ne_zero _).symm] at hsome
        obtain ⟨now', hedit⟩ := h.edited hsome
        exact ⟨now', edit_withLastRun hedit _⟩

omit [PersistenceRuntime] in
theorem RaceInvariant.step_stored (h : RaceInvariant race due alert sys last)
    (oracle : Oracle CycleCall CycleAnswer)
    (hcurrent : SavesWhatItRead race.request.alertId due sys i) :
    (∀ j, PendingFor race.request.alertId (race.SavedBy due alert j)
        (sys.step oracle i).store ((sys.step oracle i).workers j).session.pending) ∧
      ∃ stored, race.Holds alert (sys.step oracle i)
        (recordStep race.request.alertId sys last i) stored := by
  have hothers : ∀ j, j ≠ i → (sys.step oracle i).workers j = sys.workers j :=
    fun j hj => Sys.workers_step_of_ne oracle sys hj
  obtain ⟨stored, hholds⟩ := h.holds
  generalize hstep : sys.step oracle i = sys' at hothers ⊢
  -- a step that commits nothing, given what its own worker has pending after it
  have huncommitted : recordStep race.request.alertId sys last i = last →
      sys'.store = sys.store →
      (sys'.workers i).session.history = (sys.workers i).session.history →
      PendingFor race.request.alertId (race.SavedBy due alert i) sys.store
        (sys'.workers i).session.pending →
      (∀ j, PendingFor race.request.alertId (race.SavedBy due alert j)
        sys'.store (sys'.workers j).session.pending) ∧
        ∃ stored, race.Holds alert sys'
          (recordStep race.request.alertId sys last i) stored := by
    intro hrecord hstore hhistory hpending
    rw [hrecord]
    constructor
    · intro j
      rw [hstore]
      by_cases hj : j = i
      · exact hj ▸ hpending
      · exact hothers j hj ▸ h.pending j
    · refine ⟨stored, hholds.congr (by rw [hstore]) fun j model => ?_⟩
      by_cases hj : j = i
      · rw [hj, HasSaved, hhistory, HasSaved]
      · rw [hothers j hj]
  cases Sys.stepped hstep with
  | returned value hcode =>
      exact huncommitted (by simp [recordStep, hcode]) rfl rfl (h.pending i)
  | raised error hcode =>
      exact huncommitted (by simp [recordStep, hcode]) rfl rfl (h.pending i)
  | stmt writes next hcode =>
      exact huncommitted (by simp [recordStep, hcode]) rfl (by simp)
        (by simpa using h.pending_stmt hcode)
  | call request next hcode =>
      exact huncommitted (by simp [recordStep, hcode]) rfl (by simp)
        (by simpa using h.pending i)
  | refused next hcode hadmits =>
      exact huncommitted (by simp [recordStep, hcode, hadmits]) rfl (by simp)
        (by simpa using PendingFor.nil)
  | accepted next hcode hadmits =>
      dsimp only at hothers ⊢
      simp only [recordStep, hcode, hadmits, and_true]
      cases h.pending i with
      | unsaved untouched inserted subscribed =>
          obtain ⟨hrows, hfind, hget⟩ := h.unsaved_commit untouched inserted subscribed
          rw [savedRows_of_untouched untouched, List.getLast?_nil, ite_self]
          refine ⟨fun j => ?_, stored, hholds.congr hget fun j model => ?_⟩
          · by_cases hj : j = i
            · subst hj
              simpa using PendingFor.nil
            · rw [hothers j hj]
              exact (h.pending j).kept hrows hfind
          · by_cases hj : j = i
            · subst hj
              rw [Sys.workers_setWorker_self, hasSaved_committed,
                savedRows_of_untouched untouched]
              exact or_iff_left List.not_mem_nil
            · rw [hothers j hj]
      | saved saved stamp loaded hsaved hid touched inserted subscribed current =>
          have hall := hcurrent.all_deleted hcode hadmits inserted
          obtain ⟨flag, hfacts⟩ := h.saves.workers i
          have hrows : rowsOf race.request.alertId
              (applyAll (sys.workers i).session.pending sys.store) =
                conditionRows saved stamp := by
            rw [SaveInvariant.rowsOf_commit, inserted, List.filter_eq_nil_iff.mpr,
              List.nil_append]
            intro row hrow
            rw [rowsOf, List.mem_filter] at hrow
            simpa using hall row hrow.1 (by simpa using hrow.2)
          have hrow := savedRows_of_touched hid touched
          rw [hrow, List.getLast?_singleton]
          refine ⟨fun j => ?_, saved, ?_⟩
          · by_cases hj : j = i
            · subst hj
              simpa using PendingFor.nil
            · rw [hothers j hj]
              obtain ⟨row, hrow⟩ :=
                List.exists_mem_of_ne_nil _ (conditionRows_ne_nil saved stamp)
              rw [← hrows, rowsOf, List.mem_filter] at hrow
              have hrowA : row.alertId = race.request.alertId := by simpa using hrow.2
              exact (h.pending j).replaced ⟨row, hrow.1, hrowA,
                h.saves.notMem_deletedIds_of_commit hfacts hall hj row hrow.1 hrowA⟩
          · refine hholds.saved_commit (hcurrent.unchanged next hcode hadmits _
              (hrow ▸ List.mem_singleton_self _) stored hholds.get) hsaved hid hrow ?_
              hrows (fun hsame => ?_) ?_ hothers
            · exact find_applyAll_of_updated hid touched (current hall)
            · refine portalSlugs_applyAll ?_ subscribed
              rw [(get_eq_ok hholds.get).2, hsame]
            · exact congrArg Worker.session (Sys.workers_setWorker_self ..)

omit [PersistenceRuntime] in
theorem raceInvariant_step (h : RaceInvariant race due alert sys last)
    (oracle : Oracle CycleCall CycleAnswer)
    (hcurrent : SavesWhatItRead race.request.alertId due sys i) :
    RaceInvariant race due alert (sys.step oracle i)
      (recordStep race.request.alertId sys last i) := by
  obtain ⟨htree, hsaves⟩ := h.saves.step oracle i h.tree
  obtain ⟨hpending, hholds⟩ := h.step_stored oracle hcurrent
  obtain ⟨stored, hstored⟩ := h.holds
  refine ⟨hsaves hcurrent.current, htree.mp hcurrent.current, hpending, fun j => ?_,
    hholds⟩
  by_cases hj : j = i
  · rw [hj]
    exact Sys.keeping_step (h.keeping i) (hstored.finds i) fun _ _ => trivial
  · exact Sys.keeping_step_of_ne (h.keeping j) hj trivial

theorem raceInvariant_start {store : Store} (hfresh : FreshRows store)
    (htree : FormsOneTree race.request.alertId store)
    (hget : AlertRepository.get race.request.alertId store = .ok (some alert))
    (hdistinct : (due.map (·.id)).Nodup) :
    RaceInvariant race due alert (Sys.start store (race.programs due))
      alert.lastRunAt where
  saves := .start (saving_programs race hdistinct) hfresh htree
  tree := htree
  pending _ := .nil
  keeping
    | 0 => ⟨store, trivial, keeps_edit (get_eq_ok hget).1⟩
    | 1 => ⟨store, trivial, keeps_listDue⟩
    | k + 2 => ⟨store, trivial, keeps_worker k⟩
  holds := by
    refine ⟨alert, hget, rfl, fun _ => rfl, fun ⟨model, batch, hbatch, _⟩ => ?_⟩
    cases hbatch

end Invariant

/-! ## The due alerts -/

theorem nodup_alerts_of_admits {writes : List Write} {db : Store}
    (hadmits : Database.admits db writes = true)
    (hkey : (db.alerts.map (·.id)).Nodup) :
    ((applyAll writes db).alerts.map (·.id)).Nodup := by
  refine keeps_of_admits (P := fun _ => True)
    (J := fun db => (db.alerts.map (·.id)).Nodup)
    (fun write db _ hadmitted hkey => ?_) (fun _ _ => trivial) hadmits hkey
  cases write with
  | insertAlert row =>
      refine nodup_map_concat hkey fun stored hmem hid => ?_
      simp only [Write.admitted, Bool.and_eq_true, Bool.not_eq_true',
        List.any_eq_false, decide_eq_true_eq] at hadmitted
      exact hadmitted.1.1 stored hmem hid
  | updateAlert loaded model =>
      have hids : (updateWhere (fun row : AlertRow => decide (row.id = model.id))
          (AlertRow.update loaded model) db.alerts).map (·.id) =
            db.alerts.map (·.id) := by
        rw [updateWhere, List.map_map]
        refine List.map_congr_left fun row _ => ?_
        simp only [Function.comp]
        split <;> rfl
      exact hids ▸ hkey
  | _ => exact hkey

section Due

variable [PythonRuntime]

theorem nodup_listDue {now : DateTime} {db : Store} {due : List SearchAlert}
    (hkey : (db.alerts.map (·.id)).Nodup) (h : listDue now db = .ok due) :
    (due.map (·.id)).Nodup := by
  have hids : due.map (·.id) =
      ((db.alerts.filter (·.isActive)).filter (isDue now)).map (·.id) :=
    map_of_mapM_eq_ok (fun row alert halert => (toDomain_eq_ok halert).1) h
  rw [hids]
  exact hkey.sublist ((List.filter_sublist.trans List.filter_sublist).map _)

/-- Whoever lists the alerts finds their primary key. -/
def listContract : Contract Store Write CycleCall CycleAnswer where
  finds _ db := (db.alerts.map (·.id)).Nodup
  grows _ _ := True
  answers _ _ := True
  promises _ _ _ := True
  refl _ := trivial
  trans _ _ _ _ _ := trivial

def ListsOnce : Except PyError RaceResult → Session Write CycleCall CycleAnswer →
    Store → Prop
  | .ok (.listed due), _, _ => (due.map (·.id)).Nodup
  | _, _, _ => True

variable [PersistenceRuntime] {race : Race} {due : List SearchAlert} {store : Store}
  {oracle : Oracle CycleCall CycleAnswer}

theorem keeps_listDue_once :
    Txn.Keeps listContract (race.programs due 1) ListsOnce (.start 1) store := by
  intro now _ db _ hkey
  refine ⟨trivial, ?_⟩
  change Txn.Keeps _ ((Txn.ofExcept (listDue now db)).bind _) _ _ _
  cases hdue : listDue now db with
  | error error => trivial
  | ok due => exact nodup_listDue hkey hdue

theorem Race.Ticks.distinct {first : List Nat} (h : race.Ticks due store oracle first)
    (hkey : (store.alerts.map (·.id)).Nodup) : (due.map (·.id)).Nodup := by
  suffices hall : ∀ schedule,
      ((((Sys.start store (race.programs due)).run oracle
        schedule).store.alerts).map (·.id)).Nodup ∧
        Sys.Keeping listContract ListsOnce
          (((Sys.start store (race.programs due)).run oracle schedule).workers 1)
          ((Sys.start store (race.programs due)).run oracle schedule).store by
    obtain ⟨db, -, hkeeps⟩ := (hall first).2
    rw [h.listed] at hkeeps
    exact hkeeps
  intro schedule
  induction schedule using List.reverseRecOn with
  | nil => exact ⟨hkey, store, trivial, @keeps_listDue_once _ _ race due store⟩
  | append_singleton schedule i ih =>
      obtain ⟨hkey', hkeeping⟩ := ih
      rw [Sys.run_concat]
      generalize (Sys.start store (race.programs due)).run oracle schedule = sys
        at hkey' hkeeping ⊢
      constructor
      · generalize hstep : sys.step oracle i = sys'
        cases Sys.stepped hstep with
        | accepted next hcode hadmits => exact nodup_alerts_of_admits hadmits hkey'
        | _ => exact hkey'
      · by_cases hi : 1 = i
        · subst hi
          exact Sys.keeping_step hkeeping hkey' fun _ _ => trivial
        · exact Sys.keeping_step_of_ne hkeeping hi trivial

end Due

/-! ## Runs -/

section Runs

variable [PythonRuntime] [PersistenceRuntime] {race : Race} {due : List SearchAlert}
  {alert : SearchAlert} {store : Store} {oracle : Oracle CycleCall CycleAnswer}

theorem raceInvariant_run (hfresh : FreshRows store)
    (htree : FormsOneTree race.request.alertId store)
    (hget : AlertRepository.get race.request.alertId store = .ok (some alert))
    (hdistinct : (due.map (·.id)).Nodup) (schedule : List Nat)
    (hcurrent : ∀ before i after, schedule = before ++ i :: after →
      SavesWhatItRead race.request.alertId due
        ((Sys.start store (race.programs due)).run oracle before) i) :
    RaceInvariant race due alert
      ((Sys.start store (race.programs due)).run oracle schedule)
      (lastRecorded race.request.alertId oracle (Sys.start store (race.programs due))
        alert.lastRunAt schedule) := by
  induction schedule using List.reverseRecOn with
  | nil => exact raceInvariant_start hfresh htree hget hdistinct
  | append_singleton schedule i ih =>
      rw [Sys.run_concat, lastRecorded_concat]
      exact raceInvariant_step (ih fun before j after h =>
        hcurrent before j (after ++ [i]) (by simp [h])) oracle (hcurrent schedule i [] rfl)

/--
When every save of the alert commits over what its party had read, the alert ends
up with the fields that the edit requested and the last run that the cycle
recorded, in whichever order the two are taken.
-/
theorem no_update_is_lost (hfresh : FreshRows store)
    (hkey : (store.alerts.map (·.id)).Nodup)
    (htree : FormsOneTree race.request.alertId store)
    (hget : AlertRepository.get race.request.alertId store = .ok (some alert))
    (oracle : Oracle CycleCall CycleAnswer) (first second : List Nat)
    (hticks : race.Ticks due store oracle first)
    (hcurrent : ∀ before i after, first ++ second = before ++ i :: after →
      SavesWhatItRead race.request.alertId due
        ((Sys.start store (race.programs due)).run oracle before) i)
    {updated : SearchAlert}
    (hupdated : ((Sys.start store (race.programs due)).run oracle
      (first ++ second)).Finished 0 (.ok (.updated updated))) :
    ∃ final, BothApplied race alert
      ((Sys.start store (race.programs due)).run oracle (first ++ second))
      (lastRecorded race.request.alertId oracle (Sys.start store (race.programs due))
        alert.lastRunAt (first ++ second)) final := by
  have hinv := raceInvariant_run hfresh htree hget (hticks.distinct hkey)
    (first ++ second) hcurrent
  obtain ⟨final, hholds⟩ := hinv.holds
  obtain ⟨db, -, hkeeps⟩ := hinv.keeping 0
  rw [hupdated] at hkeeps
  obtain ⟨now, hedit⟩ := hholds.edited hkeeps
  obtain ⟨⟨hname, hfrequency, hactive, hconditions⟩, -⟩ := edit_eq_ok hedit
  refine ⟨final, hholds.get, ⟨hname, hfrequency, hactive, hconditions⟩,
    hholds.recorded, ⟨now, hedit⟩, now, _, edit_withLastRun hedit alert.lastRunAt, ?_⟩
  rw [withLastRun_withLastRun, ← hholds.recorded, withLastRun_self]

end Runs

/-! ## A name that is lost -/

/-- An edit of the name and a cycle over the sales alert. -/
def salesRace : Race where
  update := ⟨defaultRegistry, fun _ => "00000000-0000-0000-0000-000000000001"⟩
  request := ⟨salesAlert.id, some "Sales in Galicia", none, none, none⟩
  cycle := salesCycle

def salesRun (due : List SearchAlert) (schedule : List Nat) : RaceSys :=
  (Sys.start salesStore (@Race.programs .plain .plain salesRace due)).run quietOracle
    schedule

/-- The edit comes between the list and the worker that evaluates the alert. -/
def editInBetween : List Nat := [1, 1] ++ ([0, 0, 0, 0] ++ List.replicate 10 2)

theorem edited_name_is_lost :
    FreshRows salesStore ∧ (salesStore.alerts.map (·.id)).Nodup ∧
      @FormsOneTree .plain salesAlert.id salesStore ∧
      @AlertRepository.get .plain salesAlert.id salesStore = .ok (some salesAlert) ∧
      @Race.Ticks .plain .plain salesRace [salesAlert] salesStore quietOracle [1, 1] ∧
      (∃ updated, (salesRun [salesAlert] editInBetween).Finished 0
        (.ok (.updated updated))) ∧
      (salesRun [salesAlert] editInBetween).Finished 2 (.ok (.ran (true, 0))) ∧
      ¬∃ last final, @BothApplied .plain salesRace salesAlert
        (salesRun [salesAlert] editInBetween) last final := by
  refine ⟨freshRows_salesStore, by decide, @formsOneTree_salesStore .plain, rfl,
    @Race.Ticks.mk .plain .plain _ _ _ _ _ (by decide) rfl, ⟨_, rfl⟩, rfl, ?_⟩
  rintro ⟨last, final, hfinal⟩
  have hget : @AlertRepository.get .plain salesAlert.id
      (salesRun [salesAlert] editInBetween).store =
        .ok (some (salesAlert.markRun 1)) := rfl
  have hname := @Requested.name .plain _ _ _ _
    (@BothApplied.requested .plain _ _ _ _ _ hfinal)
  obtain rfl := Option.some.inj (Except.ok.inj
    (hget.symm.trans (@BothApplied.stored .plain _ _ _ _ _ hfinal)))
  revert hname
  decide

/-- The edit comes before the planner tick. -/
def editBefore : List Nat := [0, 0, 0, 0, 1, 1]

def renamed : SearchAlert :=
  { salesAlert with name := "Sales in Galicia", named := by decide, updatedAt := 1 }

theorem edit_saves_what_it_read : @SavesWhatItRead .plain salesAlert.id [renamed]
    (salesRun [renamed] [0, 0, 0]) 0 := by
  refine @SavesWhatItRead.mk .plain _ _ _ _ (fun _ _ => ?_) ?_
  · decide
  · intro next _ _ model hsaves stored hstored
    obtain rfl := List.mem_singleton.mp hsaves
    obtain rfl : salesAlert = stored := Option.some.inj (Except.ok.inj hstored)
    rfl

theorem run_saves_what_it_read : @SavesWhatItRead .plain salesAlert.id [renamed]
    (salesRun [renamed] (editBefore ++ List.replicate 9 2)) 2 := by
  refine @SavesWhatItRead.mk .plain _ _ _ _ (fun _ _ => ?_) ?_
  · decide
  · intro next _ _ model hsaves stored hstored
    obtain rfl : renamed = stored := Option.some.inj (Except.ok.inj hstored)
    intro listed hlisted _
    rw [List.mem_singleton.mp hlisted]
    rfl

theorem no_update_is_lost_edit_first :
    ∃ final, @BothApplied .plain salesRace salesAlert
      (salesRun [renamed] (editBefore ++ List.replicate 10 2)) (some 1) final := by
  refine @no_update_is_lost .plain .plain salesRace [renamed] salesAlert salesStore
    freshRows_salesStore (by decide) (@formsOneTree_salesStore .plain) rfl quietOracle
    editBefore (List.replicate 10 2)
    (@Race.Ticks.mk .plain .plain _ _ _ _ _ (by decide) rfl)
    (Sys.along_iff.mp ?_) renamed rfl
  have hother : ∀ (sys : RaceSys) i, (∀ next, (sys.workers i).code ≠ .commit next) →
      @SavesWhatItRead .plain salesAlert.id [renamed] sys i :=
    fun _ _ => @savesWhatItRead_of_not_commit .plain _ _ _ _
  exact ⟨hother _ _ nofun, hother _ _ nofun, hother _ _ nofun, edit_saves_what_it_read,
    hother _ _ nofun, hother _ _ nofun, hother _ _ nofun, hother _ _ nofun,
    hother _ _ nofun, hother _ _ nofun, hother _ _ nofun, hother _ _ nofun,
    hother _ _ nofun, hother _ _ nofun, hother _ _ nofun, run_saves_what_it_read,
    trivial⟩

end RealEstateTracker.Alerts
