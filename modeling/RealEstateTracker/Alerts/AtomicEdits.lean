import RealEstateTracker.Alerts.ReadBack
import RealEstateTracker.Alerts.UpdateAlert
import RealEstateTracker.Cycle.AtMostOnce

/-!
# Edits as a whole

The mutators run one after another on the alert that was read, and any of them
may raise.  Nothing is written before the last one has returned, so an edit that
raises leaves no trace.
-/

namespace RealEstateTracker.Alerts

open Foundation Domain Application Persistence RealEstateTracker.Cycle

/-! ## The time of the last update -/

/-- The creation stays, and a mutator that ran has stamped the alert. -/
structure Stamped (ran : Bool) (now : DateTime) (alert edited : SearchAlert) : Prop where
  createdAt : edited.createdAt = alert.createdAt
  updatedAt : edited.updatedAt = if ran then now else alert.updatedAt

section Stamps

variable {now : DateTime} {alert middle edited : SearchAlert}

theorem Stamped.trans {first second : Bool} (h : Stamped first now alert middle)
    (h' : Stamped second now middle edited) :
    Stamped (first || second) now alert edited := by
  refine ⟨h'.createdAt.trans h.createdAt, ?_⟩
  rw [h'.updatedAt, h.updatedAt]
  cases second <;> simp

theorem stamped_whenGiven {α : Type} {value : Option α}
    {mutate : α → SearchAlert → Except PyError SearchAlert}
    (hmutate : ∀ value, mutate value alert = .ok edited →
      Stamped true now alert edited)
    (h : whenGiven value mutate alert = .ok edited) :
    Stamped value.isSome now alert edited := by
  cases value with
  | none =>
      obtain rfl := Except.ok.inj h
      exact ⟨rfl, rfl⟩
  | some value => exact hmutate value h

theorem stamped_rename {name : String} (h : alert.rename name now = .ok edited) :
    Stamped true now alert edited := by
  unfold SearchAlert.rename at h
  split at h
  · obtain rfl := Except.ok.inj h
    exact ⟨rfl, rfl⟩
  · cases h

theorem stamped_setFrequency {frequencySeconds : Int}
    (h : alert.setFrequency frequencySeconds now = .ok edited) :
    Stamped true now alert edited := by
  unfold SearchAlert.setFrequency at h
  split at h
  · obtain rfl := Except.ok.inj h
    exact ⟨rfl, rfl⟩
  · cases h

end Stamps

/-- Some field was given. -/
def UpdateRequest.asks (request : UpdateRequest) : Bool :=
  request.name.isSome || (request.frequencySeconds.isSome ||
    (request.conditionStrings.isSome || request.isActive.isSome))

section Edits

variable [PythonRuntime] {update : UpdateAlert} {request : UpdateRequest}
  {now : DateTime} {alert edited : SearchAlert}

theorem stamped_edit (h : update.edit request now alert = .ok edited) :
    Stamped request.asks now alert edited := by
  obtain ⟨renamed, hrenamed, h⟩ := bind_eq_ok.mp h
  obtain ⟨rescheduled, hrescheduled, h⟩ := bind_eq_ok.mp h
  obtain ⟨reconditioned, hreconditioned, hswitched⟩ := bind_eq_ok.mp h
  have hname : Stamped request.name.isSome now alert renamed :=
    stamped_whenGiven (fun _ => stamped_rename) hrenamed
  have hfrequency : Stamped request.frequencySeconds.isSome now renamed rescheduled :=
    stamped_whenGiven (fun _ => stamped_setFrequency) hrescheduled
  have hconditions :
      Stamped request.conditionStrings.isSome now rescheduled reconditioned := by
    refine stamped_whenGiven (fun conditionStrings hreplaced => ?_) hreconditioned
    obtain ⟨conditions, -, hreplaced⟩ := bind_eq_ok.mp hreplaced
    obtain rfl := pure_eq_ok.mp hreplaced
    exact ⟨rfl, rfl⟩
  have hactive : Stamped request.isActive.isSome now reconditioned edited := by
    refine stamped_whenGiven (fun isActive hswitched => ?_) hswitched
    obtain rfl := Except.ok.inj hswitched
    cases isActive <;> exact ⟨rfl, rfl⟩
  exact hname.trans (hfrequency.trans (hconditions.trans hactive))

/-- The fields that were given are replaced, and nothing else is. -/
structure Edited (update : UpdateAlert) (request : UpdateRequest) (now : DateTime)
    (alert edited : SearchAlert) : Prop where
  requested : Requested update request alert edited
  stamped : Stamped request.asks now alert edited
  id : edited.id = alert.id
  userId : edited.userId = alert.userId
  portalSlugs : edited.portalSlugs = alert.portalSlugs
  lastRunAt : edited.lastRunAt = alert.lastRunAt

theorem edited_of_edit (h : update.edit request now alert = .ok edited) :
    Edited update request now alert edited := by
  obtain ⟨hrequested, ⟨hid, huserId⟩, hslugs⟩ := edit_eq_ok h
  exact ⟨hrequested, stamped_edit h, hid, huserId, hslugs, lastRunAt_edit h⟩

/-! ## The store after an edit -/

section Stores

open AlertRepository

variable {stamp : Stamp} {store : Store}

omit [PythonRuntime]

/-- The store `db` with the alerts, the conditions and the portals of another one. -/
def withAlertsOf (store db : Store) : Store :=
  { db with
    alerts := store.alerts, conditions := store.conditions, portals := store.portals }

theorem insertedSubscriptions_of_stored
    (h : AlertRepository.portalSlugs alert.id store = alert.portalSlugs) :
    insertedSubscriptions (addWrites alert stamp store) = [] := by
  refine List.eq_nil_iff_forall_not_mem.mpr fun row hrow => ?_
  obtain ⟨slug, hslug, rfl, hnew⟩ := mem_insertedSubscriptions_addWrites.mp hrow
  rw [← h, AlertRepository.portalSlugs, FrozenSet.mem_ofList] at hslug
  obtain ⟨stored, hstored, rfl⟩ := List.mem_map.mp hslug
  obtain ⟨hstored, hid⟩ := List.mem_filter.mp hstored
  rw [← of_decide_eq_true hid] at hnew
  exact hnew hstored

theorem portalSlugs_saved_of_stored
    (h : AlertRepository.portalSlugs alert.id store = alert.portalSlugs)
    (stamp : Stamp) :
    AlertRepository.portalSlugs alert.id (saved alert stamp store) =
      alert.portalSlugs := by
  refine portalSlugs_saved_self.mpr fun row hrow hid => ?_
  rw [← h, AlertRepository.portalSlugs, FrozenSet.mem_ofList]
  exact List.mem_map_of_mem (List.mem_filter.mpr ⟨hrow, by simpa using hid⟩)

theorem frame_saved
    (h : AlertRepository.portalSlugs alert.id store = alert.portalSlugs) :
    withAlertsOf store (saved alert stamp store) = store := by
  refine applyAll_frame (W := Write) (withAlertsOf store) (fun write hwrite db => ?_) store
  have htable := allIn_addWrites_alert alert stamp store write hwrite
  cases write with
  | insertSubscription row =>
      have hrow : row ∈ insertedSubscriptions (addWrites alert stamp store) :=
        List.mem_filterMap.mpr ⟨_, hwrite, rfl⟩
      simp [insertedSubscriptions_of_stored h] at hrow
  | insertPortal | insertAlert | updateAlert | insertCondition | deleteConditions => rfl
  | _ => simp [InTables, alertTables, Write.table] at htable

end Stores

section Runs

variable (answers : Nat → (request : CycleCall) → CycleAnswer request) (i : Nat)
  (store : Store)

/-- The session of an edit after its two reads, of the clock and of the alert. -/
def readSession (answers : Nat → (request : CycleCall) → CycleAnswer request)
    (i : Nat) : CycleSession :=
  ((Session.start i).answered .clock (answers 0 .clock)).wrote []

/-- What is left of an edit once the alert has been read. -/
def saveEdit (update : UpdateAlert) (request : UpdateRequest) (now : DateTime)
    (alert : SearchAlert) : CycleTxn SearchAlert := do
  let alert ← Txn.ofExcept (update.edit request now alert)
  AlertRepository.add alert
  Txn.commitOr .integrityError
  return alert

theorem eval_run (update : UpdateAlert) (request : UpdateRequest) :
    (update.run request).eval answers (.start i) store =
      match AlertRepository.get request.alertId store with
      | .error error => ⟨.error error, readSession answers i, store⟩
      | .ok none =>
          ⟨.error (update.alertNotFound request.alertId), readSession answers i, store⟩
      | .ok (some alert) =>
          (saveEdit update request (answers 0 .clock) alert).eval answers
            (readSession answers i) store := by
  change ((Txn.ofExcept (AlertRepository.get request.alertId store)).bind _).eval answers
    (readSession answers i) store = _
  split <;> next heq => rw [heq]; rfl

theorem eval_saveEdit_of_edit {update : UpdateAlert} {request : UpdateRequest}
    {alert edited : SearchAlert} (hedit : update.edit request now alert = .ok edited) :
    (saveEdit update request now alert).eval answers (readSession answers i) store =
      Txn.eval answers ((Txn.commitOr .integrityError).bind fun _ => .done edited)
        ((readSession answers i).wrote (AlertRepository.addWrites edited ⟨i, 2⟩ store))
        store := by
  rw [saveEdit, hedit]
  rfl

theorem eval_saveEdit_of_admits {update : UpdateAlert} {request : UpdateRequest}
    {alert edited : SearchAlert} (hedit : update.edit request now alert = .ok edited)
    (hadmits : Database.admits store
      (AlertRepository.addWrites edited ⟨i, 2⟩ store) = true) :
    let ended := (saveEdit update request now alert).eval answers
      (readSession answers i) store
    ended.outcome = .ok edited ∧ ended.store = saved edited ⟨i, 2⟩ store := by
  rw [eval_saveEdit_of_edit answers i store hedit,
    Txn.eval_commitOr_bind _ _ (by simpa [readSession] using hadmits)]
  exact ⟨rfl, rfl⟩

/-- The commit of an edit comes last, so a refused one leaves nothing either. -/
theorem eval_saveEdit (update : UpdateAlert) (request : UpdateRequest)
    (alert : SearchAlert) :
    let ended := (saveEdit update request now alert).eval answers
      (readSession answers i) store
    (∃ error, ended.outcome = .error error ∧ ended.store = store) ∨
      ∃ edited, update.edit request now alert = .ok edited ∧
        ended.outcome = .ok edited ∧ ended.store = saved edited ⟨i, 2⟩ store := by
  intro ended
  cases hedit : update.edit request now alert with
  | error error =>
      have hended : ended = ⟨.error error, readSession answers i, store⟩ := by
        change (saveEdit update request now alert).eval answers _ store = _
        rw [saveEdit, hedit]
        rfl
      exact .inl ⟨error, by rw [hended]; exact ⟨rfl, rfl⟩⟩
  | ok edited =>
      cases hadmits : Database.admits store
          (AlertRepository.addWrites edited ⟨i, 2⟩ store) with
      | false =>
          have hended := eval_saveEdit_of_edit answers i store hedit
          refine .inl ⟨.integrityError, ?_⟩
          change (Txn.eval answers (saveEdit update request now alert) _ store).outcome = _ ∧
            (Txn.eval answers (saveEdit update request now alert) _ store).store = _
          rw [hended]
          simp [Txn.commitOr, Txn.bind, Txn.eval, readSession, hadmits]
      | true =>
          exact .inr ⟨edited, rfl, eval_saveEdit_of_admits answers i store hedit hadmits⟩

end Runs

/-- What is read of the alerts once an edit is saved. -/
structure SavedEdit (edited : SearchAlert) (store store' : Store) : Prop where
  self : AlertRepository.get edited.id store' = .ok (some edited)
  others : ∀ id, id ≠ edited.id →
    AlertRepository.get id store' = AlertRepository.get id store
  frame : withAlertsOf store store' = store

theorem savedEdit_saved {store : Store} (hfresh : FreshRows store)
    (hget : AlertRepository.get request.alertId store = .ok (some alert))
    (hedit : update.edit request now alert = .ok edited) (stamp : Stamp) :
    edited.id = request.alertId ∧
      AlertRepository.portalSlugs edited.id store = edited.portalSlugs ∧
        SavedEdit edited store (saved edited stamp store) := by
  have hedited := edited_of_edit hedit
  obtain ⟨hid, hslugs⟩ := get_eq_ok hget
  replace hid : edited.id = request.alertId := hedited.id.trans hid
  rw [← hid, ← hedited.portalSlugs] at hslugs
  have hsaved := portalSlugs_saved_of_stored hslugs stamp
  refine ⟨hid, hslugs, get_saved_self hfresh hsaved, fun id hne => ?_, frame_saved hslugs⟩
  exact get_congr (find_saved_of_ne hne) (rowsOf_saved_of_ne hfresh hne)
    (portalSlugs_saved_of_ne hne)

/--
An edit either raises and leaves the store as it was, or the alert reads back
with the fields that were given, stamped with the time of the edit if there
were any, and with its own in every other.  What reads back is a `SearchAlert`,
so its invariants hold.
-/
theorem update_is_all_or_nothing (update : UpdateAlert) (request : UpdateRequest)
    (answers : Nat → (request : CycleCall) → CycleAnswer request) (i : Nat)
    {store : Store} (hfresh : FreshRows store) :
    let ended := (update.run request).eval answers (.start i) store
    match ended.outcome with
    | .error _ => ended.store = store
    | .ok edited =>
        ∃ alert, AlertRepository.get request.alertId store = .ok (some alert) ∧
          Edited update request (answers 0 .clock) alert edited ∧
          AlertRepository.get request.alertId ended.store = .ok (some edited) ∧
          (∀ id, id ≠ request.alertId →
            AlertRepository.get id ended.store = AlertRepository.get id store) ∧
          withAlertsOf store ended.store = store := by
  intro ended
  have hended : ended = (update.run request).eval answers (.start i) store := rfl
  rw [eval_run] at hended
  split at hended
  · rw [hended]
  · rw [hended]
  · next alert hget =>
    obtain ⟨error, houtcome, hstore⟩ | ⟨edited, hedit, houtcome, hstore⟩ :=
      eval_saveEdit answers i store update request alert
    · rw [hended, houtcome]
      exact hstore
    · rw [hended, houtcome, hstore]
      obtain ⟨hid, -, hsaved⟩ := savedEdit_saved hfresh hget hedit ⟨i, 2⟩
      rw [← hid] at hget ⊢
      exact ⟨alert, hget, edited_of_edit hedit, hsaved.self, hsaved.others, hsaved.frame⟩

end Edits

/-! ## A name that is given -/

def salesEdit : UpdateRequest :=
  ⟨salesAlert.id, some "Sales in Galicia", none, none, none⟩

def salesEdited : Ended Store Write CycleCall CycleAnswer PyError SearchAlert :=
  (@UpdateAlert.run .plain ⟨defaultRegistry, fun _ => "alert"⟩ salesEdit).eval
    (quietOracle 0) (.start 0) salesStore

theorem update_is_all_or_nothing_salesAlert :
    ∃ edited, salesEdited.outcome = .ok edited ∧ edited.name = "Sales in Galicia" ∧
      edited.conditions = salesAlert.conditions ∧ edited.updatedAt = 1 ∧
      @AlertRepository.get .plain salesAlert.id salesEdited.store = .ok (some edited) := by
  obtain ⟨alert, hget, hedited, hstored, -, -⟩ :=
    @update_is_all_or_nothing .plain ⟨defaultRegistry, fun _ => "alert"⟩ salesEdit
      (quietOracle 0) 0 salesStore freshRows_salesStore
  obtain rfl : salesAlert = alert := Option.some.inj (Except.ok.inj hget)
  have hrequested := @Edited.requested .plain _ _ _ _ _ hedited
  exact ⟨_, rfl, @Requested.name .plain _ _ _ _ hrequested,
    @Requested.conditions .plain _ _ _ _ hrequested,
    (@Edited.stamped .plain _ _ _ _ _ hedited).updatedAt, hstored⟩

end RealEstateTracker.Alerts
