import RealEstateTracker.Cycle.AtMostOnce
import RealEstateTracker.Foundation.Delivery
import RealEstateTracker.Notifications.DispatchNotifications

/-!
# The life cycle of a notification

The rows of the outbox are compared with the history of all attempts to send.
A row is a delivery with a bounded number of attempts: each run attempts the
rows that it listed as pending, and marks a row with the outcome of its attempt.
-/

namespace RealEstateTracker.Notifications

open Foundation Domain Persistence NotificationRepository

/-! ## The history of attempts -/

/-- Whether a call was an attempt to send, and whether it succeeded. -/
def attemptOf :
    ((request : DispatchCall) × DispatchAnswer request) →
      Option (NotificationId × Bool)
  | ⟨.send id _ _, answer⟩ =>
      match (answer : Except PyError Unit) with
      | .ok () => some (id, true)
      | .error (.notifierError _) => some (id, false)
      | .error _ => none
  | _ => none

def attempts (calls : List ((request : DispatchCall) × DispatchAnswer request)) :
    List (NotificationId × Bool) :=
  calls.filterMap attemptOf

@[simp] theorem attempts_append
    (calls calls' : List ((request : DispatchCall) × DispatchAnswer request)) :
    attempts (calls ++ calls') = attempts calls ++ attempts calls' :=
  List.filterMap_append ..

def outcomesOf (id : NotificationId) (tried : List (NotificationId × Bool)) :
    List Bool :=
  (tried.filter (·.1 = id)).map (·.2)

theorem outcomesOf_concat_self (id : NotificationId)
    (tried : List (NotificationId × Bool)) (succeeded : Bool) :
    outcomesOf id (tried ++ [(id, succeeded)]) =
      outcomesOf id tried ++ [succeeded] := by
  simp [outcomesOf]

theorem outcomesOf_concat_of_ne {id id' : NotificationId} (h : id' ≠ id)
    (tried : List (NotificationId × Bool)) (succeeded : Bool) :
    outcomesOf id (tried ++ [(id', succeeded)]) = outcomesOf id tried := by
  simp [outcomesOf, h]

theorem outcomesOf_of_unknown {id : NotificationId}
    {tried : List (NotificationId × Bool)} (h : ∀ attempt ∈ tried, attempt.1 ≠ id) :
    outcomesOf id tried = [] := by
  simpa [outcomesOf] using h

/-! ## Tracked outboxes -/

/-- The database, and every attempt to send that was ever made. -/
structure Outbox where
  store : Store
  tried : List (NotificationId × Bool)

def stage : NotificationStatus → Stage
  | .pending => .waiting
  | .sent => .delivered
  | .failed => .abandoned

def progress (row : NotificationRow) : Delivery := ⟨stage row.status, row.attempts⟩

/-- Every row is where the history of its attempts leads. -/
structure Tracked (maxAttempts : Nat) (outbox : Outbox) : Prop where
  primaryKey : (outbox.store.notifications.map (·.id)).Nodup
  known : ∀ attempt ∈ outbox.tried,
    attempt.1 ∈ outbox.store.notifications.map (·.id)
  reaches : ∀ row ∈ outbox.store.notifications,
    Delivery.Reaches maxAttempts (outcomesOf row.id outbox.tried) (progress row)
  dated : ∀ row ∈ outbox.store.notifications, row.status = .sent →
    row.sentAt.isSome

inductive Attempted (dispatch : DispatchNotifications) (id : NotificationId)
    (outbox : Outbox) : Outbox → Prop
  | skipped : Attempted dispatch id outbox outbox
  | sent (now : DateTime) : Attempted dispatch id outbox
      ⟨applyAll (markSentWrites id now outbox.store) outbox.store,
        outbox.tried ++ [(id, true)]⟩
  | failed (error : String) : Attempted dispatch id outbox
      ⟨applyAll (markFailedWrites id error dispatch.maxAttempts outbox.store)
          outbox.store,
        outbox.tried ++ [(id, false)]⟩

/-! ## One row changes -/

theorem load_eq_some {row : NotificationRow} {db : Store}
    (hkey : (db.notifications.map (·.id)).Nodup) (h : row ∈ db.notifications) :
    load row.id db = some row := by
  unfold load
  generalize db.notifications = rows at hkey h
  induction rows with
  | nil => simp at h
  | cons first rest ih =>
      rw [List.map_cons, List.nodup_cons] at hkey
      rcases List.mem_cons.mp h with rfl | h
      · simp
      · have hne : first.id ≠ row.id := fun heq =>
          hkey.1 (heq ▸ List.mem_map_of_mem h)
        rw [List.find?_cons_of_neg (by simpa using hne), ih hkey.2 h]

def changed (row row' : NotificationRow) (rows : List NotificationRow) :
    List NotificationRow :=
  updateWhere (·.id = row.id) (fun _ => row') rows

theorem notifications_changeWrites {row : NotificationRow} {db : Store}
    {change : NotificationRow → NotificationRow}
    (hid : (change row).id = row.id)
    (hkey : (db.notifications.map (·.id)).Nodup) (h : row ∈ db.notifications) :
    (applyAll (changeWrites change row.id db) db).notifications =
      changed row (change row) db.notifications := by
  have hself : NotificationRow.update row (change row) row = change row := by
    simp only [NotificationRow.update, column_self, ← hid]
  rw [changeWrites, load_eq_some hkey h, applyAll_cons, applyAll_nil, apply_eq,
    Write.apply, changed, hid]
  refine List.map_congr_left fun stored hstored => ?_
  by_cases heq : stored.id = row.id
  · obtain rfl := List.inj_on_of_nodup_map hkey hstored h heq
    simp [hself]
  · simp [heq]

theorem map_id_changed {row row' : NotificationRow} (hid : row'.id = row.id)
    (rows : List NotificationRow) :
    (changed row row' rows).map (·.id) = rows.map (·.id) := by
  rw [changed, updateWhere, List.map_map]
  refine List.map_congr_left fun stored _ => ?_
  simp only [Function.comp]
  split
  · next heq => simp_all
  · rfl

theorem mem_changed {row row' stored : NotificationRow}
    {rows : List NotificationRow} (h : stored ∈ changed row row' rows) :
    (stored ∈ rows ∧ stored.id ≠ row.id) ∨ stored = row' := by
  obtain ⟨old, hold, rfl⟩ := List.mem_map.mp h
  by_cases heq : old.id = row.id
  · exact .inr (by simp [heq])
  · exact .inl (by simpa [heq] using hold)

theorem mem_changed_of_ne {row row' stored : NotificationRow}
    {rows : List NotificationRow} (h : stored ∈ rows) (hne : stored.id ≠ row.id) :
    stored ∈ changed row row' rows :=
  List.mem_map.mpr ⟨stored, h, by simp [hne]⟩

section Tracking

variable {dispatch : DispatchNotifications} {outbox outbox' : Outbox}
  {row : NotificationRow}

theorem Tracked.marked {row' : NotificationRow} {succeeded : Bool} {db : Store}
    (h : Tracked dispatch.maxAttempts outbox)
    (hrow : row ∈ outbox.store.notifications)
    (hrows : db.notifications = changed row row' outbox.store.notifications)
    (hid : row'.id = row.id)
    (hreaches : Delivery.Reaches dispatch.maxAttempts
      (outcomesOf row.id outbox.tried ++ [succeeded]) (progress row'))
    (hdated : row'.status = .sent → row'.sentAt.isSome) :
    Tracked dispatch.maxAttempts ⟨db, outbox.tried ++ [(row.id, succeeded)]⟩ := by
  have hids : db.notifications.map (·.id) =
      outbox.store.notifications.map (·.id) := by
    rw [hrows, map_id_changed hid]
  refine ⟨by rw [hids]; exact h.primaryKey, fun attempt hattempt => ?_,
    fun stored hstored => ?_, fun stored hstored => ?_⟩
  · rw [hids]
    rcases List.mem_append.mp hattempt with hattempt | hattempt
    · exact h.known attempt hattempt
    · rw [List.mem_singleton.mp hattempt]
      exact List.mem_map_of_mem hrow
  · rw [hrows] at hstored
    rcases mem_changed hstored with ⟨hstored, hne⟩ | rfl
    · rw [outcomesOf_concat_of_ne hne.symm]
      exact h.reaches stored hstored
    · rw [hid, outcomesOf_concat_self]
      exact hreaches
  · rw [hrows] at hstored
    rcases mem_changed hstored with ⟨hstored, -⟩ | rfl
    · exact h.dated stored hstored
    · exact hdated

theorem Tracked.attempted (h : Tracked dispatch.maxAttempts outbox)
    (hrow : row ∈ outbox.store.notifications) (hpending : row.status = .pending)
    (hattempted : Attempted dispatch row.id outbox outbox') :
    Tracked dispatch.maxAttempts outbox' ∧
      ∀ stored ∈ outbox.store.notifications, stored.id ≠ row.id →
        stored ∈ outbox'.store.notifications := by
  have hwaiting : (progress row).stage = .waiting := by
    rw [progress, hpending]
    rfl
  have hreaches := h.reaches row hrow
  cases hattempted with
  | skipped => exact ⟨h, fun _ hstored _ => hstored⟩
  | sent now =>
      have hrows := notifications_changeWrites (rfl : (sent now row).id = row.id)
        h.primaryKey hrow
      refine ⟨h.marked hrow hrows rfl (hreaches.succeed hwaiting)
        fun _ => rfl, fun stored hstored hne => ?_⟩
      exact hrows ▸ mem_changed_of_ne hstored hne
  | failed error =>
      have hrows := notifications_changeWrites
        (rfl : (attempted error dispatch.maxAttempts row).id = row.id) h.primaryKey hrow
      have hprogress : progress (attempted error dispatch.maxAttempts row) =
          (progress row).fail dispatch.maxAttempts := by
        by_cases hle : dispatch.maxAttempts ≤ row.attempts + 1 <;>
          simp [progress, attempted, Delivery.fail, hle, stage]
      refine ⟨h.marked hrow hrows rfl
        (hprogress ▸ hreaches.fail hwaiting) fun hsent => ?_,
        fun stored hstored hne => hrows ▸ mem_changed_of_ne hstored hne⟩
      simp only [attempted, hpending] at hsent
      split at hsent <;> cases hsent

end Tracking

/-! ## One delivery -/

section Deliveries

variable [PythonRuntime] [PersistenceRuntime] {dispatch : DispatchNotifications}
  {notification : NotificationRow} {db : Store}

theorem within_matchedProperty (notification : NotificationRow) :
    (DispatchNotifications.matchedProperty notification).Within
      (fun _ _ => False) (fun _ => False) := by
  refine Txn.within_bind (by simp) fun found => ?_
  cases found with
  | none => simp
  | some found =>
      exact Txn.within_bind (by simp) fun loaded =>
        Txn.within_bind (by simp) fun _ => by simp

omit [PersistenceRuntime] in
theorem within_messageFor (found : MatchRow) (prop : Property) :
    (DispatchNotifications.messageFor found prop).Within
      (fun _ _ => False) (fun _ => False) :=
  Txn.within_bind (by simp) fun _ => Txn.within_bind (by simp) fun _ =>
    Txn.within_bind (by simp) fun _ => by simp

theorem within_prepare (notification : NotificationRow) :
    (DispatchNotifications.prepare notification).Within
      (fun _ _ => False) (fun _ => False) := by
  refine Txn.within_bind (by simp) fun loaded =>
    Txn.within_bind (by simp) fun channel => ?_
  cases channel.filter (·.isEnabled) with
  | none => simp
  | some channel =>
      refine Txn.within_bind (within_matchedProperty notification) fun matched => ?_
      cases matched with
      | none => simp
      | some matched =>
          exact Txn.within_bind (within_messageFor _ _) fun _ => by simp

inductive Delivered (dispatch : DispatchNotifications) (id : NotificationId)
    (db : Store) :
    Ended Store Write DispatchCall DispatchAnswer PyError Bool →
      List (NotificationId × Bool) → Prop
  | skipped (s : DispatchSession) (h : s.pending = []) :
      Delivered dispatch id db ⟨.ok false, s, db⟩ []
  | sent (s : DispatchSession) (now : DateTime)
      (h : s.pending = markSentWrites id now db) :
      Delivered dispatch id db ⟨.ok true, s, db⟩ [(id, true)]
  | failed (s : DispatchSession) (error : String)
      (h : s.pending = markFailedWrites id error dispatch.maxAttempts db) :
      Delivered dispatch id db ⟨.ok false, s, db⟩ [(id, false)]
  | raised (s : DispatchSession) (error : PyError) :
      Delivered dispatch id db ⟨.error error, s, db⟩ []

variable {answers : Nat → (request : DispatchCall) → DispatchAnswer request}
  {s : DispatchSession}

omit [PythonRuntime] [PersistenceRuntime] in
theorem eval_sendAndMark (id : NotificationId) (channel : NotificationChannel)
    (message : NotificationMessage) (hpending : s.pending = []) :
    Delivered dispatch id db
      ((dispatch.sendAndMark id channel message).eval answers s db)
      (attempts ((dispatch.sendAndMark id channel message).trace answers s db)) := by
  simp only [DispatchNotifications.sendAndMark, rateLimit,
    notifierForChannelType, Txn.bind_eq, Txn.bind, Txn.eval, Txn.trace]
  cases answers s.ops (.rateLimit channel.channelType) with
  | error error => exact .raised _ error
  | ok =>
      simp only [Txn.ofExcept, Txn.bind, Txn.eval, Txn.trace]
      cases answers _ (.notifierForChannelType channel.channelType) with
      | error error => exact .raised _ error
      | ok =>
          simp only [Txn.bind, Txn.eval, Txn.trace]
          cases answers _ (.send id channel.target message) with
          | ok =>
              exact .sent _ (answers (s.ops + 1 + 1) .clock)
                (by simp [hpending, Session.view])
          | error error =>
              cases error with
              | notifierError error =>
                  exact .failed _ error (by simp [hpending, Session.view])
              | _ => exact .raised _ _

theorem eval_deliver (hpending : s.pending = []) :
    Delivered dispatch notification.id db
      ((dispatch.deliver notification).eval answers s db)
      (attempts ((dispatch.deliver notification).trace answers s db)) := by
  obtain ⟨hstore, hidle, htrace⟩ := Txn.eval_of_silent answers
    (within_prepare notification) hpending db
  rw [DispatchNotifications.deliver, Txn.bind_eq, Txn.eval_bind, Txn.trace_bind,
    htrace, List.nil_append]
  unfold Txn.andThen Txn.traceThen
  cases ((DispatchNotifications.prepare notification).eval answers s db).outcome with
  | error error =>
      rw [hstore]
      exact .raised _ error
  | ok prepared =>
      rw [hstore]
      cases prepared with
      | none => exact .skipped _ hidle
      | some prepared => exact eval_sendAndMark _ _ _ hidle

omit [PythonRuntime] [PersistenceRuntime] in
theorem admits_changeWrites (change : NotificationRow → NotificationRow)
    (id : NotificationId) (db : Store) :
    Database.admits db (changeWrites change id db) = true := by
  unfold changeWrites
  cases load id db <;> rfl

omit [PersistenceRuntime] [PythonRuntime] in
theorem attempted_commitDelivery (counts : Nat × Nat) (delivered : Bool)
    {id : NotificationId} {outbox : Outbox} {tried : List (NotificationId × Bool)}
    (hadmits : Database.admits outbox.store s.pending = true)
    (h : Attempted dispatch id outbox
      ⟨applyAll s.pending outbox.store, outbox.tried ++ tried⟩) :
    let program := DispatchNotifications.commitDelivery counts delivered
    let ended := program.eval answers s outbox.store
    Attempted dispatch id outbox ⟨ended.store, outbox.tried ++
        (tried ++ attempts (program.trace answers s outbox.store))⟩ ∧
      ∀ counts', ended.outcome = .ok counts' → ended.session.pending = [] ∧
        counts'.1 + counts'.2 = counts.1 + counts.2 + 1 := by
  simp only [DispatchNotifications.commitDelivery, Txn.bind_eq, Txn.pure_eq,
    Txn.eval_commitOr_bind _ _ hadmits, Txn.trace_commitOr_bind _ _ hadmits]
  refine ⟨?_, fun counts' hcounts => ⟨rfl, ?_⟩⟩
  · simpa [Txn.eval, Txn.trace, attempts] using h
  · obtain rfl := Except.ok.inj hcounts
    cases delivered <;> simp <;> omega

theorem eval_deliverOne (outbox : Outbox) (counts : Nat × Nat)
    (hpending : s.pending = []) :
    let program := dispatch.deliverOne counts notification
    let ended := program.eval answers s outbox.store
    Attempted dispatch notification.id outbox ⟨ended.store, outbox.tried ++
        attempts (program.trace answers s outbox.store)⟩ ∧
      ∀ counts', ended.outcome = .ok counts' → ended.session.pending = [] ∧
        counts'.1 + counts'.2 = counts.1 + counts.2 + 1 := by
  have hdelivered : Delivered dispatch notification.id outbox.store _ _ :=
    @eval_deliver _ _ dispatch notification _ answers _ hpending
  simp only [DispatchNotifications.deliverOne, Txn.bind_eq, Txn.eval_bind,
    Txn.trace_bind, attempts_append]
  generalize (dispatch.deliver notification).eval answers s outbox.store = ended
    at hdelivered
  generalize attempts ((dispatch.deliver notification).trace answers s
    outbox.store) = tried at hdelivered
  cases hdelivered with
  | raised s error =>
      refine ⟨?_, fun _ h => by simp [Txn.andThen] at h⟩
      simp only [Txn.andThen, Txn.traceThen, attempts, List.filterMap_nil,
        List.append_nil]
      exact .skipped
  | skipped s h =>
      refine attempted_commitDelivery counts false (by rw [h]; rfl) ?_
      rw [h, List.append_nil]
      exact .skipped
  | sent s now h =>
      refine attempted_commitDelivery counts true ?_ ?_
      · rw [h]
        exact admits_changeWrites _ _ _
      · rw [h]
        exact .sent now
  | failed s error h =>
      refine attempted_commitDelivery counts false ?_ ?_
      · rw [h]
        exact admits_changeWrites _ _ _
      · rw [h]
        exact .failed error

/-! ## One run -/

def Settled (outbox outbox' : Outbox) : Prop :=
  ∀ row ∈ outbox.store.notifications, row.status ≠ .pending →
    row ∈ outbox'.store.notifications

omit [PythonRuntime] [PersistenceRuntime] in
theorem Settled.trans {outbox outbox' outbox'' : Outbox}
    (h : Settled outbox outbox') (h' : Settled outbox' outbox'') :
    Settled outbox outbox'' :=
  fun row hrow hstatus => h' row (h row hrow hstatus) hstatus

theorem eval_deliverEach {rows : List NotificationRow} {outbox : Outbox}
    (h : Tracked dispatch.maxAttempts outbox) (hnodup : (rows.map (·.id)).Nodup)
    (hrows : ∀ row ∈ rows,
      row ∈ outbox.store.notifications ∧ row.status = .pending)
    (counts : Nat × Nat) (hpending : s.pending = []) :
    let program := Txn.foldEach rows counts dispatch.deliverOne
    let ended := program.eval answers s outbox.store
    let outbox' : Outbox := ⟨ended.store, outbox.tried ++
      attempts (program.trace answers s outbox.store)⟩
    Tracked dispatch.maxAttempts outbox' ∧ Settled outbox outbox' ∧
      ∀ counts', ended.outcome = .ok counts' →
        counts'.1 + counts'.2 = counts.1 + counts.2 + rows.length := by
  induction rows generalizing outbox counts s with
  | nil =>
      simp only [Txn.foldEach, Txn.eval, Txn.trace, attempts, List.filterMap_nil,
        List.append_nil]
      exact ⟨h, fun _ hrow _ => hrow, fun _ hcounts => by cases hcounts; rfl⟩
  | cons row rest ih =>
      obtain ⟨⟨hrow, hstatus⟩, hrest⟩ := List.forall_mem_cons.mp hrows
      rw [List.map_cons, List.nodup_cons] at hnodup
      obtain ⟨hattempted, hcounts⟩ := @eval_deliverOne _ _ dispatch row answers s
        outbox counts hpending
      obtain ⟨htracked, hothers⟩ := h.attempted hrow hstatus hattempted
      have hsettled : Settled outbox _ := fun stored hstored hne =>
        hothers stored hstored fun heq => hne <| by
          rw [List.inj_on_of_nodup_map h.primaryKey hstored hrow heq, hstatus]
      simp only [Txn.foldEach, Txn.eval_bind, Txn.trace_bind, attempts_append,
        ← List.append_assoc]
      unfold Txn.andThen Txn.traceThen
      cases houtcome : ((dispatch.deliverOne counts row).eval answers s
          outbox.store).outcome with
      | error error =>
          simp only [attempts, List.filterMap_nil, List.append_nil]
          exact ⟨htracked, hsettled, fun _ h => by cases h⟩
      | ok counts' =>
          obtain ⟨hidle, hsum⟩ := hcounts counts' houtcome
          -- the rows that are left are where the list found them
          have hleft : ∀ later ∈ rest, later ∈ _ ∧ later.status = .pending :=
            fun later hlater => ⟨hothers later (hrest later hlater).1
              fun heq => hnodup.1 (heq ▸ List.mem_map_of_mem hlater),
              (hrest later hlater).2⟩
          obtain ⟨htracked, hsettled', hcounts⟩ :=
            ih htracked hnodup.2 hleft counts' hidle
          refine ⟨htracked, hsettled.trans hsettled', fun final hfinal => ?_⟩
          rw [hcounts final hfinal, hsum, List.length_cons]
          omega

omit [PythonRuntime] [PersistenceRuntime] in
theorem mem_listPending {limit : Nat} {row : NotificationRow}
    (h : row ∈ listPending limit db) :
    row ∈ db.notifications ∧ row.status = .pending := by
  have hmem := List.mem_of_mem_take h
  rw [List.mem_insertionSort] at hmem
  simpa using hmem

omit [PythonRuntime] [PersistenceRuntime] in
theorem nodup_listPending (limit : Nat)
    (h : (db.notifications.map (·.id)).Nodup) :
    ((listPending limit db).map (·.id)).Nodup := by
  have hpending : ((db.notifications.filter (·.status = .pending)).map
      (·.id)).Nodup := h.sublist (List.filter_sublist.map _)
  have hsorted := ((List.perm_insertionSort (fun a b : NotificationRow =>
    a.createdAt ≤ b.createdAt) _).map (·.id)).nodup_iff.mpr hpending
  exact hsorted.sublist ((List.take_sublist _ _).map _)

theorem eval_run {outbox : Outbox} (h : Tracked dispatch.maxAttempts outbox)
    (hpending : s.pending = []) :
    let ended := dispatch.run.eval answers s outbox.store
    let outbox' : Outbox := ⟨ended.store, outbox.tried ++
      attempts (dispatch.run.trace answers s outbox.store)⟩
    Tracked dispatch.maxAttempts outbox' ∧ Settled outbox outbox' ∧
      ∀ report, ended.outcome = .ok report →
        report.sent + report.failed = report.notificationsPending := by
  have hview : s.view outbox.store = outbox.store := by
    rw [Session.view, hpending]
    rfl
  have hidle : (s.wrote []).pending = [] := by simp [hpending]
  obtain ⟨htracked, hsettled, hcounts⟩ := @eval_deliverEach _ _ dispatch answers _ _ _ h
    (nodup_listPending dispatch.batchSize h.primaryKey)
    (fun row hrow => mem_listPending hrow) (0, 0) hidle
  simp only [DispatchNotifications.run, Txn.query, Txn.bind_eq, Txn.bind, Txn.eval,
    Txn.trace, Txn.eval_bind, Txn.trace_bind, hview, attempts_append]
  unfold Txn.andThen Txn.traceThen
  cases houtcome : ((Txn.foldEach (listPending dispatch.batchSize outbox.store)
      (0, 0) dispatch.deliverOne).eval answers (s.wrote []) outbox.store).outcome with
  | error error =>
      simp only [attempts, List.filterMap_nil, List.append_nil]
      exact ⟨htracked, hsettled, fun _ h => by cases h⟩
  | ok counts =>
      simp only [Txn.pure_eq, Txn.eval, Txn.trace, attempts, List.filterMap_nil,
        List.append_nil]
      refine ⟨htracked, hsettled, fun report hreport => ?_⟩
      obtain rfl := Except.ok.inj hreport
      simpa using hcounts counts houtcome

end Deliveries

/-! ## Runs of any length -/

section Runs

variable [PythonRuntime] [PersistenceRuntime]

/--
Something is queued, a run of the dispatcher goes from its start to its end, or
other tables change.
-/
inductive OutboxStep (dispatch : DispatchNotifications) (outbox : Outbox) :
    Outbox → Prop
  | enqueued (txn : Nat)
      (answers : Nat → (request : DispatchCall) → DispatchAnswer request)
      (matchId : MatchId) (channelId : ChannelId) (now : DateTime) :
      OutboxStep dispatch outbox
        ⟨((enqueue matchId channelId now).eval answers (.start txn)
          outbox.store).store, outbox.tried⟩
  | dispatched (txn : Nat)
      (answers : Nat → (request : DispatchCall) → DispatchAnswer request) :
      OutboxStep dispatch outbox
        ⟨(dispatch.run.eval answers (.start txn) outbox.store).store,
          outbox.tried ++
            attempts (dispatch.run.trace answers (.start txn) outbox.store)⟩
  | elsewhere (store : Store)
      (h : store.notifications = outbox.store.notifications) :
      OutboxStep dispatch outbox ⟨store, outbox.tried⟩

/-- An outbox that starts empty, after any number of steps. -/
inductive Reachable (dispatch : DispatchNotifications) : Outbox → Prop
  | start (store : Store) (h : store.notifications = []) :
      Reachable dispatch ⟨store, []⟩
  | step {outbox outbox' : Outbox} (h : Reachable dispatch outbox)
      (hstep : OutboxStep dispatch outbox outbox') : Reachable dispatch outbox'

variable {dispatch : DispatchNotifications} {outbox outbox' : Outbox}

omit [PythonRuntime] [PersistenceRuntime] in
theorem store_enqueue
    (answers : Nat → (request : DispatchCall) → DispatchAnswer request)
    (matchId : MatchId) (channelId : ChannelId) (now : DateTime) (txn : Nat)
    (db : Store) :
    let db' := ((enqueue matchId channelId now).eval answers (.start txn) db).store
    db' = db ∨ ∃ row, progress row = .new ∧
      row.id ∉ db.notifications.map (·.id) ∧
      db'.notifications = db.notifications ++ [row] := by
  let s : DispatchSession :=
    (Session.start txn).wrote (enqueueWrites matchId channelId now ⟨txn, 0⟩ db)
  have hprogram : (enqueue matchId channelId now).eval answers (.start txn) db =
      (Txn.commitOr (C := DispatchCall) (R := DispatchAnswer)
        PyError.integrityError).eval answers s db := rfl
  have hstore : ((enqueue matchId channelId now).eval answers (.start txn) db).store =
      if Database.admits db s.pending then applyAll s.pending db else db := by
    rw [hprogram, Txn.commitOr, Txn.eval]
    split <;> rfl
  rw [hstore]
  cases hfind : find matchId channelId db with
  | some row =>
      left
      simp [s, enqueueWrites, hfind]
  | none =>
      have hpending : s.pending =
          [.insertNotification (newRow matchId channelId now ⟨txn, 0⟩)] := by
        simp [s, enqueueWrites, hfind]
      split
      · next hadmits =>
        right
        rw [hpending] at hadmits ⊢
        refine ⟨_, rfl, fun hmem => ?_, rfl⟩
        obtain ⟨stored, hstored, hid⟩ := List.mem_map.mp hmem
        rw [admits_eq, admitsAll, Bool.and_eq_true] at hadmits
        simp only [Write.admitted, Bool.and_eq_true, Bool.not_eq_true',
          List.any_eq_false, decide_eq_true_eq] at hadmits
        exact hadmits.1.1.1 stored hstored hid
      · exact .inl rfl

omit [PythonRuntime] [PersistenceRuntime] in
theorem Tracked.queued {row : NotificationRow} {db : Store}
    (h : Tracked dispatch.maxAttempts outbox) (hnew : progress row = .new)
    (hid : row.id ∉ outbox.store.notifications.map (·.id))
    (hrows : db.notifications = outbox.store.notifications ++ [row]) :
    Tracked dispatch.maxAttempts ⟨db, outbox.tried⟩ := by
  refine ⟨?_, fun attempt hattempt => ?_, fun stored hstored => ?_,
    fun stored hstored hsent => ?_⟩
  · rw [hrows]
    refine nodup_map_concat h.primaryKey fun stored hstored heq => ?_
    exact hid (List.mem_map.mpr ⟨stored, hstored, heq⟩)
  · rw [hrows, List.map_append]
    exact List.mem_append_left _ (h.known attempt hattempt)
  · rw [hrows] at hstored
    rcases List.mem_append.mp hstored with hstored | hstored
    · exact h.reaches stored hstored
    · obtain rfl := List.mem_singleton.mp hstored
      have hunknown : ∀ attempt ∈ outbox.tried, attempt.1 ≠ stored.id :=
        fun attempt hattempt heq => hid (heq ▸ h.known attempt hattempt)
      rw [hnew, outcomesOf_of_unknown hunknown]
      exact .new
  · rw [hrows] at hstored
    rcases List.mem_append.mp hstored with hstored | hstored
    · exact h.dated stored hstored hsent
    · obtain rfl := List.mem_singleton.mp hstored
      have hstage := congrArg Delivery.stage hnew
      simp [progress, hsent, stage, Delivery.new] at hstage

theorem tracked_step (h : Tracked dispatch.maxAttempts outbox)
    (hstep : OutboxStep dispatch outbox outbox') :
    Tracked dispatch.maxAttempts outbox' ∧ Settled outbox outbox' := by
  cases hstep with
  | enqueued txn answers matchId channelId now =>
      rcases store_enqueue answers matchId channelId now txn outbox.store with
        hstore | ⟨row, hnew, hid, hrows⟩
      · rw [hstore]
        exact ⟨h, fun _ hrow _ => hrow⟩
      · exact ⟨h.queued hnew hid hrows, fun stored hstored _ =>
          hrows ▸ List.mem_append_left _ hstored⟩
  | dispatched txn answers =>
      obtain ⟨htracked, hsettled, -⟩ := @eval_run _ _ dispatch answers (.start txn) _ h rfl
      exact ⟨htracked, hsettled⟩
  | elsewhere store heq =>
      refine ⟨⟨?_, ?_, ?_, ?_⟩, fun row hrow _ => heq ▸ hrow⟩
      all_goals rw [heq]
      exacts [h.primaryKey, h.known, h.reaches, h.dated]

theorem tracked_of_reachable (h : Reachable dispatch outbox) :
    Tracked dispatch.maxAttempts outbox := by
  induction h with
  | start store h =>
      refine ⟨?_, nofun, ?_, ?_⟩ <;> simp [h]
  | step _ hstep ih => exact (tracked_step ih hstep).1

theorem settled_of_steps (h : Tracked dispatch.maxAttempts outbox)
    (hsteps : Relation.ReflTransGen (OutboxStep dispatch) outbox outbox') :
    Tracked dispatch.maxAttempts outbox' ∧ Settled outbox outbox' := by
  induction hsteps with
  | refl => exact ⟨h, fun _ hrow _ => hrow⟩
  | tail _ hstep ih =>
      obtain ⟨htracked, hsettled⟩ := tracked_step ih.1 hstep
      exact ⟨htracked, ih.2.trans hsettled⟩

/-- The life cycle of a notification, compared with the history of its attempts. -/
structure LifeCycle (maxAttempts : Nat) (outcomes : List Bool)
    (row : NotificationRow) : Prop where
  pending : row.status = .pending →
    row.attempts < maxAttempts ∧ outcomes.count true = 0
  failed : row.status = .failed →
    row.attempts = maxAttempts ∧ outcomes.count true = 0
  sent : row.status = .sent → outcomes.count true = 1 ∧ row.sentAt.isSome
  attempts : row.attempts = outcomes.count false

omit [PythonRuntime] [PersistenceRuntime] in
theorem Tracked.lifeCycle {maxAttempts : Nat} (hmax : 1 ≤ maxAttempts)
    (h : Tracked maxAttempts outbox) {row : NotificationRow}
    (hrow : row ∈ outbox.store.notifications) :
    LifeCycle maxAttempts (outcomesOf row.id outbox.tried) row := by
  have hreaches := h.reaches row hrow
  have hsuccesses := hreaches.successes_eq
  refine ⟨fun hstatus => ?_, fun hstatus => ?_, fun hstatus => ?_,
    hreaches.failures_eq⟩
  all_goals simp only [progress, hstatus, stage] at hreaches hsuccesses
  · exact ⟨hreaches.failures_lt hmax rfl, hsuccesses⟩
  · exact ⟨hreaches.failures_eq_limit hmax rfl, hsuccesses⟩
  · exact ⟨hsuccesses, h.dated row hrow hstatus⟩

/--
In every reachable state each notification is where its attempts lead, rows that
were sent or given up never change again, and a run counts what it listed.
-/
theorem outbox_life_cycle (dispatch : DispatchNotifications)
    (hmax : 1 ≤ dispatch.maxAttempts) {outbox : Outbox}
    (h : Reachable dispatch outbox) :
    (∀ row ∈ outbox.store.notifications, LifeCycle dispatch.maxAttempts
      (outcomesOf row.id outbox.tried) row) ∧
    (∀ outbox', Relation.ReflTransGen (OutboxStep dispatch) outbox outbox' →
      Settled outbox outbox') ∧
    ∀ txn answers report,
      (dispatch.run.eval answers (.start txn) outbox.store).outcome = .ok report →
        report.sent + report.failed = report.notificationsPending := by
  have htracked := tracked_of_reachable h
  refine ⟨fun row hrow => htracked.lifeCycle hmax hrow,
    fun outbox' hsteps => (settled_of_steps htracked hsteps).2,
    fun txn answers report hreport => ?_⟩
  obtain ⟨-, -, hcounts⟩ := @eval_run _ _ dispatch answers (.start txn) _ htracked rfl
  exact hcounts report hreport

end Runs

/-! ## A flat that is notified once -/

def matchedStore : Store :=
  { Cycle.cachedStore with
    alertMatches := [⟨.given 5, Alerts.salesAlert.id, "flat", 0, .new⟩] }

def dispatcher : DispatchNotifications := ⟨5, 50⟩

def calmAnswers (_ : Nat) : (request : DispatchCall) → DispatchAnswer request
  | .clock => (1 : Int)
  | .rateLimit _ | .notifierForChannelType _ | .send _ _ _ => .ok ()

def queuedOutbox : Outbox :=
  ⟨((enqueue (.given 5) (.given 9) 0).eval calmAnswers (.start 0)
    matchedStore).store, []⟩

theorem reachable_queuedOutbox :
    @Reachable .plain .plain dispatcher queuedOutbox :=
  @Reachable.step .plain .plain _ ⟨matchedStore, []⟩ _
    (@Reachable.start .plain .plain _ _ rfl)
    (@OutboxStep.enqueued .plain .plain _ _ 0 calmAnswers _ _ _)

theorem outbox_life_cycle_queued :
    (∀ row ∈ queuedOutbox.store.notifications, LifeCycle dispatcher.maxAttempts
      (outcomesOf row.id queuedOutbox.tried) row) ∧
    (∀ outbox', Relation.ReflTransGen (@OutboxStep .plain .plain dispatcher)
      queuedOutbox outbox' → Settled queuedOutbox outbox') ∧
    ∀ txn answers report,
      ((@DispatchNotifications.run .plain .plain dispatcher).eval answers
        (.start txn) queuedOutbox.store).outcome = .ok report →
        report.sent + report.failed = report.notificationsPending :=
  @outbox_life_cycle .plain .plain dispatcher (by decide) _ reachable_queuedOutbox

/-- A run sends the queued notification, and the next one finds nothing pending. -/
example : ((@DispatchNotifications.run .plain .plain dispatcher).eval calmAnswers
    (.start 1) queuedOutbox.store).outcome = .ok ⟨1, 1, 0⟩ := by
  rfl

end RealEstateTracker.Notifications
