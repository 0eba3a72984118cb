import Mathlib.Algebra.Order.Floor.Div
import RealEstateTracker.Foundation.Backlog
import RealEstateTracker.Notifications.Outbox

/-!
# Undeliverable notifications at the head of the outbox

The pending rows are a backlog: a run of the dispatcher is one pass over the
oldest of them.  A row whose channel is disabled, or whose match or property is
gone, stays where it is, and a row that cannot be read ends the run.
-/

namespace RealEstateTracker.Notifications

open Foundation Domain Persistence NotificationRepository Backlog

/-! ## The outbox as a backlog -/

def queue (db : Store) : List NotificationRow :=
  (db.notifications.filter (·.status = .pending)).insertionSort
    fun a b => a.createdAt ≤ b.createdAt

theorem mem_queue {row : NotificationRow} {db : Store} :
    row ∈ queue db ↔ row ∈ db.notifications ∧ row.status = .pending := by
  simp [queue]

/-- The channel of a notification is enabled, and its match and property exist. -/
def Deliverable (db : Store) (row : NotificationRow) : Prop :=
  (∃ channel, db.channels.find? (·.id = row.channelId) = some channel ∧
    channel.isEnabled) ∧
  ∃ found, MatchRepository.get row.matchId db = some found ∧
    ∃ prop ∈ db.properties, prop.id = found.propertyId

section Verdicts

variable [PythonRuntime] [PersistenceRuntime]

/-- Whether a delivery comes to the sending of its message, in the order it looks. -/
def verdict (db : Store) (row : NotificationRow) : Verdict :=
  match NotificationChannelRepository.get row.channelId db with
  | .error _ => .halted
  | .ok channel =>
      match channel.filter (·.isEnabled) with
      | none => .skipped
      | some _ =>
          match MatchRepository.get row.matchId db with
          | none => .skipped
          | some found =>
              match PropertyRepository.get found.propertyId db with
              | .error _ => .halted
              | .ok none => .skipped
              | .ok (some _) =>
                  match AlertRepository.get found.alertId db with
                  | .error _ => .halted
                  | .ok _ => .served

def verdictOf {α : Type} : Except PyError (Option α) → Verdict
  | .error _ => .halted
  | .ok none => .skipped
  | .ok (some _) => .served

variable {dispatch : DispatchNotifications} {row : NotificationRow} {db : Store}
  {answers : Nat → (request : DispatchCall) → DispatchAnswer request}
  {s : DispatchSession}

theorem verdictOf_prepare (hpending : s.pending = []) :
    verdictOf ((DispatchNotifications.prepare row).eval answers s db).outcome =
      verdict db row := by
  have hview : ∀ s' : DispatchSession, s'.pending = [] → s'.view db = db := by
    intro s' h
    rw [Session.view, h, applyAll_nil]
  simp only [DispatchNotifications.prepare, DispatchNotifications.matchedProperty,
    DispatchNotifications.messageFor, Txn.query, Txn.bind_eq, Txn.pure_eq, Txn.bind,
    Txn.eval, verdict, hview s hpending]
  cases NotificationChannelRepository.get row.channelId db with
  | error error => rfl
  | ok channel =>
      simp only [Txn.ofExcept, Txn.done_bind]
      cases channel.filter (·.isEnabled) with
      | none => rfl
      | some channel =>
          simp only [Txn.eval]
          rw [hview _ (by simp [hpending])]
          cases MatchRepository.get row.matchId db with
          | none => rfl
          | some found =>
              simp only [Txn.bind, Txn.eval]
              rw [hview _ (by simp [hpending])]
              cases PropertyRepository.get found.propertyId db with
              | error error => rfl
              | ok prop =>
                  cases prop with
                  | none => rfl
                  | some prop =>
                      simp only [Txn.bind, Txn.eval, Option.map_some]
                      rw [hview _ (by simp [hpending])]
                      cases AlertRepository.get found.alertId db with
                      | error error => rfl
                      | ok alert => rfl

theorem propertyGet_eq_none_iff {id : PropertyId} {db : Store} :
    PropertyRepository.get id db = .ok none ↔
      ¬ ∃ prop ∈ db.properties, prop.id = id := by
  unfold PropertyRepository.get PropertyRepository.find
  cases hfind : db.properties.find? (·.id = id) with
  | none => simpa using hfind
  | some prop =>
      have hmem : ∃ prop ∈ db.properties, prop.id = id :=
        ⟨prop, List.mem_of_find?_eq_some hfind, by simpa using List.find?_some hfind⟩
      refine iff_of_false ?_ (not_not_intro hmem)
      simp only [Option.map_some]
      cases PropertyRepository.toDomain (PropertyRepository.readRow prop) <;>
        simp [Except.map]

omit [PythonRuntime] in
theorem channelGet_filter {id : ChannelId} {channel : Option NotificationChannel}
    (h : NotificationChannelRepository.get id db = .ok channel) :
    (channel.filter (·.isEnabled)).isSome ↔
      ∃ stored, db.channels.find? (·.id = id) = some stored ∧ stored.isEnabled := by
  rcases NotificationChannelRepository.get_eq_ok h with
    ⟨hfind, rfl⟩ | ⟨stored, channel, hfind, hread, rfl⟩
  · simp [hfind]
  · obtain ⟨target, -, rfl⟩ := NotificationChannelRepository.toDomain_eq_ok.mp hread
    cases henabled : stored.isEnabled <;> simp [hfind, henabled]

theorem verdict_eq_served_iff :
    verdict db row ≠ .halted → (verdict db row = .served ↔ Deliverable db row) := by
  unfold verdict Deliverable
  cases hchannel : NotificationChannelRepository.get row.channelId db with
  | error error => exact fun h => absurd rfl h
  | ok channel =>
      simp only [← channelGet_filter hchannel]
      cases channel.filter (·.isEnabled) with
      | none => simp
      | some channel =>
          simp only [Option.isSome_some, true_and]
          cases MatchRepository.get row.matchId db with
          | none => simp
          | some found =>
              have hnone := @propertyGet_eq_none_iff _ _ found.propertyId db
              simp only [Option.some.injEq, exists_eq_left']
              cases hget : PropertyRepository.get found.propertyId db with
              | error error => exact fun h => absurd rfl h
              | ok prop =>
                  rw [hget] at hnone
                  cases prop with
                  | none => exact fun _ => iff_of_false nofun (hnone.mp rfl)
                  | some prop =>
                      have hexists := of_not_not (mt hnone.mpr nofun)
                      cases AlertRepository.get found.alertId db with
                      | error error => exact fun h => absurd rfl h
                      | ok alert => exact fun _ => iff_of_true rfl hexists

/-! ## Runs that mark what they serve -/

/-- Everybody that a delivery needs does what it is asked, the clock aside. -/
structure SendsSucceed
    (answers : Nat → (request : DispatchCall) → DispatchAnswer request) : Prop where
  rateLimit : ∀ op channelType, answers op (.rateLimit channelType) = .ok ()
  notifier : ∀ op channelType,
    answers op (.notifierForChannelType channelType) = .ok ()
  send : ∀ op id target message, answers op (.send id target message) = .ok ()

/-- The store after the rows of `served` were marked, each with its own time. -/
structure Marked (served : List NotificationRow) (db db' : Store) : Prop where
  elsewhere : { db' with notifications := db.notifications } = db
  rows : ∃ mark : NotificationRow → NotificationRow,
    db'.notifications = db.notifications.map mark ∧
      ∀ row ∈ db.notifications,
        (row ∈ served → (mark row).id = row.id ∧ (mark row).status = .sent) ∧
          (row ∉ served → mark row = row)

omit [PythonRuntime] [PersistenceRuntime] in
theorem Marked.refl (db : Store) : Marked [] db db :=
  ⟨rfl, fun row => row, by simp, fun _ _ => ⟨nofun, fun _ => rfl⟩⟩

theorem Marked.verdict_eq {served : List NotificationRow} {db' : Store}
    (h : Marked served db db') : verdict db' = verdict db := by
  rw [← h.elsewhere]
  rfl

omit [PythonRuntime] [PersistenceRuntime] in
theorem Marked.trans {first second : List NotificationRow} {db' db'' : Store}
    (h : Marked first db db') (h' : Marked second db' db'')
    (hpending : ∀ row ∈ second, row.status = .pending) :
    Marked (first ++ second) db db'' := by
  obtain ⟨mark, hmark, hrows⟩ := h.rows
  obtain ⟨mark', hmark', hrows'⟩ := h'.rows
  refine ⟨?_, mark' ∘ mark, ?_, fun row hrow => ?_⟩
  · conv_rhs => rw [← h.elsewhere, ← h'.elsewhere]
  · rw [hmark', hmark, List.map_map]
  · have hmarked : mark row ∈ db'.notifications :=
      hmark ▸ List.mem_map_of_mem hrow
    obtain ⟨hin, hout⟩ := hrows row hrow
    obtain ⟨hin', hout'⟩ := hrows' _ hmarked
    by_cases hfirst : row ∈ first
    · -- what was sent is not pending, so it is not marked again
      have hsent : mark row ∉ second := fun hmem => by
        have hstatus := hpending _ hmem
        rw [(hin hfirst).2] at hstatus
        cases hstatus
      rw [Function.comp_apply, hout' hsent]
      exact ⟨fun _ => hin hfirst,
        fun hnot => absurd (List.mem_append_left _ hfirst) hnot⟩
    · rw [Function.comp_apply, hout hfirst] at *
      exact ⟨fun hmem => hin' ((List.mem_append.mp hmem).resolve_left hfirst),
        fun hnot => hout' fun hsecond => hnot (List.mem_append_right _ hsecond)⟩

omit [PythonRuntime] [PersistenceRuntime] in
theorem marked_changeWrites (hkey : (db.notifications.map (·.id)).Nodup)
    (hrow : row ∈ db.notifications) (now : DateTime) :
    Marked [row] db (applyAll (markSentWrites row.id now db) db) := by
  have hrows := notifications_changeWrites (rfl : (sent now row).id = row.id)
    hkey hrow
  refine ⟨?_, fun stored => if stored.id = row.id then sent now row else stored,
    by simpa [markSentWrites, changed, updateWhere] using hrows,
    fun stored hstored => ?_⟩
  · rw [markSentWrites, changeWrites, load_eq_some hkey hrow]
    rfl
  · by_cases heq : stored.id = row.id
    · obtain rfl := List.inj_on_of_nodup_map hkey hstored hrow heq
      simp [sent]
    · have hne : stored ≠ row := fun h => heq (h ▸ rfl)
      simp [heq, hne]

inductive Advanced (db : Store) (row : NotificationRow) :
    Ended Store Write DispatchCall DispatchAnswer PyError (Nat × Nat) → Prop
  | served (h : verdict db row = .served) (counts : Nat × Nat)
      (s : DispatchSession) (hpending : s.pending = []) (now : DateTime) :
      Advanced db row ⟨.ok counts, s, applyAll (markSentWrites row.id now db) db⟩
  | skipped (h : verdict db row = .skipped) (counts : Nat × Nat)
      (s : DispatchSession) (hpending : s.pending = []) :
      Advanced db row ⟨.ok counts, s, db⟩
  | halted (h : verdict db row = .halted) (error : PyError) (s : DispatchSession) :
      Advanced db row ⟨.error error, s, db⟩

theorem advanced_deliverOne (hsend : SendsSucceed answers)
    (hpending : s.pending = []) (counts : Nat × Nat) :
    Advanced db row ((dispatch.deliverOne counts row).eval answers s db) := by
  have hverdict := @verdictOf_prepare _ _ row db answers s hpending
  obtain ⟨hstore, hidle, -⟩ := Txn.eval_of_silent answers (within_prepare row)
    hpending db
  rw [DispatchNotifications.deliverOne, Txn.bind_eq, DispatchNotifications.deliver,
    Txn.bind_eq, Txn.bind_assoc, Txn.eval_bind, Txn.andThen]
  generalize (DispatchNotifications.prepare row).eval answers s db = ended at *
  obtain ⟨outcome, s', db'⟩ := ended
  obtain rfl : db' = db := hstore
  have hidle : s'.pending = [] := hidle
  cases outcome with
  | error error => exact .halted hverdict.symm error s'
  | ok prepared =>
      cases prepared with
      | none =>
          simp only [Txn.pure_eq, Txn.done_bind, DispatchNotifications.commitDelivery,
            Txn.bind_eq]
          rw [Txn.eval_commitOr_bind _ _ (by rw [hidle]; rfl), hidle]
          exact .skipped hverdict.symm _ _ rfl
      | some prepared =>
          obtain ⟨channel, message⟩ := prepared
          -- nothing was written before the row is marked
          have hview : s'.view db' = db' := by rw [Session.view, hidle, applyAll_nil]
          simp only [DispatchNotifications.sendAndMark, rateLimit,
            notifierForChannelType, Txn.bind_eq, Txn.bind, Txn.eval, hsend.rateLimit,
            hsend.notifier, hsend.send, Txn.ofExcept, Txn.exec, Txn.pure_eq,
            DispatchNotifications.commitDelivery, Session.view_answered, hview]
          rw [Txn.eval_commitOr_bind]
          · simp only [Session.pending_wrote, Session.pending_answered]
            rw [hidle, List.nil_append]
            exact .served hverdict.symm _ _ (Session.pending_committed _) _
          · simp only [Session.pending_wrote, Session.pending_answered]
            rw [hidle, List.nil_append]
            exact admits_changeWrites _ _ _

omit [PythonRuntime] [PersistenceRuntime] in
theorem Marked.mem_of_not_served {served : List NotificationRow} {db' : Store}
    (h : Marked served db db') (hrow : row ∈ db.notifications)
    (hnot : row ∉ served) : row ∈ db'.notifications := by
  obtain ⟨mark, hmark, hrows⟩ := h.rows
  rw [hmark, ← (hrows row hrow).2 hnot]
  exact List.mem_map_of_mem hrow

omit [PythonRuntime] [PersistenceRuntime] in
theorem Marked.map_id {served : List NotificationRow} {db' : Store}
    (h : Marked served db db') :
    db'.notifications.map (·.id) = db.notifications.map (·.id) := by
  obtain ⟨mark, hmark, hrows⟩ := h.rows
  rw [hmark, List.map_map]
  refine List.map_congr_left fun row hrow => ?_
  obtain ⟨hin, hout⟩ := hrows row hrow
  by_cases hserved : row ∈ served
  · exact (hin hserved).1
  · exact congrArg _ (hout hserved)

theorem marked_deliverEach (hsend : SendsSucceed answers)
    {rows : List NotificationRow} (hkey : (db.notifications.map (·.id)).Nodup)
    (hnodup : (rows.map (·.id)).Nodup)
    (hrows : ∀ row ∈ rows, row ∈ db.notifications ∧ row.status = .pending)
    (counts : Nat × Nat) (hpending : s.pending = []) :
    Marked (servable (verdict db) (rows.takeWhile (verdict db · ≠ .halted))) db
      ((Txn.foldEach rows counts dispatch.deliverOne).eval answers s db).store := by
  induction rows generalizing db counts s with
  | nil => exact .refl db
  | cons row rest ih =>
      obtain ⟨⟨hrow, hstatus⟩, hrest⟩ := List.forall_mem_cons.mp hrows
      rw [List.map_cons, List.nodup_cons] at hnodup
      have hadvanced := @advanced_deliverOne _ _ dispatch row db answers s hsend
        hpending counts
      rw [Txn.foldEach, Txn.eval_bind, Txn.andThen]
      generalize (dispatch.deliverOne counts row).eval answers s db = ended at *
      cases hadvanced with
      | halted h error s' =>
          simp only [List.takeWhile_cons, h]
          exact .refl db
      | skipped h counts' s' hidle =>
          simpa [servable, h] using ih hkey hnodup.2 hrest counts' hidle
      | served h counts' s' hidle now =>
          have hmarked := marked_changeWrites hkey hrow now
          -- the rows that are left are where the list found them
          have hleft : ∀ later ∈ rest, later ∈ _ ∧ later.status = .pending :=
            fun later hlater => ⟨hmarked.mem_of_not_served (hrest later hlater).1
              fun hmem => hnodup.1 (List.mem_singleton.mp hmem ▸
                List.mem_map_of_mem hlater), (hrest later hlater).2⟩
          have hothers := ih (hmarked.map_id ▸ hkey) hnodup.2 hleft counts' hidle
          rw [hmarked.verdict_eq] at hothers
          have hall := hmarked.trans hothers fun later hlater =>
            (hleft later ((List.takeWhile_sublist _).mem
              ((mem_servable _).mp hlater).1)).2
          simpa [servable, h] using hall

omit [PythonRuntime] [PersistenceRuntime] in
theorem nodup_queue (hkey : (db.notifications.map (·.id)).Nodup) :
    (queue db).Nodup := by
  have hpending := (List.Nodup.of_map _ hkey).filter (·.status = .pending)
  exact (List.perm_insertionSort _ _).nodup_iff.mpr hpending

omit [PythonRuntime] [PersistenceRuntime] in
theorem Marked.queue_eq {served : List NotificationRow} {db' : Store}
    (h : Marked served db db') :
    queue db' = (queue db).filter (· ∉ served) := by
  obtain ⟨mark, hmark, hrows⟩ := h.rows
  have hfilter : db'.notifications.filter (·.status = .pending) =
      (db.notifications.filter (·.status = .pending)).filter (· ∉ served) := by
    rw [hmark]
    generalize db.notifications = rows at hrows
    induction rows with
    | nil => rfl
    | cons row rest ih =>
        obtain ⟨⟨hin, hout⟩, hrest⟩ := List.forall_mem_cons.mp hrows
        rw [List.map_cons, List.filter_cons, ih hrest, List.filter_cons]
        by_cases hserved : row ∈ served
        · by_cases hstatus : row.status = .pending <;>
            simp [(hin hserved).2, hstatus, hserved]
        · by_cases hstatus : row.status = .pending <;>
            simp [hout hserved, hstatus, hserved]
  rw [queue, hfilter]
  exact insertionSort_filter _ _ _

/-- A run is a pass over the backlog of pending notifications. -/
theorem marked_run (hsend : SendsSucceed answers)
    (hkey : (db.notifications.map (·.id)).Nodup) (hpending : s.pending = []) :
    Marked (servable (verdict db)
      (reached (verdict db) dispatch.batchSize (queue db))) db
      (dispatch.run.eval answers s db).store := by
  have hview : s.view db = db := by
    rw [Session.view, hpending]
    rfl
  have hidle : (s.wrote []).pending = [] := by simp [hpending]
  have hmarked := @marked_deliverEach _ _ dispatch db answers _ hsend _ hkey
    (nodup_listPending dispatch.batchSize hkey)
    (fun row hrow => mem_listPending hrow) (0, 0) hidle
  have hstore : (dispatch.run.eval answers s db).store =
      ((Txn.foldEach (listPending dispatch.batchSize db) (0, 0)
        dispatch.deliverOne).eval answers (s.wrote []) db).store := by
    simp only [DispatchNotifications.run, Txn.query, Txn.bind_eq, Txn.bind, Txn.eval,
      Txn.eval_bind, hview]
    unfold Txn.andThen
    split <;> rfl
  rw [hstore]
  exact hmarked

theorem queue_run (hsend : SendsSucceed answers)
    (hkey : (db.notifications.map (·.id)).Nodup) (hpending : s.pending = []) :
    queue (dispatch.run.eval answers s db).store =
      pass (verdict db) dispatch.batchSize (queue db) := by
  rw [(marked_run hsend hkey hpending).queue_eq, pass_eq_filter (nodup_queue hkey)]
  refine List.filter_congr fun row _ => ?_
  simp [kept, mem_servable, and_comm]

/-! ## Consecutive runs -/

structure Execution where
  txn : Nat
  answers : Nat → (request : DispatchCall) → DispatchAnswer request

def storeAfter (dispatch : DispatchNotifications) :
    List Execution → Store → Store
  | [], db => db
  | execution :: rest, db => storeAfter dispatch rest
      (dispatch.run.eval execution.answers (.start execution.txn) db).store

def IsSent (db : Store) (row : NotificationRow) : Prop :=
  ∃ stored ∈ db.notifications, stored.id = row.id ∧ stored.status = .sent

variable {executions : List Execution}

omit [PythonRuntime] [PersistenceRuntime] in
theorem Marked.isSent {served : List NotificationRow} {db' : Store}
    (h : Marked served db db') (hserved : ∀ row ∈ served, row.status = .pending)
    (hsent : IsSent db row) : IsSent db' row := by
  obtain ⟨stored, hstored, hid, hstatus⟩ := hsent
  refine ⟨stored, h.mem_of_not_served hstored fun hmem => ?_, hid, hstatus⟩
  rw [hserved stored hmem] at hstatus
  cases hstatus

theorem pending_of_mem_reached {width : Nat}
    (h : row ∈ servable (verdict db) (reached (verdict db) width (queue db))) :
    row.status = .pending :=
  (mem_queue.mp ((List.take_sublist _ _).mem ((List.takeWhile_sublist _).mem
    ((mem_servable _).mp h).1))).2

theorem storeAfter_spec (hsend : ∀ execution ∈ executions, SendsSucceed execution.answers)
    (hkey : (db.notifications.map (·.id)).Nodup) :
    ((storeAfter dispatch executions db).notifications.map (·.id)).Nodup ∧
      queue (storeAfter dispatch executions db) =
        passes (verdict db) dispatch.batchSize executions.length (queue db) ∧
      (∀ row, IsSent db row → IsSent (storeAfter dispatch executions db) row) ∧
      ∀ row ∈ queue db, row ∈ queue (storeAfter dispatch executions db) ∨
        IsSent (storeAfter dispatch executions db) row := by
  induction executions generalizing db with
  | nil => exact ⟨hkey, rfl, fun _ h => h, fun _ hrow => .inl hrow⟩
  | cons execution rest ih =>
      obtain ⟨hfirst, hrest⟩ := List.forall_mem_cons.mp hsend
      have hmarked := @marked_run _ _ dispatch db execution.answers
        (.start execution.txn) hfirst hkey rfl
      have hqueue := @queue_run _ _ dispatch db execution.answers
        (.start execution.txn) hfirst hkey rfl
      rw [storeAfter]
      generalize (dispatch.run.eval execution.answers (.start execution.txn)
        db).store = db' at *
      obtain ⟨hkey', hqueue', hsent, hleft⟩ := ih hrest (hmarked.map_id ▸ hkey)
      refine ⟨hkey', ?_, fun row hrow => hsent row
        (hmarked.isSent (fun _ => pending_of_mem_reached) hrow), fun row hrow => ?_⟩
      · rw [hqueue', hqueue, hmarked.verdict_eq]
        rfl
      · by_cases hserved : row ∈ servable (verdict db)
          (reached (verdict db) dispatch.batchSize (queue db))
        · obtain ⟨mark, hmark, hrows⟩ := hmarked.rows
          have hmem := (mem_queue.mp hrow).1
          obtain ⟨hid, hstatus⟩ := (hrows row hmem).1 hserved
          exact .inr (hsent row
            ⟨mark row, hmark ▸ List.mem_map_of_mem hmem, hid, hstatus⟩)
        · refine hleft row ?_
          rw [hmarked.queue_eq]
          exact List.mem_filter.mpr ⟨hrow, by simpa using hserved⟩

theorem isSent_storeAfter_iff
    (hsend : ∀ execution ∈ executions, SendsSucceed execution.answers)
    (hkey : (db.notifications.map (·.id)).Nodup) (hrow : row ∈ queue db) :
    IsSent (storeAfter dispatch executions db) row ↔
      row ∉ passes (verdict db) dispatch.batchSize executions.length (queue db) := by
  obtain ⟨hkey', hqueue, -, hleft⟩ :=
    @storeAfter_spec _ _ dispatch db executions hsend hkey
  rw [← hqueue]
  refine ⟨?_, fun hnot => (hleft row hrow).resolve_left hnot⟩
  rintro ⟨stored, hstored, hid, hsent⟩ hmem
  obtain ⟨hmem, hpending⟩ := mem_queue.mp hmem
  rw [List.inj_on_of_nodup_map hkey' hstored hmem hid, hpending] at hsent
  cases hsent

/--
No undeliverable row stands in the way of the others: the deliverable rows can
be read, and divided into one batch for each run, so that a batch fits into a
run together with all the undeliverable rows that are older than its youngest.
-/
structure Unblocked (dispatch : DispatchNotifications) (db : Store) : Prop where
  readable : ∀ row ∈ queue db, Deliverable db row → verdict db row ≠ .halted
  divides : ∃ batches,
    batches.length = (queue db).length ⌈/⌉ dispatch.batchSize ∧
      Division (verdict db) dispatch.batchSize (queue db) batches

/--
As many runs as there are batches of pending notifications send everything that
is deliverable just if the deliverable rows divide into that many batches.
-/
theorem deliverable_notifications_are_sent_iff (dispatch : DispatchNotifications)
    (db : Store) (hkey : (db.notifications.map (·.id)).Nodup)
    (executions : List Execution)
    (hcount : executions.length = (queue db).length ⌈/⌉ dispatch.batchSize)
    (hsend : ∀ execution ∈ executions, SendsSucceed execution.answers) :
    (∀ row ∈ queue db, Deliverable db row →
      IsSent (storeAfter dispatch executions db) row) ↔ Unblocked dispatch db := by
  have hnodup := nodup_queue hkey
  have hiff := servable_passes_eq_nil_iff (verdict db) dispatch.batchSize
    hnodup executions.length
  rw [hcount] at hiff
  constructor
  · intro h
    refine ⟨fun row hrow hdeliverable hhalted => ?_, hiff.mp ?_⟩
    · -- a row that cannot be read stays in the queue
      refine (isSent_storeAfter_iff hsend hkey hrow).mp (h row hrow hdeliverable) ?_
      exact mem_passes_of_ne_served hnodup hrow (by simp [hhalted]) _
    · refine List.eq_nil_iff_forall_not_mem.mpr fun row hrow => ?_
      obtain ⟨hleft, hserved⟩ := (mem_servable _).mp hrow
      rw [← hcount] at hleft
      have hmem : row ∈ queue db := mem_of_mem_passes hleft
      have hdeliverable := (verdict_eq_served_iff (by simp [hserved])).mp hserved
      exact (isSent_storeAfter_iff hsend hkey hmem).mp (h row hmem hdeliverable) hleft
  · intro h row hrow hdeliverable
    have hserved := (verdict_eq_served_iff (h.readable row hrow hdeliverable)).mpr
      hdeliverable
    refine (isSent_storeAfter_iff hsend hkey hrow).mpr fun hleft => ?_
    rw [hcount] at hleft
    have hmem := (mem_servable (verdict db)).mpr ⟨hleft, hserved⟩
    rw [hiff.mpr h.divides] at hmem
    exact absurd hmem (List.not_mem_nil)

omit [PythonRuntime] [PersistenceRuntime] in
theorem sendsSucceed_calmAnswers : SendsSucceed calmAnswers :=
  ⟨fun _ _ => rfl, fun _ _ => rfl, fun _ _ _ _ => rfl⟩

end Verdicts

/-! ## A muted channel -/

/-- The older of two notifications is on a channel that was disabled since. -/
def mutedStore : Store :=
  { matchedStore with
    channels := [⟨.given 8, .given 0, .telegram, "muted", false⟩,
      ⟨.given 9, .given 0, .telegram, "target", true⟩]
    notifications := [⟨.given 6, .given 5, .given 8, .pending, 0, none, 0, none⟩,
      ⟨.given 7, .given 5, .given 9, .pending, 0, none, 1, none⟩] }

def oneByOne : DispatchNotifications := ⟨5, 1⟩

def twoRuns : List Execution := [⟨0, calmAnswers⟩, ⟨1, calmAnswers⟩]

theorem sendsSucceed_twoRuns : ∀ execution ∈ twoRuns, SendsSucceed execution.answers := by
  simp [twoRuns, sendsSucceed_calmAnswers]

theorem deliverable_notifications_are_sent_iff_muted :
    (∀ row ∈ queue mutedStore, Deliverable mutedStore row →
      IsSent (@storeAfter .plain .plain oneByOne twoRuns mutedStore) row) ↔
      @Unblocked .plain .plain oneByOne mutedStore :=
  @deliverable_notifications_are_sent_iff .plain .plain oneByOne mutedStore (by decide)
    twoRuns (by decide) sendsSucceed_twoRuns

/-- Two runs that look at one row each never come to the second notification. -/
theorem muted_channel_blocks_the_other :
    ¬ ∀ (dispatch : DispatchNotifications) (db : Store)
      (executions : List Execution), 1 ≤ dispatch.batchSize →
      (db.notifications.map (·.id)).Nodup →
      executions.length = (queue db).length ⌈/⌉ dispatch.batchSize →
      (∀ execution ∈ executions, SendsSucceed execution.answers) →
      ∀ row ∈ queue db, Deliverable db row →
        IsSent (@storeAfter .plain .plain dispatch executions db) row := by
  intro hall
  have hsent := hall oneByOne mutedStore twoRuns (by decide) (by decide) (by decide)
    sendsSucceed_twoRuns ⟨.given 7, .given 5, .given 9, .pending, 0, none, 1, none⟩
    (by decide) ⟨⟨_, rfl, rfl⟩, _, rfl, _, .head _, rfl⟩
  obtain ⟨stored, hstored, hid, hstatus⟩ := hsent
  have hrows : (@storeAfter .plain .plain oneByOne twoRuns mutedStore).notifications =
      mutedStore.notifications := rfl
  rw [hrows] at hstored
  revert hid hstatus
  revert stored
  decide

end RealEstateTracker.Notifications
