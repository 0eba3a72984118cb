import RealEstateTracker.Notifications.Outbox

/-!
# Dispatchers that run at the same time

A dispatcher sends what it listed without another look at the status, and marks
it afterwards.  Two dispatchers that list the same row both send it.  Nothing is
sent twice when each row is still pending at the moment it is sent, and nobody
else has sent it without having committed the mark.
-/

namespace RealEstateTracker.Notifications

open Foundation Domain Persistence NotificationRepository

abbrev DispatchSys :=
  Sys Store Write DispatchCall DispatchAnswer PyError DispatchReport

/-! ## The status of a row -/

def statusOf (id : NotificationId) (db : Store) : Option NotificationStatus :=
  (load id db).map (·.status)

def SettledIn (db : Store) (id : NotificationId) : Prop :=
  ∃ status, statusOf id db = some status ∧ status ≠ .pending

def IsMark : Write → Prop
  | .updateNotification loaded model =>
      model.status = loaded.status ∨ model.status ≠ .pending
  | _ => False

/-- The mark was made from what the row was in `db`. -/
def MarkOver (db : Store) : Write → Prop
  | .updateNotification loaded model =>
      load model.id db = some loaded ∧
        (model.status = loaded.status ∨ model.status ≠ .pending)
  | _ => False

def Settles (id : NotificationId) : Write → Prop
  | .updateNotification _ model => model.id = id ∧ model.status ≠ .pending
  | _ => False

theorem statusOf_update (id : NotificationId) (loaded model : NotificationRow)
    (db : Store) :
    statusOf id ((Write.updateNotification loaded model).apply db) =
      if id = model.id then
        (statusOf id db).map (column loaded.status model.status)
      else statusOf id db := by
  simp only [statusOf, load, Write.apply, updateWhere, List.find?_map]
  have hcomp : ((fun row : NotificationRow => decide (row.id = id)) ∘
      fun row => if decide (row.id = model.id) = true then
        NotificationRow.update loaded model row else row) =
      fun row => decide (row.id = id) := by
    funext row
    simp only [Function.comp]
    split <;> rfl
  rw [hcomp]
  cases hfind : db.notifications.find? (·.id = id) with
  | none => simp
  | some row =>
      have hid : row.id = id := by simpa using List.find?_some hfind
      by_cases heq : id = model.id <;> simp [heq, hid, NotificationRow.update]

section Marks

variable {db db' : Store} {id : NotificationId} {write : Write}
  {writes : List Write}

theorem isMark_of_markOver (h : MarkOver db write) : IsMark write := by
  cases write <;> first | exact h.2 | exact h.elim

theorem isSome_statusOf_apply (h : IsMark write) :
    (statusOf id (write.apply db)).isSome = (statusOf id db).isSome := by
  cases write with
  | updateNotification loaded model =>
      rw [statusOf_update]
      split <;> simp
  | _ => exact h.elim

theorem settledIn_apply (h : IsMark write) (hsettled : SettledIn db id) :
    SettledIn (write.apply db) id := by
  obtain ⟨status, hstatus, hne⟩ := hsettled
  cases write with
  | updateNotification loaded model =>
      unfold SettledIn
      rw [statusOf_update]
      split
      · refine ⟨column loaded.status model.status status, by simp [hstatus], ?_⟩
        unfold column
        split
        · exact hne
        · next hloaded => exact h.resolve_left fun heq => hloaded heq.symm
      · exact ⟨status, hstatus, hne⟩
  | _ => exact h.elim

theorem isSome_statusOf_applyAll (h : ∀ write ∈ writes, IsMark write) :
    (statusOf id (applyAll writes db)).isSome = (statusOf id db).isSome := by
  induction writes generalizing db with
  | nil => rfl
  | cons write writes ih =>
      obtain ⟨hwrite, hwrites⟩ := List.forall_mem_cons.mp h
      rw [applyAll_cons, ih hwrites, apply_eq, isSome_statusOf_apply hwrite]

theorem settledIn_applyAll (h : ∀ write ∈ writes, IsMark write)
    (hsettled : SettledIn db id) : SettledIn (applyAll writes db) id := by
  induction writes generalizing db with
  | nil => exact hsettled
  | cons write writes ih =>
      obtain ⟨hwrite, hwrites⟩ := List.forall_mem_cons.mp h
      exact ih hwrites (settledIn_apply hwrite hsettled)

theorem settledIn_apply_mono (h : IsMark write)
    (hsome : (statusOf id db').isSome = (statusOf id db).isSome)
    (hlater : SettledIn db id → SettledIn db' id)
    (hsettled : SettledIn (write.apply db) id) : SettledIn (write.apply db') id := by
  cases write with
  | updateNotification loaded model =>
      by_cases hchanges : id = model.id ∧ loaded.status ≠ model.status
      · obtain ⟨hid, hne⟩ := hchanges
        obtain ⟨status, hstatus, -⟩ := hsettled
        rw [statusOf_update, if_pos hid] at hstatus
        obtain ⟨before, hbefore, -⟩ := Option.map_eq_some_iff.mp hstatus
        obtain ⟨after, hafter⟩ := Option.isSome_iff_exists.mp
          (hsome.trans (by rw [hbefore]; rfl))
        refine ⟨model.status, ?_, h.resolve_left hne.symm⟩
        rw [statusOf_update, if_pos hid, hafter, Option.map_some, column,
          if_neg hne]
      · refine settledIn_apply h (hlater ?_)
        obtain ⟨status, hstatus, hne⟩ := hsettled
        refine ⟨status, ?_, hne⟩
        rw [statusOf_update] at hstatus
        split at hstatus
        · next hid =>
          have hsame : column loaded.status model.status = fun stored => stored := by
            funext stored
            exact if_pos (not_not.mp fun hne => hchanges ⟨hid, hne⟩)
          simpa [hsame] using hstatus
        · exact hstatus
  | _ => exact h.elim

theorem settledIn_applyAll_mono (h : ∀ write ∈ writes, IsMark write)
    (hsome : (statusOf id db').isSome = (statusOf id db).isSome)
    (hlater : SettledIn db id → SettledIn db' id)
    (hsettled : SettledIn (applyAll writes db) id) :
    SettledIn (applyAll writes db') id := by
  induction writes generalizing db db' with
  | nil => exact hlater hsettled
  | cons write writes ih =>
      obtain ⟨hwrite, hwrites⟩ := List.forall_mem_cons.mp h
      refine ih hwrites ?_ (settledIn_apply_mono hwrite hsome hlater) hsettled
      exact (isSome_statusOf_apply hwrite).trans
        (hsome.trans (isSome_statusOf_apply hwrite).symm)

theorem settledIn_applyAll_of_mem (h : ∀ write ∈ writes, MarkOver db write)
    (hmem : write ∈ writes) (hsettles : Settles id write) :
    SettledIn (applyAll writes db) id := by
  obtain ⟨before, after, rfl⟩ := List.append_of_mem hmem
  obtain ⟨hbefore, hrest⟩ := List.forall_mem_append.mp fun mark hmark =>
    isMark_of_markOver (h mark hmark)
  obtain ⟨hwrite, hafter⟩ := List.forall_mem_cons.mp hrest
  rw [applyAll_append, applyAll_cons]
  refine settledIn_applyAll hafter ?_
  cases write with
  | updateNotification loaded model =>
      obtain ⟨rfl, hne⟩ := hsettles
      obtain ⟨hload, -⟩ := h _ hmem
      have hstatus : statusOf model.id db = some loaded.status := by
        rw [statusOf, hload]
        rfl
      by_cases hpending : loaded.status = .pending
      · obtain ⟨status, hbefore⟩ := Option.isSome_iff_exists.mp
          ((isSome_statusOf_applyAll hbefore).trans (by rw [hstatus]; rfl))
        refine ⟨model.status, ?_, hne⟩
        rw [apply_eq, statusOf_update, if_pos rfl, hbefore, Option.map_some, column,
          if_neg (hpending.trans_ne hne.symm)]
      · exact settledIn_apply hwrite (settledIn_applyAll hbefore
          ⟨loaded.status, hstatus, hpending⟩)
  | _ => exact hsettles.elim

theorem id_of_load {row : NotificationRow} (h : load id db = some row) :
    row.id = id := by
  simpa using List.find?_some h

theorem markOver_changeWrites {change : NotificationRow → NotificationRow}
    (hid : ∀ row, (change row).id = row.id)
    (hstatus : ∀ row, (change row).status = row.status ∨
      (change row).status ≠ .pending) :
    ∀ write ∈ changeWrites change id db, MarkOver db write := by
  unfold changeWrites
  cases hload : load id db with
  | none => simp
  | some row =>
      simp only [List.mem_singleton, forall_eq]
      exact ⟨by rw [hid, id_of_load hload, hload], hstatus row⟩

theorem markOver_markFailedWrites (error : String) (maxAttempts : Nat) :
    ∀ write ∈ markFailedWrites id error maxAttempts db, MarkOver db write := by
  refine markOver_changeWrites (fun _ => rfl) fun row => ?_
  simp only [attempted]
  split
  · exact .inr (by decide)
  · exact .inl rfl

theorem markOver_markSentWrites (now : DateTime) :
    ∀ write ∈ markSentWrites id now db, MarkOver db write :=
  markOver_changeWrites (fun _ => rfl) fun _ => .inr nofun

theorem exists_settles_markSentWrites (now : DateTime)
    (h : (statusOf id db).isSome) :
    ∃ write ∈ markSentWrites id now db, Settles id write := by
  unfold markSentWrites changeWrites
  cases hload : load id db with
  | none => simp [statusOf, hload] at h
  | some row =>
      have hid : row.id = id := id_of_load hload
      exact ⟨_, .head _, hid, nofun⟩

end Marks

/-! ## What a dispatcher guarantees -/

def SameRows (initial db : Store) : Prop :=
  ∀ id, (statusOf id db).isSome = (statusOf id initial).isSome

structure ReadyToMark (s : DispatchSession) : Prop where
  marks : ∀ write ∈ s.pending, IsMark write
  settles : ∀ id, (id, true) ∈ attempts s.calls →
    ∃ write ∈ s.pending, Settles id write

def Idle (s : DispatchSession) : Prop := s.pending = [] ∧ s.calls = []

theorem Idle.readyToMark {s : DispatchSession} (h : Idle s) : ReadyToMark s :=
  ⟨by simp [h.1], by simp [h.2, attempts]⟩

section Workers

variable [PythonRuntime] [PersistenceRuntime] {dispatch : DispatchNotifications}
  {initial : Store} {s : DispatchSession}

abbrev dispatchRely (initial : Store) : Rely Store DispatchCall DispatchAnswer :=
  ⟨fun db _ _ => SameRows initial db, fun _ _ => True, True⟩

theorem wp_prepare {notification : NotificationRow} (h : Idle s) :
    Txn.wp (dispatchRely initial) ReadyToMark
      (DispatchNotifications.prepare notification) (Txn.onOk fun _ s => Idle s) s := by
  refine Txn.wp_mono _ ?_ (Txn.wp_of_within (fun s db writes hwrites h => ?_)
    (fun _ _ _ hcall _ => hcall.elim)
    (fun s h => ⟨Idle.readyToMark h, ⟨rfl, rfl⟩, rfl, rfl⟩)
    (within_prepare notification) h)
  · rintro (error | prepared) s h
    · trivial
    · exact h
  · have hempty : writes = [] := List.eq_nil_iff_forall_not_mem.mpr hwrites
    simpa [Idle, hempty] using h

omit [PythonRuntime] [PersistenceRuntime] in
theorem wp_sendAndMark {id : NotificationId}
    (hrow : (statusOf id initial).isSome) (channel : NotificationChannel)
    (message : NotificationMessage) (h : Idle s) :
    Txn.wp (dispatchRely initial) ReadyToMark
      (dispatch.sendAndMark id channel message)
      (Txn.onOk fun _ s => ReadyToMark s) s := by
  obtain ⟨hpending, hcalls⟩ := h
  have hview : ∀ db : Store, s.view db = db := by simp [Session.view, hpending]
  rintro (error | _) -
  · trivial
  rintro (error | _) -
  · trivial
  rintro now -
  rintro (error | _) -
  · cases error with
    | notifierError error =>
        intro db _
        refine ⟨?_, fun id' hid' => ?_⟩
        · simp only [Session.pending_wrote, Session.pending_answered, hpending,
            Session.view_answered, hview, List.nil_append]
          exact fun write hwrite =>
            isMark_of_markOver (markOver_markFailedWrites _ _ write hwrite)
        · simp only [Session.calls_wrote, Session.calls_answered, hcalls,
            attempts_append] at hid'
          cases hid' with
          | tail _ h => cases h
    | _ => trivial
  · intro db hdb
    simp only [Session.view_answered, hview]
    refine ⟨?_, fun id' hid' => ?_⟩
    · simp only [Session.pending_wrote, Session.pending_answered, hpending,
        List.nil_append]
      exact fun write hwrite =>
        isMark_of_markOver (markOver_markSentWrites _ write hwrite)
    · simp only [Session.calls_wrote, Session.calls_answered, hcalls,
        attempts_append] at hid'
      cases hid' with
      | head =>
          simp only [Session.pending_wrote, Session.pending_answered, hpending,
            List.nil_append]
          exact exists_settles_markSentWrites now ((hdb id).trans hrow)
      | tail _ h => cases h

theorem wp_deliverOne {notification : NotificationRow}
    (hrow : (statusOf notification.id initial).isSome) (counts : Nat × Nat)
    (h : Idle s) :
    Txn.wp (dispatchRely initial) ReadyToMark
      (dispatch.deliverOne counts notification) (Txn.onOk fun _ s => Idle s) s := by
  refine Txn.wp_ends_bind (P := fun _ s => ReadyToMark s) ?_
    fun delivered s hready => ⟨hready, ⟨rfl, rfl⟩, fun _ => trivial⟩
  refine Txn.wp_ends_bind (wp_prepare h) fun prepared s h => ?_
  cases prepared with
  | none => exact h.readyToMark
  | some prepared => exact wp_sendAndMark hrow _ _ h

omit [PythonRuntime] [PersistenceRuntime] in
theorem isSome_statusOf_of_mem {row : NotificationRow} {db : Store}
    (h : row ∈ db.notifications) : (statusOf row.id db).isSome := by
  simp only [statusOf, load, Option.isSome_map, List.find?_isSome]
  exact ⟨row, h, by simp⟩

theorem wp_run (dispatch : DispatchNotifications) (i : Nat) :
    Txn.wp (dispatchRely initial) ReadyToMark dispatch.run
      (Txn.onOk fun _ _ => True) (.start i) := by
  intro db hdb
  change Txn.wp _ _ ((Txn.foldEach _ _ _).bind _) _ _
  refine Txn.wp_ends_bind (P := fun _ _ => True) ?_ fun _ _ _ => trivial
  refine Txn.wp_ends_foldEach (fun _ _ s => Idle s) ?_ (fun _ _ _ => trivial)
    ⟨rfl, rfl⟩
  intro before row after counts s hrows h
  have hmem : row ∈ listPending dispatch.batchSize db := by
    have hview : ((Session.start i : DispatchSession).view db) = db := rfl
    rw [hview] at hrows
    simp [hrows]
  refine wp_deliverOne ?_ counts h
  rw [← hdb]
  exact isSome_statusOf_of_mem (mem_listPending hmem).1

omit [PythonRuntime] [PersistenceRuntime] in
theorem within_sendAndMark (id : NotificationId) (channel : NotificationChannel)
    (message : NotificationMessage) :
    (dispatch.sendAndMark id channel message).Within MarkOver fun _ => True := by
  refine Txn.within_bind ⟨trivial, fun _ => by simp⟩ fun _ =>
    Txn.within_bind ⟨trivial, fun _ => by simp⟩ fun _ =>
      Txn.within_bind ⟨trivial, fun _ => trivial⟩ fun now =>
        Txn.within_bind ⟨trivial, fun _ => trivial⟩ fun outcome => ?_
  cases outcome with
  | ok =>
      exact Txn.within_bind (Txn.within_exec fun _ _ => markOver_markSentWrites now)
        fun _ => trivial
  | error error =>
      cases error with
      | notifierError error =>
          exact Txn.within_bind (Txn.within_exec fun _ _ =>
            markOver_markFailedWrites error dispatch.maxAttempts) fun _ => trivial
      | _ => trivial

theorem within_run (dispatch : DispatchNotifications) :
    dispatch.run.Within MarkOver fun _ => True := by
  refine Txn.within_bind (by simp) fun pending => Txn.within_bind
    (Txn.within_foldEach fun counts notification _ => ?_) fun _ => trivial
  refine Txn.within_bind ?_ fun _ =>
    Txn.within_bind (Txn.within_commitOr _) fun _ => trivial
  refine Txn.within_bind ((within_prepare notification).mono
    (fun _ _ => False.elim) fun _ _ => trivial) fun prepared => ?_
  cases prepared with
  | none => trivial
  | some prepared => exact within_sendAndMark _ _ _

end Workers

/-! ## Sends that are current -/

def nextSend {α : Type} : DispatchTxn α → Option NotificationId
  | .call (.send id _ _) _ => some id
  | _ => none

/--
The row that worker `i` is about to send, if any, is pending in the database, and
nobody has sent it without having committed the mark.
-/
def SendIsCurrent (sys : DispatchSys) (i : Nat) : Prop :=
  ∀ id ∈ nextSend (sys.workers i).code,
    statusOf id sys.store = some .pending ∧
      ∀ j, (id, true) ∉ attempts (sys.workers j).session.calls

def successes (id : NotificationId) (sys : DispatchSys) : Nat :=
  (attempts (sys.log.map (·.2))).count (id, true)

structure SentOnce (sys : DispatchSys) : Prop where
  once : ∀ id, successes id sys ≤ 1
  /-- What was sent is settled, or its mark is yet to be committed. -/
  marked : ∀ id, successes id sys ≠ 0 → SettledIn sys.store id ∨
    ∃ j, (id, true) ∈ attempts (sys.workers j).session.calls
  pendingMarks : ∀ j, ∀ write ∈ (sys.workers j).session.pending, IsMark write
  settling : ∀ j, ∀ write ∈ (sys.workers j).session.pending, ∀ id,
    Settles id write → SettledIn ((sys.workers j).session.view sys.store) id

abbrev DispatchWorker :=
  Worker Store Write DispatchCall DispatchAnswer PyError DispatchReport

def HasOnlyMarks (worker : DispatchWorker) : Prop :=
  ∀ write ∈ worker.session.pending, IsMark write

/-- Whoever has a mark pending sees its row settled. -/
def SeesItsMarks (db : Store) (worker : DispatchWorker) : Prop :=
  ∀ write ∈ worker.session.pending, ∀ id,
    Settles id write → SettledIn (worker.session.view db) id

section Runs

variable {initial : Store} {oracle : Oracle DispatchCall DispatchAnswer}
  {sys : DispatchSys} {i : Nat}

theorem stable_sameRows (initial : Store) :
    Sys.Stable (C := DispatchCall) (R := DispatchAnswer)
      (fun db _ _ => SameRows initial db) ReadyToMark where
  own _ _ h hready _ id := (isSome_statusOf_applyAll hready.marks).trans (h id)
  refused _ _ h _ := h
  other _ _ _ _ _ h hready _ _ id :=
    (isSome_statusOf_applyAll hready.marks).trans (h id)

theorem admits_of_marks {writes : List Write} (h : ∀ write ∈ writes, IsMark write)
    (db : Store) : Database.admits db writes = true := by
  rw [admits_eq]
  induction writes generalizing db with
  | nil => rfl
  | cons write writes ih =>
      obtain ⟨hwrite, hwrites⟩ := List.forall_mem_cons.mp h
      rw [admitsAll, ih hwrites, Bool.and_true]
      cases write <;> first | rfl | exact hwrite.elim

theorem SentOnce.step_stmt (h : SentOnce sys)
    {writes : Stamp → Store → List Write}
    {next : Stamp → Store → DispatchTxn DispatchReport}
    (hwrites : ∀ stamp db, ∀ write ∈ writes stamp db, MarkOver db write) :
    SentOnce (sys.setWorker i
      ⟨next (sys.workers i).session.stamp
          ((sys.workers i).session.view sys.store),
        (sys.workers i).session.wrote
          (writes (sys.workers i).session.stamp
            ((sys.workers i).session.view sys.store))⟩) := by
  have hnew := hwrites (sys.workers i).session.stamp
    ((sys.workers i).session.view sys.store)
  have hmarks := fun write hwrite => isMark_of_markOver (hnew write hwrite)
  refine ⟨h.once, fun id hid => ?_,
    Sys.forall_setWorker (P := HasOnlyMarks) ?_ h.pendingMarks,
    Sys.forall_setWorker (P := SeesItsMarks sys.store) ?_ h.settling⟩
  · refine (h.marked id hid).imp_right fun ⟨j, hj⟩ => ⟨j, ?_⟩
    by_cases hij : j = i
    · subst hij
      simpa using hj
    · rwa [Sys.workers_setWorker_of_ne _ _ hij]
  · exact List.forall_mem_append.mpr ⟨h.pendingMarks i, hmarks⟩
  · rw [SeesItsMarks, Session.pending_wrote, Session.view_wrote]
    refine List.forall_mem_append.mpr ⟨fun write hwrite id hsettles => ?_,
      fun write hwrite id hsettles => ?_⟩
    · exact settledIn_applyAll hmarks (h.settling i write hwrite id hsettles)
    · exact settledIn_applyAll_of_mem hnew hwrite hsettles

theorem SentOnce.step_accepted (h : SentOnce sys)
    {next : Bool → DispatchTxn DispatchReport}
    (hready : ReadyToMark (sys.workers i).session) :
    SentOnce { sys.setWorker i ⟨next true, (sys.workers i).session.committed⟩ with
      store := applyAll (sys.workers i).session.pending sys.store } := by
  refine ⟨h.once, fun id hid => ?_,
    Sys.forall_setWorker (P := HasOnlyMarks) ?_ h.pendingMarks,
    Sys.forall_setWorker
      (P := SeesItsMarks (applyAll (sys.workers i).session.pending sys.store)) ?_
      fun j => ?_⟩
  · rcases h.marked id hid with hsettled | ⟨j, hj⟩
    · exact .inl (settledIn_applyAll hready.marks hsettled)
    · by_cases hij : j = i
      · -- the mark goes into the database with this commit
        subst hij
        obtain ⟨write, hwrite, hsettles⟩ := hready.settles id hj
        exact .inl (h.settling j write hwrite id hsettles)
      · refine .inr ⟨j, ?_⟩
        rwa [show (_ : DispatchSys).workers j = sys.workers j from
          Sys.workers_setWorker_of_ne _ _ hij]
  · simp [HasOnlyMarks]
  · simp [SeesItsMarks]
  · intro write hwrite id hsettles
    exact settledIn_applyAll_mono (h.pendingMarks j)
      (isSome_statusOf_applyAll hready.marks)
      (settledIn_applyAll hready.marks) (h.settling j write hwrite id hsettles)

theorem nextSend_of_attempt {α : Type} {request : DispatchCall}
    {answer : DispatchAnswer request} {next : DispatchAnswer request → DispatchTxn α}
    {id : NotificationId} (h : (id, true) ∈ attempts [⟨request, answer⟩]) :
    nextSend (.call request next) = some id := by
  cases request with
  | send id' target message =>
      cases answer with
      | ok =>
          obtain ⟨rfl, -⟩ := Prod.mk.inj (List.mem_singleton.mp h)
          rfl
      | error error => cases error <;> simp [attempts, attemptOf] at h
  | _ => simp [attempts, attemptOf] at h

theorem SentOnce.step_call (h : SentOnce sys) {request : DispatchCall}
    {answer : DispatchAnswer request}
    {next : DispatchAnswer request → DispatchTxn DispatchReport}
    (hcode : (sys.workers i).code = .call request next)
    (hcurrent : SendIsCurrent sys i) :
    SentOnce { sys.setWorker i
        ⟨next answer, (sys.workers i).session.answered request answer⟩ with
      log := sys.log ++ [(i, ⟨request, answer⟩)] } := by
  have hnever : ∀ id, (id, true) ∈ attempts [⟨request, answer⟩] →
      successes id sys = 0 := by
    intro id hid
    obtain ⟨hpending, hnobody⟩ := hcurrent id (hcode ▸ nextSend_of_attempt hid)
    by_contra hsent
    rcases h.marked id hsent with ⟨status, hstatus, hne⟩ | ⟨j, hj⟩
    · exact hne (Option.some.inj (hstatus.symm.trans hpending))
    · exact hnobody j hj
  have hsuccesses : ∀ id, successes id { sys.setWorker i
        ⟨next answer, (sys.workers i).session.answered request answer⟩ with
      log := sys.log ++ [(i, ⟨request, answer⟩)] } =
        successes id sys + (attempts [⟨request, answer⟩]).count (id, true) := by
    intro id
    simp [successes, List.count_append]
  refine ⟨fun id => ?_, fun id hid => ?_,
    Sys.forall_setWorker (P := HasOnlyMarks) ?_ h.pendingMarks,
    Sys.forall_setWorker (P := SeesItsMarks sys.store) ?_ h.settling⟩
  · rw [hsuccesses]
    by_cases hid : (id, true) ∈ attempts [⟨request, answer⟩]
    · rw [hnever id hid, Nat.zero_add]
      refine (List.count_le_length).trans ?_
      exact List.length_filterMap_le _ _
    · rw [List.count_eq_zero_of_not_mem hid]
      exact h.once id
  · rw [hsuccesses] at hid
    by_cases hnew : (id, true) ∈ attempts [⟨request, answer⟩]
    · exact .inr ⟨i, by simp [hnew]⟩
    · rw [List.count_eq_zero_of_not_mem hnew] at hid
      refine (h.marked id hid).imp_right fun ⟨j, hj⟩ => ⟨j, ?_⟩
      by_cases hij : j = i
      · subst hij
        simp [hj]
      · simpa [Sys.setWorker, Function.update_of_ne hij] using hj
  · simpa [HasOnlyMarks] using h.pendingMarks i
  · simpa [SeesItsMarks] using h.settling i

theorem sentOnce_step
    (hready : ∀ next, (sys.workers i).code = .commit next →
      ReadyToMark (sys.workers i).session)
    (hwithin : (sys.workers i).code.Within MarkOver fun _ => True)
    (hcurrent : SendIsCurrent sys i) (h : SentOnce sys) :
    SentOnce (sys.step oracle i) := by
  generalize hstep : sys.step oracle i = sys'
  cases Sys.stepped hstep with
  | returned => exact h
  | raised => exact h
  | stmt writes next hcode =>
      rw [hcode] at hwithin
      exact h.step_stmt hwithin.1
  | call request next hcode => exact h.step_call hcode hcurrent
  | accepted next hcode => exact h.step_accepted (hready next hcode)
  | refused next hcode hadmits =>
      rw [admits_of_marks (hready next hcode).marks] at hadmits
      cases hadmits

variable [PythonRuntime] [PersistenceRuntime]

/--
When each row is still pending at the moment it is sent, and nobody has sent it
without having committed the mark, no notification is ever sent twice.
-/
theorem sends_at_most_once (dispatchers : Nat → DispatchNotifications) (db : Store)
    (oracle : Oracle DispatchCall DispatchAnswer) (schedule : List Nat)
    (hcurrent : ∀ before i after, schedule = before ++ i :: after →
      SendIsCurrent ((Sys.start db fun i => (dispatchers i).run).run oracle before)
        i) (id : NotificationId) :
    successes id ((Sys.start db fun i => (dispatchers i).run).run oracle
      schedule) ≤ 1 := by
  refine SentOnce.once ?_ id
  induction schedule using List.reverseRecOn with
  | nil =>
      refine ⟨?_, ?_, ?_, ?_⟩ <;>
        simp [successes, Sys.start, Session.start, attempts]
  | append_singleton schedule i ih =>
      rw [Sys.run_concat]
      have hbefore := ih fun before j after heq =>
        hcurrent before j (after ++ [i]) (by simp [heq])
      have hholds : ∀ i, Sys.Holds _ _ _
          (((Sys.start db fun i => (dispatchers i).run).run oracle schedule).workers i) :=
        (Sys.invariant_run (stable_sameRows db) (fun _ _ => rfl) (fun _ _ _ => trivial)
          (fun i => wp_run (dispatchers i) i) schedule).2
      exact sentOnce_step
        (fun next hcode => Sys.ready_of_holds (hholds i) hcode)
        (Sys.within_run oracle (within_run (dispatchers i)) schedule)
        (hcurrent schedule i [] rfl) hbefore

end Runs

/-! ## Two dispatchers that list the same row -/

def twoDispatchers : DispatchSys :=
  Sys.start queuedOutbox.store fun _ =>
    @DispatchNotifications.run .plain .plain dispatcher

/-- Both list the row before either has marked it, and both send it. -/
theorem two_dispatchers_send_twice :
    let sys := twoDispatchers.run (fun _ => calmAnswers)
      ((List.range 13).flatMap fun _ => [0, 1])
    sys.Finished 0 (.ok ⟨1, 1, 0⟩) ∧ sys.Finished 1 (.ok ⟨1, 1, 0⟩) ∧
      successes (.uuid4 0 0 0) sys = 2 :=
  ⟨rfl, rfl, rfl⟩

/-! ## Dispatchers that send each row once -/

/-- A second channel has a notification of the match, too. -/
def outboxOfTwo : Store :=
  ((enqueue (.given 5) (.given 10) 1).eval calmAnswers (.start 1)
    { queuedOutbox.store with
      channels := queuedOutbox.store.channels ++
        [⟨.given 10, .given 0, .telegram, "other target", true⟩] }).store

def nextDispatchers : DispatchSys :=
  Sys.start outboxOfTwo fun _ => @DispatchNotifications.run .plain .plain dispatcher

/-- The second dispatcher lists what is left after a delivery of the first one.  Both
prepare it, the second one sends it and the first one is stopped before it does; what the
third one finds is empty. -/
def oneAfterTheOther : List Nat :=
  List.replicate 12 0 ++ ((List.range 8).flatMap fun _ => [1, 0]) ++ List.replicate 4 1 ++ [2]

theorem sendIsCurrent_oneAfterTheOther {before after : List Nat} {i : Nat}
    (h : oneAfterTheOther = before ++ i :: after) :
    SendIsCurrent (nextDispatchers.run (fun _ => calmAnswers) before) i := by
  have hbefore : before = oneAfterTheOther.take before.length := by
    rw [h, List.take_left]
  have hi : oneAfterTheOther[before.length]? = some i := by simp [h]
  have hk : before.length < 33 := (List.getElem?_eq_some_iff.mp hi).1
  rw [hbefore]
  intro id hid
  generalize before.length = k at hid hi hk ⊢
  -- the tenth step of each of the first two dispatchers is a send
  interval_cases k <;> obtain rfl := Option.some.inj hi <;> cases hid
  · refine ⟨rfl, fun j => ?_⟩
    cases j with
    | zero => decide
    | succ j => exact List.not_mem_nil
  · refine ⟨rfl, fun j => ?_⟩
    rcases j with _ | _ | j
    · decide
    · decide
    · exact List.not_mem_nil

theorem sends_at_most_once_oneAfterTheOther :
    successes (.uuid4 1 0 0) (nextDispatchers.run (fun _ => calmAnswers)
      oneAfterTheOther) ≤ 1 :=
  @sends_at_most_once .plain .plain (fun _ => dispatcher) outboxOfTwo
    (fun _ => calmAnswers) oneAfterTheOther
    (fun _ _ _ h => sendIsCurrent_oneAfterTheOther h) _

/-- Both notifications were sent. -/
example : successes (.uuid4 0 0 0) (nextDispatchers.run (fun _ => calmAnswers)
      oneAfterTheOther) = 1 ∧
    successes (.uuid4 1 0 0) (nextDispatchers.run (fun _ => calmAnswers)
      oneAfterTheOther) = 1 :=
  ⟨rfl, rfl⟩

end RealEstateTracker.Notifications
