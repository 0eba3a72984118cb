import RealEstateTracker.Alerts.CreateAlert
import RealEstateTracker.Application.QueryGroups
import RealEstateTracker.Notifications.CreateChannel
import RealEstateTracker.Notifications.Outbox

/-!
# Matches reach only their owner

Queries, cached searches and properties are shared by all users, and a
notification names its owner only through its match and its alert.  No use case
changes whose an alert or a channel is, and a match is queued on channels of
the owner of its alert, so the owners at both ends of a notification agree.
-/

namespace RealEstateTracker.Notifications

open Foundation Domain Application Persistence Alerts RealEstateTracker.Cycle

/-! ## The invariant -/

/-- Whose the alerts are, and that their notifications are on channels of the same user. -/
structure OwnersAgree (owner : AlertId → UserId) (db : Store) : Prop where
  matchKey : (db.alertMatches.map (·.id)).Nodup
  channelKey : (db.channels.map (·.id)).Nodup
  alertOwner : ∀ row ∈ db.alerts, row.userId = owner row.id
  monitored : ∀ found ∈ db.alertMatches, ∃ row ∈ db.alerts, row.id = found.alertId
  notified : ∀ n ∈ db.notifications, ∃ found ∈ db.alertMatches,
    found.id = n.matchId ∧ ∃ channel ∈ db.channels, channel.id = n.channelId ∧
      channel.userId = owner found.alertId

/--
A write of a batch keeps the owners: those of alerts, and the two ends of a
notification, whose match is inserted by the same batch.
-/
def Rightful (owner : AlertId → UserId) (channels : List ChannelRow)
    (writes : List Write) : Write → Prop
  | .insertAlert row => row.userId = owner row.id
  | .updateAlert _ model => model.userId = owner model.id
  | .insertNotification row => ∃ found, Write.insertMatch found ∈ writes ∧
      found.id = row.matchId ∧ ∃ channel ∈ channels, channel.id = row.channelId ∧
        channel.userId = owner found.alertId
  | .updateNotification loaded model => delivery model = delivery loaded
  | _ => True

def Proper (owner : AlertId → UserId) (channels : List ChannelRow)
    (writes : List Write) : Prop :=
  ∀ write ∈ writes, Rightful owner channels writes write

section Batches

variable {owner : AlertId → UserId} {channels : List ChannelRow}
  {writes writes' : List Write} {write : Write} {db : Store}

theorem Rightful.mono (h : Rightful owner channels writes write)
    (hsub : writes ⊆ writes') : Rightful owner channels writes' write := by
  cases write with
  | insertNotification row =>
      obtain ⟨found, hfound, hrest⟩ := h
      exact ⟨found, hsub hfound, hrest⟩
  | _ => exact h

theorem Proper.nil : Proper owner channels [] :=
  fun _ h => absurd h List.not_mem_nil

theorem Proper.append (h : Proper owner channels writes)
    (h' : ∀ write ∈ writes', Rightful owner channels (writes ++ writes') write) :
    Proper owner channels (writes ++ writes') :=
  List.forall_mem_append.mpr ⟨fun write hwrite =>
    (h write hwrite).mono (List.subset_append_left _ _), h'⟩

theorem Proper.append_of_nil (h : Proper owner channels writes)
    (h' : ∀ write ∈ writes', Rightful owner channels [] write) :
    Proper owner channels (writes ++ writes') :=
  h.append fun write hwrite => (h' write hwrite).mono (List.nil_subset _)

theorem rightful_of_table (h : write.table ∉ [Table.alerts, .notifications]) :
    Rightful owner channels [] write := by
  cases write <;> first | trivial | simp [Write.table] at h

theorem matches_apply (hadmitted : write.admitted db = true)
    (h : (db.alertMatches.map (·.id)).Nodup ∧
      ∀ found ∈ db.alertMatches, ∃ row ∈ db.alerts, row.id = found.alertId) :
    ((write.apply db).alertMatches.map (·.id)).Nodup ∧
      ∀ found ∈ (write.apply db).alertMatches,
        ∃ row ∈ (write.apply db).alerts, row.id = found.alertId := by
  obtain ⟨hkey, hmonitored⟩ := h
  cases write with
  | insertAlert row =>
      exact ⟨hkey, fun found hfound =>
        let ⟨alert, halert, hid⟩ := hmonitored found hfound
        ⟨alert, List.mem_append_left _ halert, hid⟩⟩
  | updateAlert loaded model =>
      refine ⟨hkey, fun found hfound => ?_⟩
      obtain ⟨alert, halert, hid⟩ := hmonitored found hfound
      refine ⟨_, List.mem_map_of_mem halert, ?_⟩
      split <;> exact hid
  | insertMatch row =>
      simp only [Write.admitted, Bool.and_eq_true, Bool.not_eq_true',
        List.any_eq_false, List.any_eq_true, decide_eq_true_eq, not_or] at hadmitted
      obtain ⟨⟨hnew, halert⟩, -⟩ := hadmitted
      refine ⟨?_, fun found hfound => ?_⟩
      · exact nodup_map_concat hkey fun stored hmem => (hnew stored hmem).1
      · rcases List.mem_append.mp hfound with hfound | hfound
        · exact hmonitored found hfound
        · rw [List.mem_singleton.mp hfound]
          exact halert
  | _ => exact ⟨hkey, hmonitored⟩

theorem alertOwner_apply (hwrite : Rightful owner channels writes write)
    (h : ∀ row ∈ db.alerts, row.userId = owner row.id) :
    ∀ row ∈ (write.apply db).alerts, row.userId = owner row.id := by
  cases write with
  | insertAlert row =>
      exact List.forall_mem_append.mpr ⟨h, List.forall_mem_singleton.mpr hwrite⟩
  | updateAlert loaded model =>
      intro row hrow
      obtain ⟨stored, hstored, rfl⟩ := List.mem_map.mp hrow
      split
      · next heq =>
        have hid : stored.id = model.id := by simpa using heq
        show column loaded.userId model.userId stored.userId = owner stored.id
        unfold column
        split
        · exact h stored hstored
        · rw [hid]
          exact hwrite
      · exact h stored hstored
  | _ => exact h

theorem delivery_apply {known : MatchId × ChannelId → Prop}
    (hinserted : ∀ row, write = .insertNotification row → known (delivery row))
    (hwrite : Rightful owner channels writes write)
    (h : ∀ n ∈ db.notifications, known (delivery n)) :
    ∀ n ∈ (write.apply db).notifications, known (delivery n) := by
  cases write with
  | insertNotification row =>
      exact List.forall_mem_append.mpr ⟨h, by simpa using hinserted row rfl⟩
  | updateNotification loaded model =>
      intro n hn
      obtain ⟨stored, hstored, rfl⟩ := List.mem_map.mp hn
      split
      · obtain ⟨hmatch, hchannel⟩ := Prod.mk.inj hwrite
        have hsame : delivery (NotificationRow.update loaded model stored) =
            delivery stored := by
          simp [delivery, NotificationRow.update, column, hmatch, hchannel]
        rw [hsame]
        exact h stored hstored
      · exact h stored hstored
  | _ => exact h

theorem OwnersAgree.applyAll (h : OwnersAgree owner db)
    (hproper : Proper owner db.channels writes)
    (hadmits : Database.admits db writes = true) :
    OwnersAgree owner (applyAll writes db) := by
  have hchannels := channels_applyAll writes db
  obtain ⟨hkey, hmonitored⟩ := keeps_of_admits (P := fun _ => True)
    (fun _ _ _ hadmitted => matches_apply hadmitted) (fun _ _ => trivial) hadmits
    ⟨h.matchKey, h.monitored⟩
  have halerts := keeps_of_admits
    (J := fun db => ∀ row ∈ db.alerts, row.userId = owner row.id)
    (fun _ _ hwrite _ => alertOwner_apply hwrite) hproper hadmits h.alertOwner
  let known (key : MatchId × ChannelId) : Prop :=
    ∃ found ∈ db.alertMatches ++ insertedMatches writes, found.id = key.1 ∧
      ∃ channel ∈ db.channels, channel.id = key.2 ∧
        channel.userId = owner found.alertId
  have hnotified : ∀ n ∈ (Foundation.applyAll writes db).notifications,
      known (delivery n) := by
    refine keeps_of_admits (P := fun write => Rightful owner db.channels writes write)
      (J := fun db => ∀ n ∈ db.notifications, known (delivery n))
      (fun write db' hwrite _ => delivery_apply (fun row hrow => ?_) hwrite)
      hproper hadmits fun n hn => ?_
    · rw [hrow] at hwrite
      obtain ⟨found, hfound, hrest⟩ := hwrite
      exact ⟨found, List.mem_append_right _
        (List.mem_filterMap.mpr ⟨_, hfound, rfl⟩), hrest⟩
    · obtain ⟨found, hfound, hrest⟩ := h.notified n hn
      exact ⟨found, List.mem_append_left _ hfound, hrest⟩
  refine ⟨hkey, hchannels ▸ h.channelKey, halerts, hmonitored, fun n hn => ?_⟩
  rw [alertMatches_eq, hchannels]
  exact hnotified n hn

def Agreed (owner : AlertId → UserId) (channels : List ChannelRow) (db : Store) :
    Prop :=
  OwnersAgree owner db ∧ db.channels = channels

theorem agreed_applyAll {C : Type} {R : C → Type} (db : Store)
    (s : Session Write C R) (h : Agreed owner channels db)
    (hready : Proper owner channels s.pending)
    (hadmits : Database.admits db s.pending = true) :
    Agreed owner channels (applyAll s.pending db) :=
  ⟨h.1.applyAll (h.2 ▸ hready) hadmits, (channels_applyAll _ _).trans h.2⟩

end Batches

/-! ## Alerts are saved as whose they are -/

section Programs

variable [PythonRuntime] {owner : AlertId → UserId} {channels : List ChannelRow}
  {ready : CycleSession → Prop} {s : CycleSession}

omit [PythonRuntime] in
theorem rightful_addWrites {alert : SearchAlert}
    (howner : alert.userId = owner alert.id) (stamp : Stamp) (db : Store) :
    ∀ write ∈ AlertRepository.addWrites alert stamp db,
      Rightful owner channels [] write := by
  intro write hwrite
  rw [AlertRepository.addWrites, AlertRepository.mergeWrites, List.append_assoc,
    List.append_assoc] at hwrite
  rcases List.mem_append.mp hwrite with hwrite | hwrite
  · rw [List.mem_singleton.mp hwrite, AlertRepository.rowWrite]
    split <;> exact howner
  · -- the rest of the aggregate is in other tables
    have htables : ∀ table ∈ [Table.conditions, .portals, .subscriptions],
        table ∉ [Table.alerts, .notifications] := by decide
    refine rightful_of_table (AllIn.not_mem ?_ htables write hwrite)
    refine allIn_append ?_ (allIn_append (allIn_singleton rfl) ?_)
    · intro write hwrite
      obtain ⟨row, -, rfl⟩ := List.mem_map.mp hwrite
      exact .head _
    · intro write hwrite
      obtain ⟨slug, -, hwrite⟩ := List.mem_flatMap.mp hwrite
      refine allIn_append ?_ ?_ write hwrite <;> split
      · exact allIn_nil _
      · exact allIn_singleton rfl
      · exact allIn_nil _
      · exact allIn_singleton rfl

omit [PythonRuntime] in
theorem wp_saveAlert {alert : SearchAlert} (howner : alert.userId = owner alert.id)
    (h : Proper owner channels s.pending) :
    Txn.wp (.finding (Agreed owner channels))
      (fun s => Proper owner channels s.pending)
      ((AlertRepository.add alert).bind fun _ =>
        (Txn.commitOr .integrityError).bind fun _ => (.done alert : CycleTxn SearchAlert))
      (Txn.onOk fun _ _ => True) s := by
  intro db _
  exact ⟨h.append_of_nil (rightful_addWrites howner _ _), trivial, fun _ => trivial⟩

theorem wp_createAlert (create : CreateAlert) {id : AlertId}
    {request : CreateRequest} (howner : request.userId = owner id) (txn : Nat) :
    Txn.wp (.finding (Agreed owner channels))
      (fun s => Proper owner channels s.pending) (create.run id request)
      (Txn.onOk fun _ _ => True) (.start txn) := by
  refine Txn.wp_ends_bind (P := fun _ s => s.pending = [])
    (Txn.wp_onOk_ofExcept fun _ _ => rfl) fun conditions s hidle => ?_
  refine Txn.wp_ends_bind (P := fun _ s => s.pending = [])
    (fun _ _ => hidle) fun now s hidle => ?_
  refine Txn.wp_ends_bind (P := fun alert s =>
    alert.userId = owner alert.id ∧ s.pending = [])
    (Txn.wp_onOk_ofExcept fun alert halert => ?_) fun alert s h => ?_
  · obtain ⟨hid, huser⟩ := owner_of_new halert
    exact ⟨by rw [hid, huser, howner], hidle⟩
  · exact wp_saveAlert h.1 (h.2 ▸ .nil)

theorem wp_updateAlert (update : UpdateAlert) (request : UpdateRequest) (txn : Nat) :
    Txn.wp (.finding (Agreed owner channels))
      (fun s => Proper owner channels s.pending) (update.run request)
      (Txn.onOk fun _ _ => True) (.start txn) := by
  intro now _ db hdb
  refine Txn.wp_ends_bind (P := fun (found : Option SearchAlert) s =>
    (∀ alert, found = some alert → alert.userId = owner alert.id) ∧ s.pending = [])
    (Txn.wp_onOk_ofExcept fun found hfound => ⟨fun alert halert => ?_, rfl⟩)
    fun found s h => ?_
  · subst halert
    obtain ⟨row, hrow, hid, huser⟩ := owner_of_get hfound
    rw [hid, huser]
    exact hdb.1.alertOwner row hrow
  · cases found with
    | none => trivial
    | some alert =>
        refine Txn.wp_ends_bind (P := fun edited s =>
          edited.userId = owner edited.id ∧ s.pending = [])
          (Txn.wp_onOk_ofExcept fun edited hedited => ?_) fun edited s h => ?_
        · obtain ⟨-, ⟨hid, huser⟩, -⟩ := edit_eq_ok hedited
          exact ⟨by rw [hid, huser, h.1 alert rfl], h.2⟩
        · exact wp_saveAlert h.1 (h.2 ▸ .nil)

end Programs

/-! ## A cycle queues matches on channels of their owner -/

section Workers

variable [PythonRuntime] [PersistenceRuntime] {owner : AlertId → UserId}
  {channels : List ChannelRow} {ready : CycleSession → Prop} {s : CycleSession}

omit [PythonRuntime] [PersistenceRuntime] in
theorem wp_proper_of_only {rely : CycleRely} {tables : List Table} {α : Type}
    {p : CycleTxn α} (hp : p.Only (InTables tables))
    (hdisjoint : ∀ table ∈ tables, table ∉ [Table.alerts, .notifications])
    (h : Proper owner channels s.pending) :
    Txn.wp rely ready p (Txn.onOk fun _ s => Proper owner channels s.pending) s := by
  refine Txn.wp_mono _ ?_ (Txn.wp_of_only
    (I := fun s : CycleSession => Proper owner channels s.pending)
    (fun s writes hwrites h => h.append_of_nil fun write hwrite =>
      rightful_of_table (hdisjoint _ (hwrites write hwrite)))
    (fun _ _ _ h => h) hp h)
  rintro (error | value) s h
  · trivial
  · exact h

omit [PythonRuntime] in
theorem row_of_listEnabled {userId : UserId} {db : Store}
    {listed : List NotificationChannel}
    (h : NotificationChannelRepository.listEnabledForUser userId db = .ok listed)
    {channel : NotificationChannel} (hchannel : channel ∈ listed) :
    ∃ row ∈ db.channels, row.id = channel.id ∧ row.userId = userId := by
  have hids := ids_mapM_toDomain h
  have hmem := List.mem_map_of_mem (f := (·.id)) hchannel
  rw [hids] at hmem
  obtain ⟨row, hrow, hid⟩ := List.mem_map.mp hmem
  obtain ⟨hrow, hwhose⟩ := List.mem_filter.mp hrow
  have huser : row.userId = userId ∧ row.isEnabled := by simpa using hwhose
  exact ⟨row, hrow, hid, huser.1⟩

omit [PythonRuntime] [PersistenceRuntime] in
theorem wp_proper_enqueue {row : MatchRow} {listed : List NotificationChannel}
    (hlisted : ∀ channel ∈ listed, ∃ stored ∈ channels, stored.id = channel.id ∧
      stored.userId = owner row.alertId) (now : DateTime)
    (h : Proper owner channels s.pending) (hrow : Write.insertMatch row ∈ s.pending) :
    Txn.wp (.finding (Agreed owner channels)) ready
      (Txn.forEach listed fun channel =>
        Txn.exec (NotificationRepository.enqueueWrites row.id channel.id now) :
          CycleTxn Unit)
      (Txn.onOk fun _ s => Proper owner channels s.pending) s := by
  refine Txn.wp_ends_forEach (fun _ s => Proper owner channels s.pending ∧
    Write.insertMatch row ∈ s.pending) ?_ (fun _ h => h.1) ⟨h, hrow⟩
  rintro before channel after s rfl ⟨h, hrow⟩
  refine (Txn.wp_exec _).mpr fun db _ => ⟨h.append fun write hwrite => ?_,
    List.mem_append_left _ hrow⟩
  unfold NotificationRepository.enqueueWrites at hwrite
  split at hwrite
  · exact absurd hwrite List.not_mem_nil
  · rw [List.mem_singleton.mp hwrite]
    obtain ⟨stored, hstored, hid, huser⟩ := hlisted channel (by simp)
    exact ⟨row, List.mem_append_left _ hrow, rfl, stored, hstored, hid, huser⟩

omit [PythonRuntime] in
theorem wp_proper_persistMatch {alert : SearchAlert}
    (howner : alert.userId = owner alert.id) {found : AlertMatch}
    (hfound : found.alertId = alert.id) (now : DateTime) (created : Nat)
    (h : Proper owner channels s.pending) :
    Txn.wp (.finding (Agreed owner channels)) ready
      (RunAlertCycle.persistMatch alert.userId now created found)
      (Txn.onOk fun _ s => Proper owner channels s.pending) s := by
  intro db _
  simp only [MatchRepository.addIfNewWrites]
  cases MatchRepository.find found.alertId found.propertyId (s.view db) with
  | some row => exact h.append_of_nil (by simp)
  | none =>
      set row := MatchRepository.newRow found s.stamp with hrow
      have hinserted : Proper owner channels (s.wrote [.insertMatch row]).pending :=
        h.append_of_nil (by simp [Rightful])
      refine Txn.wp_ends_bind (P := fun listed s' =>
        (∃ db, db.channels = channels ∧ listed =
          NotificationChannelRepository.listEnabledForUser alert.userId db) ∧
        Proper owner channels s'.pending ∧ Write.insertMatch row ∈ s'.pending)
        ((Txn.wp_query _).mpr fun db' hdb' => ⟨⟨_, ?_, rfl⟩, ?_⟩) ?_
      · exact (channels_applyAll _ _).trans hdb'.2
      · exact ⟨hinserted.append_of_nil (by simp), by simp⟩
      rintro _ s' ⟨⟨db', hdb', rfl⟩, h', hmem⟩
      refine Txn.wp_ends_bind (P := fun listed s'' => s'' = s' ∧
        ∀ channel ∈ listed, ∃ stored ∈ channels, stored.id = channel.id ∧
          stored.userId = owner row.alertId)
        (Txn.wp_onOk_ofExcept fun listed hlisted => ⟨rfl, fun channel hchannel => ?_⟩)
        ?_
      · obtain ⟨stored, hstored, hid, huser⟩ := row_of_listEnabled hlisted hchannel
        exact ⟨stored, hdb' ▸ hstored, hid, by rw [huser, howner, ← hfound]; rfl⟩
      rintro listed _ ⟨rfl, hlisted⟩
      exact Txn.wp_ends_bind (wp_proper_enqueue hlisted now h' hmem)
        fun _ _ h => h

theorem wp_proper_evaluateAndPersist (cycle : RunAlertCycle)
    {alerts : List SearchAlert}
    (howners : ∀ alert ∈ alerts, alert.userId = owner alert.id)
    (candidates : List Property) (now : DateTime)
    (h : Proper owner channels s.pending) :
    Txn.wp (.finding (Agreed owner channels)) ready
      (cycle.evaluateAndPersist alerts candidates now)
      (Txn.onOk fun _ s => Proper owner channels s.pending) s := by
  refine Txn.wp_ends_foldEach (fun _ _ s => Proper owner channels s.pending) ?_
    (fun _ _ h => h) h
  rintro before alert after created s rfl h
  have howner := howners alert (by simp)
  refine Txn.wp_ends_bind (P := fun found s' => Proper owner channels s'.pending ∧
    ∀ m ∈ found, m.alertId = alert.id)
    (Txn.wp_onOk_ofExcept fun found hfound => ⟨h, fun m hm => ?_⟩)
    fun found s h => ?_
  · obtain ⟨p, -, -, rfl⟩ := (AlertEngine.mem_evaluate hfound m).mp hm
    rfl
  refine Txn.wp_ends_bind (P := fun _ s => Proper owner channels s.pending)
    (Txn.wp_ends_foldEach (fun _ _ s => Proper owner channels s.pending) ?_
      (fun _ _ h => h) h.1) fun created s h => ?_
  · rintro before m after created s rfl h'
    exact wp_proper_persistMatch howner (h.2 m (by simp)) now created h'
  · have hmarked : (alert.markRun now).userId = owner (alert.markRun now).id := howner
    exact fun db _ => h.append_of_nil (rightful_addWrites hmarked _ _)

theorem wp_proper_runOne (cycle : RunAlertCycle) {planned : PlannedQuery}
    (howners : ∀ alert ∈ planned.alerts, alert.userId = owner alert.id) (txn : Nat) :
    Txn.wp (.finding (Agreed owner channels))
      (fun s => Proper owner channels s.pending) (cycle.runOne planned)
      (Txn.onOk fun _ _ => True) (.start txn) := by
  intro now _
  change Txn.wp _ _ ((cycle.resolveCandidates _ now).attempt.bind _) _ _
  refine (Txn.wp_bind _ _).mpr ((Txn.wp_attempt _).mpr (Txn.wp_mono _ ?_
    (Txn.wp_of_only (I := fun s : CycleSession => Proper owner channels s.pending)
      (fun s writes hwrites h => h.append_of_nil fun write hwrite =>
        rightful_of_table (AllIn.not_mem hwrites (by decide) write hwrite))
      (fun _ _ _ h => h) (only_resolveCandidates cycle planned now) .nil)))
  rintro (error | propertyIds) s h
  · cases error with
    | scraperError error =>
        intro finishedAt _ db _
        exact ⟨h.append_of_nil fun write hwrite => rightful_of_table
          (AllIn.not_mem (allIn_recordWrites _ _ _) (by decide) write hwrite),
          trivial, fun _ => trivial⟩
    | _ => trivial
  · refine Txn.wp_ends_bind (wp_proper_of_only (only_loadCandidates propertyIds)
      (by simp) h) fun candidates s h => ?_
    exact Txn.wp_ends_bind (wp_proper_evaluateAndPersist cycle howners candidates now h)
      fun created s h => ⟨h, trivial, fun _ => trivial⟩

end Workers

/-! ## The dispatcher sends to the channels of its notifications -/

section Dispatches

variable [PythonRuntime] [PersistenceRuntime] {owner : AlertId → UserId}
  {channels : List ChannelRow} {dispatch : DispatchNotifications} {db : Store}
  {answers : Nat → (request : DispatchCall) → DispatchAnswer request}
  {s : DispatchSession}

omit [PythonRuntime] [PersistenceRuntime] in
theorem rightful_changeWrites (change : NotificationRow → NotificationRow)
    (hchange : ∀ row, delivery (change row) = delivery row) (id : NotificationId)
    (db : Store) : ∀ write ∈ NotificationRepository.changeWrites change id db,
      Rightful owner channels [] write := by
  intro write hwrite
  unfold NotificationRepository.changeWrites at hwrite
  split at hwrite
  · exact absurd hwrite List.not_mem_nil
  · next row _ =>
    rw [List.mem_singleton.mp hwrite]
    exact hchange row

omit [PythonRuntime] [PersistenceRuntime] in
theorem rightful_sendAndMark (id : NotificationId) (channel : NotificationChannel)
    (message : NotificationMessage) :
    (dispatch.sendAndMark id channel message).Within
      (fun _ => Rightful owner channels []) fun _ => True := by
  refine Txn.within_bind ⟨trivial, fun _ => Txn.within_ofExcept _⟩ fun _ =>
    Txn.within_bind ⟨trivial, fun _ => Txn.within_ofExcept _⟩ fun _ =>
      Txn.within_bind ⟨trivial, fun _ => trivial⟩ fun now =>
        Txn.within_bind ⟨trivial, fun _ => trivial⟩ fun outcome => ?_
  rcases outcome with (error | _)
  · cases error with
    | notifierError error =>
        exact Txn.within_bind (Txn.within_exec fun _ db =>
          rightful_changeWrites (NotificationRepository.attempted error
            dispatch.maxAttempts) (fun _ => rfl) id db) fun _ => trivial
    | _ => trivial
  · exact Txn.within_bind (Txn.within_exec fun _ db => rightful_changeWrites
      (NotificationRepository.sent now) (fun _ => rfl) id db) fun _ => trivial

theorem rightful_run : dispatch.run.Within (fun _ => Rightful owner channels [])
    fun _ => True := by
  refine Txn.within_bind (Txn.within_query _) fun pending => ?_
  refine Txn.within_bind (Txn.within_foldEach fun counts row _ => ?_) fun _ => trivial
  refine Txn.within_bind (Txn.within_bind ((within_prepare row).mono
    (fun _ _ h => h.elim) fun _ h => h.elim) fun prepared => ?_) fun delivered => ?_
  · cases prepared with
    | none => trivial
    | some prepared => exact rightful_sendAndMark _ _ _
  · exact Txn.within_bind (Txn.within_commitOr _) fun _ => trivial

def sendOf :
    ((request : DispatchCall) × DispatchAnswer request) →
      Option (NotificationId × String)
  | ⟨.send id target _, _⟩ => some (id, target)
  | _ => none

def sends (calls : List ((request : DispatchCall) × DispatchAnswer request)) :
    List (NotificationId × String) :=
  calls.filterMap sendOf

/-- The channel of a row, and the target that its configuration decrypts to. -/
def Targets (db : Store) (row : NotificationRow) (target : String) : Prop :=
  ∃ channel ∈ db.channels, channel.id = row.channelId ∧
    PersistenceRuntime.decryptTarget channel.encrypted = .ok target

omit [PythonRuntime] in
theorem targets_of_get {row : NotificationRow} {channel : NotificationChannel}
    (h : NotificationChannelRepository.get row.channelId db = .ok (some channel)) :
    Targets db row channel.target := by
  rcases NotificationChannelRepository.get_eq_ok h with
    ⟨-, hnone⟩ | ⟨stored, read, hfind, hread, hsome⟩
  · cases hnone
  · obtain ⟨target, htarget, rfl⟩ :=
      NotificationChannelRepository.toDomain_eq_ok.mp hread
    obtain rfl := Option.some.inj hsome
    exact ⟨stored, List.mem_of_find?_eq_some hfind,
      by simpa using List.find?_some hfind, htarget⟩

theorem targets_of_prepare {row : NotificationRow} {channel : NotificationChannel}
    {message : NotificationMessage} (hpending : s.pending = [])
    (h : ((DispatchNotifications.prepare row).eval answers s db).outcome =
      .ok (some (channel, message))) : Targets db row channel.target := by
  have hview : s.view db = db := by rw [Session.view, hpending, applyAll_nil]
  simp only [DispatchNotifications.prepare, Txn.query, Txn.bind_eq, Txn.bind,
    Txn.eval, hview] at h
  obtain ⟨found, hfound, heq⟩ := Txn.eval_bind_ok h
  rw [heq] at h
  have hget : NotificationChannelRepository.get row.channelId db = .ok found := by
    cases hread : NotificationChannelRepository.get row.channelId db with
    | error error => simp [hread, Txn.ofExcept, Txn.eval] at hfound
    | ok read => simpa [hread, Txn.ofExcept, Txn.eval] using hfound
  cases henabled : found.filter (·.isEnabled) with
  | none => simp [henabled, Txn.eval] at h
  | some enabled =>
      simp only [henabled] at h
      obtain rfl := Option.filter_eq_some_iff.mp henabled |>.1
      -- whatever message is made, it goes to the enabled channel
      obtain ⟨matched, -, heq⟩ := Txn.eval_bind_ok h
      rw [heq] at h
      cases matched with
      | none => simp [Txn.eval] at h
      | some matched =>
          obtain ⟨made, -, heq⟩ := Txn.eval_bind_ok h
          rw [heq] at h
          obtain ⟨rfl, -⟩ : enabled = channel ∧ made = message := by
            simpa [Txn.eval] using h
          exact targets_of_get hget

omit [PythonRuntime] [PersistenceRuntime] in
theorem sends_append
    (calls calls' : List ((request : DispatchCall) × DispatchAnswer request)) :
    sends (calls ++ calls') = sends calls ++ sends calls' :=
  List.filterMap_append ..

omit [PythonRuntime] [PersistenceRuntime] in
theorem sends_sendAndMark {id : NotificationId} {channel : NotificationChannel}
    {message : NotificationMessage} {x : NotificationId × String}
    (h : x ∈ sends ((dispatch.sendAndMark id channel message).trace answers s db)) :
    x = (id, channel.target) := by
  simp only [DispatchNotifications.sendAndMark, rateLimit, notifierForChannelType,
    Txn.bind_eq, Txn.bind, Txn.trace] at h
  cases hlimit : answers s.ops (.rateLimit channel.channelType) with
  | error error => simp [hlimit, Txn.ofExcept, Txn.trace, sends, sendOf] at h
  | ok =>
      simp only [hlimit, Txn.ofExcept, Txn.bind, Txn.trace] at h
      generalize answers _ (.notifierForChannelType channel.channelType) = notifier at h
      cases notifier with
      | error error => simp [Txn.bind, Txn.trace, sends, sendOf] at h
      | ok =>
          simp only [Txn.bind, Txn.trace] at h
          generalize answers _ (.send id channel.target message) = outcome at h
          obtain rfl : (id, channel.target) = x := by
            split at h <;> simpa [Txn.bind, Txn.exec, Txn.trace, sends, sendOf] using h
          rfl

omit [PythonRuntime] [PersistenceRuntime] in
theorem trace_commitDelivery (counts : Nat × Nat) (delivered : Bool) :
    (DispatchNotifications.commitDelivery counts delivered).trace answers s db = [] := by
  simp only [DispatchNotifications.commitDelivery, Txn.commitOr, Txn.bind_eq, Txn.bind,
    Txn.trace]
  split <;> rfl

theorem sends_deliverOne {row : NotificationRow} {counts : Nat × Nat}
    (hpending : s.pending = []) {x : NotificationId × String}
    (h : x ∈ sends ((dispatch.deliverOne counts row).trace answers s db)) :
    x.1 = row.id ∧ Targets db row x.2 := by
  obtain ⟨hstore, -, htrace⟩ := Txn.eval_of_silent answers (within_prepare row)
    hpending db
  rw [DispatchNotifications.deliverOne, Txn.bind_eq, Txn.trace_bind,
    DispatchNotifications.deliver, Txn.bind_eq, Txn.trace_bind, htrace,
    List.nil_append, sends_append] at h
  rcases List.mem_append.mp h with h | h
  · unfold Txn.traceThen at h
    split at h
    · next prepared hprepared =>
      cases prepared with
      | none => simp [Txn.trace, sends] at h
      | some prepared =>
          obtain ⟨channel, message⟩ := prepared
          rw [sends_sendAndMark h]
          exact ⟨rfl, targets_of_prepare hpending hprepared⟩
    · simp [sends] at h
  · unfold Txn.traceThen at h
    split at h
    · rw [trace_commitDelivery] at h
      simp [sends] at h
    · simp [sends] at h

omit [PythonRuntime] [PersistenceRuntime] in
theorem channels_eval {C : Type} {R : C → Type} {α : Type}
    {answers : Nat → (request : C) → R request} (p : Txn Store Write C R PyError α)
    (s : Session Write C R) (db : Store) :
    (p.eval answers s db).store.channels = db.channels := by
  induction p generalizing s db with
  | done value => rfl
  | raise error => rfl
  | stmt writes next ih => exact ih _ _ _ _
  | call request next ih => exact ih _ _ _
  | commit next ih =>
      rw [Txn.eval]
      split
      · exact (ih true _ _).trans (channels_applyAll _ _)
      · exact ih false _ _

theorem sends_deliverEach {rows : List NotificationRow} (counts : Nat × Nat)
    (hpending : s.pending = []) {x : NotificationId × String}
    (h : x ∈ sends ((Txn.foldEach rows counts dispatch.deliverOne).trace
      answers s db)) : ∃ row ∈ rows, x.1 = row.id ∧ Targets db row x.2 := by
  induction rows generalizing counts s db with
  | nil => simp [Txn.foldEach, Txn.trace, sends] at h
  | cons row rest ih =>
      rw [Txn.foldEach, Txn.trace_bind, sends_append] at h
      rcases List.mem_append.mp h with h | h
      · exact ⟨row, .head _, sends_deliverOne hpending h⟩
      · unfold Txn.traceThen at h
        split at h
        · next counts' hcounts =>
          obtain ⟨-, hidle⟩ := @eval_deliverOne _ _ dispatch row answers s ⟨db, []⟩
            counts hpending
          obtain ⟨later, hlater, hid, channel, hchannel, htarget⟩ :=
            ih counts' (hidle counts' hcounts).1 h
          rw [channels_eval] at hchannel
          exact ⟨later, .tail _ hlater, hid, channel, hchannel, htarget⟩
        · simp [sends] at h

theorem sends_run (txn : Nat) {x : NotificationId × String}
    (h : x ∈ sends (dispatch.run.trace answers (.start txn) db)) :
    ∃ row ∈ db.notifications, row.id = x.1 ∧ Targets db row x.2 := by
  have hview : (Session.start txn : DispatchSession).view db = db := rfl
  simp only [DispatchNotifications.run, Txn.query, Txn.bind_eq, Txn.bind, Txn.trace,
    Txn.trace_bind, hview, sends_append] at h
  rcases List.mem_append.mp h with h | h
  · obtain ⟨row, hrow, hid, htargets⟩ := sends_deliverEach _ (by simp) h
    exact ⟨row, (mem_listPending hrow).1, hid.symm, htargets⟩
  · unfold Txn.traceThen at h
    split at h <;> simp [Txn.trace, sends] at h

end Dispatches

/-! ## Runs of all use cases -/

section Runs

variable [PythonRuntime] [PersistenceRuntime]

/--
One run of a use case: an alert or a channel is created under an identifier
that no other has, an alert is edited, the due alerts go through a cycle whose
workers take turns in any order, or notifications are dispatched.
-/
inductive UseCaseRun (db : Store) : Store → Prop
  | createAlert (create : CreateAlert) (id : AlertId) (request : CreateRequest)
      (hid : ∀ row ∈ db.alerts, row.id ≠ id) (txn : Nat)
      (answers : Nat → (request : CycleCall) → CycleAnswer request) :
      UseCaseRun db ((create.run id request).eval answers (.start txn) db).store
  | updateAlert (update : UpdateAlert) (request : UpdateRequest) (txn : Nat)
      (answers : Nat → (request : CycleCall) → CycleAnswer request) :
      UseCaseRun db ((update.run request).eval answers (.start txn) db).store
  | createChannel (id : ChannelId) (userId : UserId) (channelType : ChannelType)
      (target : String) (hid : ∀ row ∈ db.channels, row.id ≠ id) (txn : Nat)
      (answers : Nat → (request : ChannelCall) → ChannelAnswer request) :
      UseCaseRun db ((CreateChannel.run id userId channelType target).eval answers
        (.start txn) db).store
  | runAlertCycle (cycle : RunAlertCycle) (now : DateTime) (due : List SearchAlert)
      (hdue : AlertRepository.listDue now db = .ok due) (names : Nat → Nat)
      (oracle : Oracle CycleCall CycleAnswer) (schedule : List Nat) :
      UseCaseRun db ((Sys.startAs names db
        (cycle.worker (plan cycle.capabilities due))).run oracle schedule).store
  | dispatchNotifications (dispatch : DispatchNotifications) (txn : Nat)
      (answers : Nat → (request : DispatchCall) → DispatchAnswer request) :
      UseCaseRun db (dispatch.run.eval answers (.start txn) db).store

/-- What any number of users reach from a database without alerts and channels. -/
inductive ReachedByUsers : Store → Prop
  | start (db : Store) (halerts : db.alerts = []) (hmatches : db.alertMatches = [])
      (hchannels : db.channels = []) (hnotifications : db.notifications = []) :
      ReachedByUsers db
  | run {db db' : Store} (h : ReachedByUsers db) (hrun : UseCaseRun db db') :
      ReachedByUsers db'

variable {owner : AlertId → UserId} {db db' : Store}

omit [PythonRuntime] [PersistenceRuntime] in
/-- An alert that does not exist yet may be anybody's. -/
theorem OwnersAgree.assign (h : OwnersAgree owner db) {id : AlertId}
    (hid : ∀ row ∈ db.alerts, row.id ≠ id) (userId : UserId) :
    OwnersAgree (Function.update owner id userId) db := by
  have hmatched : ∀ found ∈ db.alertMatches, found.alertId ≠ id := by
    intro found hfound heq
    obtain ⟨row, hrow, hrowId⟩ := h.monitored found hfound
    exact hid row hrow (hrowId.trans heq)
  refine ⟨h.matchKey, h.channelKey, fun row hrow => ?_, h.monitored, fun n hn => ?_⟩
  · rw [Function.update_of_ne (hid row hrow)]
    exact h.alertOwner row hrow
  · obtain ⟨found, hfound, hmatch, channel, hchannel, hid', huser⟩ := h.notified n hn
    refine ⟨found, hfound, hmatch, channel, hchannel, hid', ?_⟩
    rw [Function.update_of_ne (hmatched found hfound)]
    exact huser

omit [PythonRuntime] [PersistenceRuntime] in
theorem OwnersAgree.addChannel (h : OwnersAgree owner db) {row : ChannelRow}
    (hid : ∀ stored ∈ db.channels, stored.id ≠ row.id) :
    OwnersAgree owner { db with channels := db.channels ++ [row] } := by
  refine ⟨h.matchKey, ?_, h.alertOwner, h.monitored, fun n hn => ?_⟩
  · exact nodup_map_concat h.channelKey hid
  · obtain ⟨found, hfound, hmatch, channel, hchannel, hrest⟩ := h.notified n hn
    exact ⟨found, hfound, hmatch, channel, List.mem_append_left _ hchannel, hrest⟩

theorem ownersAgree_run (h : OwnersAgree owner db) (hrun : UseCaseRun db db') :
    ∃ owner', OwnersAgree owner' db' := by
  have hagreed : Agreed owner db.channels db := ⟨h, rfl⟩
  cases hrun with
  | createAlert create id request hid txn answers =>
      have hassigned := h.assign hid request.userId
      refine ⟨_, (Txn.store_eval_of_wp agreed_applyAll ⟨hassigned, rfl⟩
        (wp_createAlert create (by simp) txn)).1⟩
  | updateAlert update request txn answers =>
      exact ⟨owner, (Txn.store_eval_of_wp agreed_applyAll hagreed
        (wp_updateAlert update request txn)).1⟩
  | createChannel id userId channelType target hid txn answers =>
      rcases @store_createChannel id userId channelType target db hid answers txn with
        hstore | ⟨row, rfl, -, hstore⟩
      · rw [hstore]
        exact ⟨owner, h⟩
      · rw [hstore]
        exact ⟨owner, h.addChannel hid⟩
  | runAlertCycle cycle now due hdue names oracle schedule =>
      have hworkers : ∀ i, Sys.Holds (.finding (Agreed owner db.channels))
          (fun s => Proper owner db.channels s.pending) (Txn.onOk fun _ _ => True)
          ((Sys.startAs names db
            (cycle.worker (plan cycle.capabilities due))).workers i) := by
        intro i
        show Txn.wp _ _ (cycle.worker _ i) _ (.start (names i))
        unfold RunAlertCycle.worker
        cases hplanned : (plan cycle.capabilities due)[i]? with
        | none => trivial
        | some planned =>
            refine wp_proper_runOne cycle (fun alert halert => ?_) (names i)
            have hmem := List.mem_of_getElem? hplanned
            have hdueAlert := ((planned_of_mem hmem).mem_alerts.mp halert).1
            obtain ⟨row, hrow, hid, huser⟩ := owner_of_listDue hdue hdueAlert
            rw [hid, huser]
            exact h.alertOwner row hrow
      exact ⟨owner, (Sys.store_run_of_wp agreed_applyAll hagreed hworkers
        schedule).1.1⟩
  | dispatchNotifications dispatch txn answers =>
      have hwp : Txn.wp (.finding (Agreed owner db.channels))
          (fun s => Proper owner db.channels s.pending) dispatch.run
          (fun _ s => Proper owner db.channels s.pending) (.start txn) :=
        Txn.wp_of_within (fun _ _ _ hwrites hs => hs.append_of_nil hwrites)
          (fun _ _ _ _ hs => hs) (fun _ hs => ⟨hs, .nil, .nil⟩) rightful_run .nil
      exact ⟨owner, (Txn.store_eval_of_wp agreed_applyAll hagreed hwp).1⟩

theorem ownersAgree_of_reached (h : ReachedByUsers db) :
    ∃ owner, OwnersAgree owner db := by
  induction h with
  | start db halerts hmatches hchannels hnotifications =>
      refine ⟨fun _ => .given 0, ?_, ?_, ?_, ?_, ?_⟩ <;>
        simp [halerts, hmatches, hchannels, hnotifications]
  | run _ hrun ih =>
      obtain ⟨owner, howner⟩ := ih
      exact ownersAgree_run howner hrun

/-- The match, the alert and the channel of a notification exist, and are one user's. -/
structure ReachesOwner (db : Store) (n : NotificationRow) : Prop where
  exists_ends : ∃ found ∈ db.alertMatches, found.id = n.matchId ∧
    (∃ alert ∈ db.alerts, alert.id = found.alertId) ∧
      ∃ channel ∈ db.channels, channel.id = n.channelId
  same_user : ∀ found ∈ db.alertMatches, found.id = n.matchId →
    ∀ alert ∈ db.alerts, alert.id = found.alertId →
      ∀ channel ∈ db.channels, channel.id = n.channelId →
        channel.userId = alert.userId

omit [PythonRuntime] [PersistenceRuntime] in
theorem OwnersAgree.reachesOwner (h : OwnersAgree owner db) {n : NotificationRow}
    (hn : n ∈ db.notifications) : ReachesOwner db n := by
  obtain ⟨found, hfound, hmatch, channel, hchannel, hid, huser⟩ := h.notified n hn
  refine ⟨⟨found, hfound, hmatch, h.monitored found hfound, channel, hchannel, hid⟩,
    fun found' hfound' hmatch' alert halert halertId channel' hchannel' hid' => ?_⟩
  -- the primary keys leave one match and one channel
  obtain rfl := List.inj_on_of_nodup_map h.matchKey hfound hfound'
    (hmatch.trans hmatch'.symm)
  obtain rfl := List.inj_on_of_nodup_map h.channelKey hchannel hchannel'
    (hid.trans hid'.symm)
  rw [huser, h.alertOwner alert halert, halertId]

/--
In every reachable state each notification is on a channel of the user whose
alert matched, and every message that a dispatcher sends from there goes to the
target of such a channel.
-/
theorem matches_reach_only_their_owner (h : ReachedByUsers db) :
    (∀ n ∈ db.notifications, ReachesOwner db n) ∧
    ∀ (dispatch : DispatchNotifications) txn answers,
      ∀ x ∈ sends (dispatch.run.trace answers (.start txn) db),
        ∃ n ∈ db.notifications, n.id = x.1 ∧ Targets db n x.2 ∧ ReachesOwner db n := by
  obtain ⟨owner, howner⟩ := ownersAgree_of_reached h
  refine ⟨fun n hn => howner.reachesOwner hn, fun dispatch txn answers x hx => ?_⟩
  obtain ⟨n, hn, hid, htargets⟩ := sends_run txn hx
  exact ⟨n, hn, hid, htargets, howner.reachesOwner hn⟩

end Runs

/-! ## Two users and a flat -/

/-- Two users, and a search that was cached before either had an alert. -/
def usersStore : Store :=
  { cachedStore with
    users := [.given 0, .given 10]
    alerts := []
    conditions := []
    subscriptions := []
    channels := [] }

def plainEncryption (_ : Nat) : (request : ChannelCall) → ChannelAnswer request
  | .encryptTarget target => .ok target

def salesRequest : CreateRequest where
  userId := .given 0
  name := "Sales in Pontevedra"
  portalSlugs := .ofList ["idealista"]
  frequencySeconds := 3600
  conditionStrings := ["listing_type:EQ:SALE", "province:EQ:36"]

def channelsStore : Store :=
  let one := ((CreateChannel.run (.given 9) (.given 0) .telegram "first").eval
    plainEncryption (.start 0) usersStore).store
  ((CreateChannel.run (.given 19) (.given 10) .telegram "second").eval
    plainEncryption (.start 1) one).store

def createdStore : Store :=
  ((@CreateAlert.run .plain ⟨defaultRegistry⟩ (.given 1) salesRequest).eval
    (quietOracle 0) (.start 2) channelsStore).store

def salesDue : List SearchAlert :=
  (@AlertRepository.listDue .plain 0 createdStore).toOption.getD []

def cycledStore : Store :=
  ((Sys.startAs (· + 3) createdStore (@RunAlertCycle.worker .plain .plain salesCycle
    (@plan .plain salesCycle.capabilities salesDue))).run quietOracle
      (List.replicate 20 0)).store

theorem listDue_createdStore :
    @AlertRepository.listDue .plain 0 createdStore = .ok salesDue := by
  rfl

theorem reachedByUsers_cycledStore : @ReachedByUsers .plain .plain cycledStore := by
  have hstart : @ReachedByUsers .plain .plain usersStore :=
    @ReachedByUsers.start .plain .plain _ rfl rfl rfl rfl
  have hfirst := @ReachedByUsers.run .plain .plain _ _ hstart
    (@UseCaseRun.createChannel .plain .plain _ (.given 9) (.given 0) .telegram "first"
      (by decide) 0 plainEncryption)
  have hsecond := @ReachedByUsers.run .plain .plain _ channelsStore hfirst
    (@UseCaseRun.createChannel .plain .plain _ (.given 19) (.given 10) .telegram
      "second" (by decide) 1 plainEncryption)
  have hcreated := @ReachedByUsers.run .plain .plain _ createdStore hsecond
    (@UseCaseRun.createAlert .plain .plain _ ⟨defaultRegistry⟩ (.given 1) salesRequest
      (by decide) 2 (quietOracle 0))
  exact @ReachedByUsers.run .plain .plain _ _ hcreated
    (@UseCaseRun.runAlertCycle .plain .plain _ salesCycle 0 salesDue
      listDue_createdStore (· + 3) quietOracle (List.replicate 20 0))

theorem matches_reach_only_their_owner_cycled :
    (∀ n ∈ cycledStore.notifications, ReachesOwner cycledStore n) ∧
    ∀ (dispatch : DispatchNotifications) txn answers,
      ∀ x ∈ sends ((@DispatchNotifications.run .plain .plain dispatch).trace answers
        (.start txn) cycledStore), ∃ n ∈ cycledStore.notifications, n.id = x.1 ∧
          @Targets .plain cycledStore n x.2 ∧ ReachesOwner cycledStore n :=
  @matches_reach_only_their_owner .plain .plain _ reachedByUsers_cycledStore

/-- The flat is notified to the user whose alert it matched, and to nobody else. -/
example : cycledStore.notifications.map (·.channelId) = [.given 9] := by
  rfl

end RealEstateTracker.Notifications
