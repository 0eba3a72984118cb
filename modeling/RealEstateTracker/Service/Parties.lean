import RealEstateTracker.Cycle.Identities
import RealEstateTracker.Foundation.LocalRun
import RealEstateTracker.Notifications.Ownership
import RealEstateTracker.Presentation.ListMatches

/-!
# Everything at once

Cycles and dispatchers run as jobs of one scheduler, while alerts are created and
edited and matches are looked at.  They ask the world for different things and share
one database, and its references hold whatever steps they take in whatever order.
-/

namespace RealEstateTracker.Service

open Foundation Domain Application Persistence RealEstateTracker.Cycle Notifications
  Presentation

/-! ## Parties -/

abbrev ServiceCall := CycleCall ⊕ DispatchCall

abbrev ServiceAnswer : ServiceCall → Type := Sum.elim CycleAnswer DispatchAnswer

abbrev ServiceTxn (α : Type) := Txn Store Write ServiceCall ServiceAnswer PyError α

abbrev ServiceSession := Session Write ServiceCall ServiceAnswer

def cycleCalls : CallMap CycleCall CycleAnswer ServiceCall ServiceAnswer :=
  ⟨.inl, fun _ answer => answer⟩

def dispatchCalls : CallMap DispatchCall DispatchAnswer ServiceCall ServiceAnswer :=
  ⟨.inr, fun _ answer => answer⟩

inductive Party where
  | useCase (useCase : UseCase)
  | dispatcher (dispatch : DispatchNotifications)
  | viewer (userId : UserId) (limit : Nat)

section Programs

variable [PythonRuntime] [PersistenceRuntime]

/-- The result is what a viewer is shown. -/
def Party.program : Party → ServiceTxn (Option (List MatchView))
  | .useCase running => (running.program.via cycleCalls).bind fun _ => .done none
  | .dispatcher dispatch => (dispatch.run.via dispatchCalls).bind fun _ => .done none
  | .viewer userId limit => (listMatches userId limit).bind fun views => .done (some views)

end Programs

/-! ## Foreign keys -/

/-- A notification has its match and its channel, and a match its alert. -/
structure Linked (db : Store) : Prop where
  matchKey : (db.alertMatches.map (·.id)).Nodup
  monitored : ∀ found ∈ db.alertMatches, ∃ alert ∈ db.alerts, alert.id = found.alertId
  notified : ∀ n ∈ db.notifications,
    (∃ found ∈ db.alertMatches, found.id = n.matchId) ∧
      ∃ channel ∈ db.channels, channel.id = n.channelId

/-- A notification that changes stays that of its match on its channel. -/
def KeepsDelivery : Write → Prop
  | .updateNotification loaded model => delivery model = delivery loaded
  | _ => True

theorem Linked.apply {write : Write} {db : Store} (h : Linked db)
    (hwrite : KeepsDelivery write) (hadmitted : write.admitted db = true) :
    Linked (write.apply db) := by
  obtain ⟨hkey, hmonitored⟩ := matches_apply hadmitted ⟨h.matchKey, h.monitored⟩
  refine ⟨hkey, hmonitored, ?_⟩
  cases write with
  | insertMatch row =>
      intro n hn
      obtain ⟨⟨found, hfound, hid⟩, hchannel⟩ := h.notified n hn
      exact ⟨⟨found, List.mem_append_left _ hfound, hid⟩, hchannel⟩
  | insertNotification row =>
      simp only [Write.admitted, Bool.and_eq_true, List.any_eq_true,
        decide_eq_true_eq] at hadmitted
      exact List.forall_mem_append.mpr ⟨h.notified, List.forall_mem_singleton.mpr
        ⟨hadmitted.1.2, hadmitted.2⟩⟩
  | updateNotification loaded model =>
      intro n hn
      obtain ⟨stored, hstored, rfl⟩ := List.mem_map.mp hn
      split
      · obtain ⟨hmatch, hchannel⟩ := Prod.mk.inj hwrite
        have hsame : (NotificationRow.update loaded model stored).matchId = stored.matchId ∧
            (NotificationRow.update loaded model stored).channelId = stored.channelId := by
          simp [NotificationRow.update, column, hmatch, hchannel]
        rw [hsame.1, hsame.2]
        exact h.notified stored hstored
      · exact h.notified stored hstored
  | _ => exact h.notified

theorem Linked.applyAll {writes : List Write} {db : Store} (h : Linked db)
    (hwrites : ∀ write ∈ writes, KeepsDelivery write)
    (hadmits : Database.admits db writes = true) : Linked (applyAll writes db) :=
  keeps_of_admits (fun _ _ hwrite hadmitted h => h.apply hwrite hadmitted) hwrites hadmits h

theorem keepsDelivery_of_inTables {tables : List Table} (htables : .notifications ∉ tables)
    {write : Write} (h : InTables tables write) : KeepsDelivery write := by
  cases write <;> trivial

section Deliveries

variable [PythonRuntime] [PersistenceRuntime]

omit [PythonRuntime] in
theorem keepsDelivery_persistMatch (userId : UserId) (now : DateTime) (created : Nat)
    (found : AlertMatch) :
    (RunAlertCycle.persistMatch userId now created found).Only KeepsDelivery := by
  refine Txn.only_bind ⟨fun stamp db write hwrite => ?_, fun stamp db => ?_⟩ fun matchId => ?_
  · unfold MatchRepository.addIfNewWrites at hwrite
    split at hwrite
    · cases hwrite
    · rw [List.mem_singleton.mp hwrite]
      trivial
  · dsimp only
    split <;> trivial
  · cases matchId with
    | none => exact Txn.only_done _
    | some matchId =>
        refine Txn.only_bind (Txn.only_query _) fun listed => ?_
        refine Txn.only_bind (Txn.only_ofExcept _) fun channels => ?_
        refine Txn.only_bind (Txn.only_forEach fun channel _ =>
          Txn.only_exec fun stamp db write hwrite => ?_) fun _ => Txn.only_done _
        unfold NotificationRepository.enqueueWrites at hwrite
        split at hwrite
        · cases hwrite
        · rw [List.mem_singleton.mp hwrite]
          trivial

theorem keepsDelivery_persistMatches (cycle : RunAlertCycle) (planned : PlannedQuery)
    (ids : List PropertyId) (now : DateTime) :
    (cycle.persistMatches planned ids now).Within (fun _ => KeepsDelivery)
      fun _ => True := by
  refine Txn.within_bind ((only_loadCandidates ids).mono fun _ h =>
    keepsDelivery_of_inTables (by decide) h).within fun candidates => ?_
  refine Txn.within_bind (Txn.Only.within (Txn.only_foldEach fun created alert _ => ?_))
    fun created => Txn.within_bind (by simp) fun _ => trivial
  refine Txn.only_bind (Txn.only_ofExcept _) fun found => ?_
  refine Txn.only_bind (Txn.only_foldEach fun created found _ =>
    keepsDelivery_persistMatch _ _ created found) fun created => ?_
  exact Txn.only_bind (Txn.only_exec fun stamp db write hwrite =>
    keepsDelivery_of_inTables (by decide)
      (allIn_addWrites_alert (alert.markRun now) stamp db write hwrite))
    fun _ => Txn.only_done _

theorem keepsDelivery_runOne (cycle : RunAlertCycle) (planned : PlannedQuery) :
    (cycle.runOne planned).Within (fun _ => KeepsDelivery) fun _ => True := by
  refine Txn.within_bind ⟨trivial, fun _ => trivial⟩ fun now => ?_
  refine Txn.within_bind (Txn.within_attempt ((only_resolveCandidates cycle planned now).mono
    fun _ h => keepsDelivery_of_inTables (by decide) h).within) fun outcome => ?_
  rcases outcome with error | ids
  · cases error with
    | scraperError error =>
        exact (within_recordFailure planned error now).mono
          (fun _ _ => keepsDelivery_of_inTables (by decide)) fun _ h => h
    | _ => trivial
  · exact keepsDelivery_persistMatches cycle planned ids now

theorem keepsDelivery_useCase (useCase : UseCase) :
    useCase.program.Within (fun _ => KeepsDelivery) fun _ => True := by
  have halerts : ∀ {α : Type} {p : CycleTxn α},
      p.Within (fun _ => InTables alertTables) (fun _ => True) →
        p.Within (fun _ => KeepsDelivery) fun _ => True :=
    fun hp => hp.mono (fun _ _ => keepsDelivery_of_inTables (by decide)) fun _ h => h
  cases useCase with
  | search cycle planned =>
      exact Txn.within_bind (keepsDelivery_runOne cycle planned) fun _ => trivial
  | createAlert create id request =>
      exact Txn.within_bind (halerts (within_createAlert create id request))
        fun _ => trivial
  | updateAlert update request =>
      exact Txn.within_bind (halerts (within_updateAlert update request))
        fun _ => trivial

/-- All that a dispatcher ever writes. -/
def Marks : Write → Prop
  | .updateNotification loaded model => delivery model = delivery loaded
  | _ => False

omit [PythonRuntime] [PersistenceRuntime] in
theorem keepsDelivery_of_marks {write : Write} (h : Marks write) : KeepsDelivery write := by
  cases write <;> trivial

omit [PythonRuntime] [PersistenceRuntime] in
theorem sparesProperties_of_marks {write : Write} (h : Marks write) :
    SparesProperties write := by
  cases write with
  | updateNotification => exact Table.noConfusion
  | _ => exact h.elim

omit [PersistenceRuntime] in
theorem safe_of_marks {known : StoreFact → Prop} {write : Write} (h : Marks write) :
    SafeWrite known write := by
  cases write <;> trivial

omit [PythonRuntime] [PersistenceRuntime] in
theorem marks_changeWrites (change : NotificationRow → NotificationRow)
    (hchange : ∀ row, delivery (change row) = delivery row) (id : NotificationId)
    (db : Store) : ∀ write ∈ NotificationRepository.changeWrites change id db,
      Marks write := by
  intro write hwrite
  unfold NotificationRepository.changeWrites at hwrite
  split at hwrite
  · cases hwrite
  · rw [List.mem_singleton.mp hwrite]
    exact hchange _

omit [PythonRuntime] [PersistenceRuntime] in
theorem marks_sendAndMark (dispatch : DispatchNotifications) (id : NotificationId)
    (channel : NotificationChannel) (message : NotificationMessage) :
    (dispatch.sendAndMark id channel message).Within (fun _ => Marks) fun _ => True := by
  have hchanged : ∀ change : NotificationRow → NotificationRow,
      (∀ row, delivery (change row) = delivery row) → ∀ sent : Bool,
        Txn.Within (fun _ => Marks) (fun _ => True) (do
          Txn.exec fun _ => NotificationRepository.changeWrites change id
          return sent : DispatchTxn Bool) := by
    intro change hchange sent
    refine Txn.within_bind (Txn.within_exec fun stamp db => ?_) fun _ => Txn.within_done _
    exact marks_changeWrites change hchange id db
  refine Txn.within_bind ⟨trivial, fun answer => Txn.within_ofExcept answer⟩ fun _ => ?_
  refine Txn.within_bind ⟨trivial, fun answer => Txn.within_ofExcept answer⟩ fun _ => ?_
  refine Txn.within_bind ⟨trivial, fun now => Txn.within_done now⟩ fun now => ?_
  refine Txn.within_bind ⟨trivial, fun outcome => Txn.within_done outcome⟩ fun outcome => ?_
  cases outcome with
  | ok => exact hchanged (NotificationRepository.sent now) (fun _ => rfl) true
  | error error =>
      cases error with
      | notifierError error =>
          exact hchanged (NotificationRepository.attempted error dispatch.maxAttempts)
            (fun _ => rfl) false
      | _ => exact Txn.within_raise _

omit [PythonRuntime] [PersistenceRuntime] in
theorem marks_commitDelivery (counts : Nat × Nat) (delivered : Bool) :
    (DispatchNotifications.commitDelivery counts delivered).Within (fun _ => Marks)
      fun _ => True :=
  Txn.within_bind (Txn.within_commitOr _) fun _ => Txn.within_done _

theorem marks_deliverOne (dispatch : DispatchNotifications) (counts : Nat × Nat)
    (n : NotificationRow) :
    (dispatch.deliverOne counts n).Within (fun _ => Marks) fun _ => True := by
  have hprepare : (DispatchNotifications.prepare n).Within (fun _ => Marks) fun _ => True :=
    (within_prepare n).mono (fun _ _ h => h.elim) fun _ h => h.elim
  refine Txn.within_bind (Txn.within_bind hprepare fun prepared => ?_)
    fun delivered => marks_commitDelivery counts delivered
  cases prepared with
  | none => exact Txn.within_done _
  | some prepared => exact marks_sendAndMark dispatch n.id prepared.1 prepared.2

theorem marks_run (dispatch : DispatchNotifications) :
    dispatch.run.Within (fun _ => Marks) fun _ => True :=
  Txn.within_bind (Txn.within_query _) fun _ => Txn.within_bind
    (Txn.within_foldEach fun counts n _ => marks_deliverOne dispatch counts n)
    fun _ => trivial

theorem within_listMatches {C : Type} {R : C → Type} (userId : UserId) (limit : Nat) :
    (listMatches userId limit : Txn Store Write C R PyError (List MatchView)).Within
      (fun _ _ => False) fun _ => False := by
  refine Txn.within_bind (Txn.within_query _) fun found => ?_
  refine Txn.within_foldEach fun views row _ => ?_
  have hview : (viewMatch row : Txn Store Write C R PyError MatchView).Within
      (fun _ _ => False) fun _ => False := by
    refine Txn.within_bind (Txn.within_query _) fun loaded => ?_
    refine Txn.within_bind (Txn.within_ofExcept loaded) fun prop => ?_
    exact Txn.within_bind (Txn.within_query _) fun url => Txn.within_done _
  exact Txn.within_bind hview fun view => Txn.within_done _

/-- What each kind of party writes. -/
theorem within_program {P : Write → Prop} (party : Party)
    (huseCase : ∀ useCase, party = .useCase useCase →
      useCase.program.Within (fun _ => P) fun _ => True)
    (hmarks : ∀ write, Marks write → P write) :
    party.program.Within (fun _ => P) fun _ => True := by
  cases party with
  | useCase useCase =>
      exact Txn.within_bind (Txn.within_via (fun _ h => h) (huseCase useCase rfl))
        fun _ => trivial
  | dispatcher dispatch =>
      exact Txn.within_bind (Txn.within_via (K := fun _ => True) (fun _ h => h)
        ((marks_run dispatch).mono (fun _ => hmarks) fun _ h => h)) fun _ => trivial
  | viewer userId limit =>
      exact Txn.within_bind ((within_listMatches userId limit).mono
        (fun _ _ h => h.elim) fun _ h => h.elim) fun _ => trivial

end Deliveries

/-! ## Runs -/

section Runs

variable [PythonRuntime] [PersistenceRuntime]

abbrev ServiceSys :=
  Sys Store Write ServiceCall ServiceAnswer PyError (Option (List MatchView))

abbrev service (parties : Nat → Party) (db : Store) : ServiceSys :=
  Sys.start db fun i => (parties i).program

variable {parties : Nat → Party} {db : Store}
  {oracle : Oracle ServiceCall ServiceAnswer}

theorem linked_run (h : Linked db) (schedule : List Nat) :
    Linked ((service parties db).run oracle schedule).store := by
  have hworkers : ∀ i, Sys.Holds (.finding Linked)
      (fun s : ServiceSession => ∀ write ∈ s.pending, KeepsDelivery write)
      (fun _ _ => True) ((service parties db).workers i) := by
    intro i
    refine Txn.wp_mono _ (fun _ _ _ => trivial) (Txn.wp_of_within
      (I := fun s : ServiceSession => ∀ write ∈ s.pending, KeepsDelivery write)
      (fun s _ writes hwrites h => ?_) (fun _ _ _ _ h => h)
      (fun s h => ⟨h, List.forall_mem_nil _, List.forall_mem_nil _⟩)
      (within_program (parties i) (fun useCase _ => keepsDelivery_useCase useCase)
        fun _ => keepsDelivery_of_marks) (List.forall_mem_nil _))
    rw [Session.pending_wrote]
    exact List.forall_mem_append.mpr ⟨h, hwrites⟩
  exact (Sys.store_run_of_wp (fun _ _ h hready hadmits => h.applyAll hready hadmits) h
    hworkers schedule).1

/-- Every portal is normalized by the base normalizer with fields of its own. -/
def ServiceNormalizes (fieldMap : String → List (String × String)) :
    (request : ServiceCall) → ServiceAnswer request → Prop
  | .inl request, answer => NormalizedBy fieldMap request answer
  | .inr _, _ => True

variable {fieldMap : String → List (String × String)}

omit [PersistenceRuntime] in
theorem carries_identityContract : Txn.Carries cycleCalls (identityContract fieldMap)
    (storeFacts.contract (ServiceNormalizes fieldMap)) where
  grows _ _ h := h
  finds s s' db hlike h := by
    change References _
    rw [hlike.view]
    exact h
  answers _ _ h := h
  promises s s' db writes hlike h := by
    intro write hwrite
    refine safeWrite_mono (fun fact hfact => ?_) (h write hwrite)
    rcases hfact with hholds | ⟨added, hadded, hadds⟩
    · exact .inl hholds
    · exact .inr ⟨added, hlike.pending ▸ hadded, hadds⟩

theorem keeps_program_identified (party : Party) (s : Nat) :
    party.program.Keeps (storeFacts.contract (ServiceNormalizes fieldMap))
      (fun _ _ _ => True) (.start s) db := by
  cases party with
  | useCase useCase =>
      refine (Txn.keeps_bind _ _).mpr (Txn.keeps_mono _ ?_ (Txn.keeps_via
        carries_identityContract (Session.like_start s) (keeps_program useCase)))
      rintro (error | value) s db - <;> trivial
  | _ =>
      exact Txn.keeps_of_within (P := fun _ => Marks) (fun s db writes _ hwrites write hwrite =>
          safe_of_marks (hwrites write hwrite))
        (within_program _ (fun useCase h => by cases h) fun _ h => h)

theorem wp_paired_party (party : Party) (s : Nat) :
    party.program.wp ⟨fun _ _ _ => True, ServiceNormalizes fieldMap, True⟩
      (fun s : ServiceSession => Paired s.pending) (fun _ _ => True) (.start s) := by
  cases party with
  | useCase useCase =>
      have hpaired : useCase.program.wp (identityRely fieldMap) PairedSession
          (fun _ _ => True) (.start s) := wp_paired_program useCase .nil
      have hvia : (useCase.program.via cycleCalls).wp
          ⟨fun _ _ _ => True, ServiceNormalizes fieldMap, True⟩
          (fun s : ServiceSession => Paired s.pending)
          (fun _ s' => ∃ s : CycleSession, s.Like s' ∧ True) (.start s) := by
        refine Txn.wp_via ?_ ?_ ?_ ?_ (Session.like_start s) hpaired
        · exact fun _ _ _ h => h
        · exact fun _ _ h => h
        · exact fun h => h
        · exact fun s s' hlike (h : Paired s.pending) => hlike.pending ▸ h
      refine (Txn.wp_bind _ _).mpr (Txn.wp_mono _ ?_ hvia)
      rintro (error | value) s - <;> trivial
  | _ =>
      refine Txn.wp_mono _ (fun _ _ _ => trivial) (Txn.wp_of_within
        (I := fun s : ServiceSession => Paired s.pending) (fun s _ writes hwrites h => ?_)
        (fun _ _ _ _ h => h) (fun s h => ⟨h, .nil, .nil⟩)
        (within_program (P := Marks) _ (fun useCase h => by cases h) fun _ h => h) .nil)
      rw [Session.pending_wrote]
      exact h.append_of_spares fun write hwrite =>
        sparesProperties_of_marks (hwrites write hwrite)

theorem identified_run (h : Identified db)
    (hnormalizes : ∀ i op request, ServiceNormalizes fieldMap request (oracle i op request))
    (schedule : List Nat) : Identified ((service parties db).run oracle schedule).store := by
  have hpreserved : storeFacts.Preserved Identified
      (fun s : ServiceSession => Paired s.pending) :=
    ⟨fun _ h => h.references, fun _ _ h hsafe hpaired hadmits =>
      h.applyAll hsafe hpaired hadmits⟩
  exact GuardedFacts.store_run hpreserved h (fun i => keeps_program_identified (parties i) i)
    (fun i => wp_paired_party (parties i) i) hnormalizes schedule

end Runs

end RealEstateTracker.Service
