import RealEstateTracker.Cycle.AtMostOnce
import RealEstateTracker.Foundation.SerialRun

/-!
# A cycle whose workers run one after another

When no query fails, a cycle inserts a match for exactly those candidates of a
query that satisfy one of its alerts and were not matched before.  A candidate
counts as it is stored when the alerts of the query are evaluated.
-/

namespace RealEstateTracker.Cycle

open Foundation Domain Application Persistence

variable [PythonRuntime] [PersistenceRuntime]

/-! ## The run -/

namespace RunAlertCycle

/-- What the worker of `planned` resolves when it runs alone over `db`. -/
def resolution (cycle : RunAlertCycle) (planned : PlannedQuery)
    (oracle : Oracle CycleCall CycleAnswer) (i : Nat) (db : Store) :
    Ended Store Write CycleCall CycleAnswer PyError (List PropertyId) :=
  (clock.bind fun now => cycle.resolveCandidates planned now).eval (oracle i)
    (.start i) db

end RunAlertCycle

def outcomeIn (oracle : Oracle CycleCall CycleAnswer) (cycle : RunAlertCycle)
    (queries : List PlannedQuery) (db : Store) (order : List Nat) (i : Nat) :
    Except PyError (Bool × Nat) :=
  Sys.serialOutcome oracle (cycle.worker queries) db (order.takeWhile (· ≠ i)) i

def serialReport (oracle : Oracle CycleCall CycleAnswer) (cycle : RunAlertCycle)
    (dueAlerts : List SearchAlert) (db : Store) (order : List Nat) :
    Except PyError RunAlertCycleReport :=
  let queries := plan cycle.capabilities dueAlerts
  report ((List.range queries.length).map (outcomeIn oracle cycle queries db order))

/-- `p` is a candidate of `planned`, as it is stored when the alerts are evaluated. -/
def Candidate (oracle : Oracle CycleCall CycleAnswer) (cycle : RunAlertCycle)
    (planned : PlannedQuery) (i : Nat) (db : Store) (p : Property) : Prop :=
  ∃ propertyIds, (cycle.resolution planned oracle i db).outcome = .ok propertyIds ∧
    p.id ∈ propertyIds ∧ PropertyRepository.get p.id
      ((cycle.resolution planned oracle i db).session.view db) = .ok (some p)

/-! ## Loading candidates -/

theorem mem_loadCandidates {answers : Nat → (request : CycleCall) → CycleAnswer request}
    {propertyIds : List PropertyId} {s : CycleSession} {db : Store}
    {candidates : List Property}
    (h : ((RunAlertCycle.loadCandidates propertyIds).eval answers s db).outcome =
      .ok candidates) (p : Property) :
    p ∈ candidates ↔ ∃ id ∈ propertyIds,
      PropertyRepository.get id (s.view db) = .ok (some p) := by
  have hwp : Txn.wp ⟨fun db' _ _ => db' = db, fun _ _ => True, True⟩
      (fun _ => True) (RunAlertCycle.loadCandidates propertyIds)
      (Txn.onOk fun candidates _ => ∀ p, p ∈ candidates ↔ ∃ id ∈ propertyIds,
        PropertyRepository.get id (s.view db) = .ok (some p)) s := by
    refine Txn.wp_ends_foldEach (fun before candidates s' =>
      s'.pending = s.pending ∧ ∀ p, p ∈ candidates ↔ ∃ id ∈ before,
        PropertyRepository.get id (s.view db) = .ok (some p))
      ?_ (fun _ _ h => h.2) ⟨rfl, by simp⟩
    rintro before id after candidates s' - ⟨hpending, hmem⟩
    refine Txn.wp_ends_bind (P := fun found s' =>
      found = PropertyRepository.get id (s.view db) ∧ s'.pending = s.pending) ?_ ?_
    · rintro _ rfl
      exact ⟨by rw [Session.view, Session.view, hpending], by simp [hpending]⟩
    rintro _ s' ⟨rfl, hpending⟩
    refine Txn.wp_ends_bind (P := fun found s' =>
      PropertyRepository.get id (s.view db) = .ok found ∧ s'.pending = s.pending)
      (Txn.wp_onOk_ofExcept fun found hfound => ⟨hfound, hpending⟩) ?_
    rintro found s' ⟨hfound, hpending⟩
    refine ⟨hpending, fun p => ?_⟩
    simp only [List.mem_append, hmem, Option.mem_toList, List.mem_singleton,
      or_and_right, exists_or, exists_eq_left, hfound, Except.ok.injEq]
  have hpost : Txn.onOk (fun candidates _ => ∀ p, p ∈ candidates ↔
      ∃ id ∈ propertyIds, PropertyRepository.get id (s.view db) = .ok (some p))
      ((RunAlertCycle.loadCandidates propertyIds).eval answers s db).outcome
      ((RunAlertCycle.loadCandidates propertyIds).eval answers s db).session :=
    Txn.eval_of_wp (only_loadCandidates propertyIds) hwp
  rw [h] at hpost
  exact hpost p

/-! ## The effect of a run -/

/--
What a run over `db` adds.  `evaluated alert p` says that the alert was
evaluated at a property that satisfied it, `ran i` that worker `i` ran.
-/
structure Effect (evaluated : SearchAlert → Property → Prop) (ran : Nat → Prop)
    (db after : Store) (owned : OwnedMatches) (queued : List NotificationRow) :
    Prop where
  alertMatches : after.alertMatches = db.alertMatches ++ owned.map (·.1)
  notifications : after.notifications = db.notifications ++ queued
  channels : after.channels = db.channels
  keys : queued.map delivery = owedKeys db owned
  unsent : ∀ n ∈ queued, n.status = .pending
  once : (pairs owned).Nodup
  unmatched : ∀ x ∈ owned, pair x.1 ∉ db.alertMatches.map pair
  drawn : ∀ x ∈ owned, ∃ i op, ran i ∧ x.1.id = .uuid4 i op 0
  distinct : (owned.map (·.1.id)).Nodup
  sound : ∀ x ∈ owned, ∃ alert p, evaluated alert p ∧ x.2 = alert.userId ∧
    pair x.1 = (alert.id, p.id)
  complete : ∀ alert p, evaluated alert p →
    (alert.id, p.id) ∈ after.alertMatches.map pair

omit [PythonRuntime] [PersistenceRuntime] in
theorem owedKeys_congr {db base : Store} (h : db.channels = base.channels)
    (owned : OwnedMatches) : owedKeys db owned = owedKeys base owned := by
  unfold owedKeys channelKeys
  simp only [enabledRows_congr h]

namespace Effect

variable {evaluated evaluated' : SearchAlert → Property → Prop}
  {ran ran' : Nat → Prop} {db mid after : Store} {owned owned' : OwnedMatches}
  {queued queued' : List NotificationRow}

omit [PythonRuntime] [PersistenceRuntime] in
theorem refl (db : Store) :
    Effect (fun _ _ => False) (fun _ => False) db db [] [] where
  alertMatches := by simp
  notifications := by simp
  channels := rfl
  keys := rfl
  unsent := by simp
  once := List.nodup_nil
  unmatched := by simp
  drawn := by simp
  distinct := List.nodup_nil
  sound := by simp
  complete _ _ h := h.elim

omit [PythonRuntime] [PersistenceRuntime] in
theorem trans (h : Effect evaluated ran db mid owned queued)
    (h' : Effect evaluated' ran' mid after owned' queued')
    (hdisjoint : ∀ i, ran i → ¬ran' i) :
    Effect (fun alert p => evaluated alert p ∨ evaluated' alert p)
      (fun i => ran i ∨ ran' i) db after (owned ++ owned') (queued ++ queued') where
  alertMatches := by
    rw [h'.alertMatches, h.alertMatches, List.map_append, List.append_assoc]
  notifications := by rw [h'.notifications, h.notifications, List.append_assoc]
  channels := h'.channels.trans h.channels
  keys := by
    rw [List.map_append, h.keys, h'.keys, owedKeys_congr h.channels, owedKeys,
      owedKeys, owedKeys, List.flatMap_append]
  unsent n hn := (List.mem_append.mp hn).elim (h.unsent n) (h'.unsent n)
  once := by
    rw [pairs, List.map_append, List.nodup_append]
    refine ⟨h.once, h'.once, ?_⟩
    rintro key hkey _ hkey' rfl
    obtain ⟨x, hx, rfl⟩ := List.mem_map.mp hkey
    obtain ⟨x', hx', heq⟩ := List.mem_map.mp hkey'
    refine h'.unmatched x' hx' ?_
    rw [heq, h.alertMatches, List.map_append, List.map_map]
    exact List.mem_append_right _ (List.mem_map_of_mem hx)
  unmatched x hx hmem := by
    obtain hx | hx := List.mem_append.mp hx
    · exact h.unmatched x hx hmem
    · refine h'.unmatched x hx ?_
      rw [h.alertMatches, List.map_append]
      exact List.mem_append_left _ hmem
  drawn x hx := by
    obtain hx | hx := List.mem_append.mp hx
    · obtain ⟨i, op, hran, hid⟩ := h.drawn x hx
      exact ⟨i, op, .inl hran, hid⟩
    · obtain ⟨i, op, hran, hid⟩ := h'.drawn x hx
      exact ⟨i, op, .inr hran, hid⟩
  distinct := by
    rw [List.map_append, List.nodup_append]
    refine ⟨h.distinct, h'.distinct, ?_⟩
    rintro id hid _ hid' rfl
    obtain ⟨x, hx, rfl⟩ := List.mem_map.mp hid
    obtain ⟨x', hx', heq⟩ := List.mem_map.mp hid'
    obtain ⟨i, op, hran, hdrawn⟩ := h.drawn x hx
    obtain ⟨i', op', hran', hdrawn'⟩ := h'.drawn x' hx'
    obtain rfl : i' = i :=
      (Uuid.uuid4.inj (hdrawn'.symm.trans (heq.trans hdrawn))).1
    exact hdisjoint _ hran hran'
  sound x hx := by
    obtain hx | hx := List.mem_append.mp hx
    · obtain ⟨alert, p, hevaluated, hrest⟩ := h.sound x hx
      exact ⟨alert, p, .inl hevaluated, hrest⟩
    · obtain ⟨alert, p, hevaluated, hrest⟩ := h'.sound x hx
      exact ⟨alert, p, .inr hevaluated, hrest⟩
  complete alert p := by
    rintro (hevaluated | hevaluated)
    · rw [h'.alertMatches, List.map_append]
      exact List.mem_append_left _ (h.complete alert p hevaluated)
    · exact h'.complete alert p hevaluated

omit [PythonRuntime] [PersistenceRuntime] in
theorem congr (h : Effect evaluated ran db after owned queued)
    (hevaluated : ∀ alert p, evaluated alert p ↔ evaluated' alert p)
    (hran : ∀ i, ran i → ran' i) : Effect evaluated' ran' db after owned queued where
  alertMatches := h.alertMatches
  notifications := h.notifications
  channels := h.channels
  keys := h.keys
  unsent := h.unsent
  once := h.once
  unmatched := h.unmatched
  drawn x hx := by
    obtain ⟨i, op, hi, hid⟩ := h.drawn x hx
    exact ⟨i, op, hran i hi, hid⟩
  distinct := h.distinct
  sound x hx := by
    obtain ⟨alert, p, hp, hrest⟩ := h.sound x hx
    exact ⟨alert, p, (hevaluated alert p).mp hp, hrest⟩
  complete alert p hp := h.complete alert p ((hevaluated alert p).mpr hp)

end Effect

/-! ## One worker -/

section Workers

variable {oracle : Oracle CycleCall CycleAnswer} {cycle : RunAlertCycle}
  {planned : PlannedQuery} {i : Nat} {db : Store} {created : Nat}

omit [PythonRuntime] [PersistenceRuntime] in
theorem outcome_recordFailure_ne (answers : Nat → (request : CycleCall) →
    CycleAnswer request) (planned : PlannedQuery) (error : String) (now : DateTime)
    (s : CycleSession) (db : Store) :
    ((RunAlertCycle.recordFailure planned error now).eval answers s db).outcome ≠
      .ok (true, created) := by
  intro h
  obtain ⟨finishedAt, -, heq⟩ := Txn.eval_bind_ok h
  obtain ⟨_, -, heq'⟩ := Txn.eval_bind_ok
    ((congrArg Ended.outcome heq).symm.trans h)
  obtain ⟨_, -, heq''⟩ := Txn.eval_bind_ok
    ((congrArg Ended.outcome (heq.trans heq')).symm.trans h)
  have hend := (congrArg Ended.outcome (heq.trans (heq'.trans heq''))).symm.trans h
  simp [Txn.eval] at hend

theorem eval_runOne_ok
    (h : ((cycle.runOne planned).eval (oracle i) (.start i) db).outcome =
      .ok (true, created)) :
    ∃ propertyIds, (cycle.resolution planned oracle i db).outcome = .ok propertyIds ∧
      (cycle.runOne planned).eval (oracle i) (.start i) db =
        (cycle.persistMatches planned propertyIds (oracle i 0 .clock)).eval
          (oracle i) (cycle.resolution planned oracle i db).session db := by
  have hstore : (cycle.resolution planned oracle i db).store = db :=
    Txn.store_eval_of_only (only_resolveCandidates cycle planned _) _ _
  obtain ⟨outcome, houtcome, heq⟩ := Txn.eval_bind_ok (p :=
    (cycle.resolveCandidates planned (oracle i 0 .clock)).attempt) (s :=
      (Session.start i).answered .clock (oracle i 0 .clock)) h
  rw [Txn.eval_attempt] at houtcome heq
  have hresolved : (cycle.resolution planned oracle i db).outcome = outcome :=
    Except.ok.inj houtcome
  replace heq : (cycle.runOne planned).eval (oracle i) (.start i) db =
      Txn.eval (oracle i) _ (cycle.resolution planned oracle i db).session
        (cycle.resolution planned oracle i db).store := heq
  rw [hstore] at heq
  have h' := (congrArg Ended.outcome heq).symm.trans h
  cases outcome with
  | ok propertyIds => exact ⟨propertyIds, hresolved, heq⟩
  | error error =>
      cases error with
      | scraperError error => exact absurd h' (outcome_recordFailure_ne _ _ _ _ _ _)
      | _ => simp [Txn.eval] at h'

def aloneRely (db : Store) : CycleRely :=
  ⟨fun db' _ _ => db' = db, fun _ _ => True, True⟩

theorem owned_resolution (cycle : RunAlertCycle) (planned : PlannedQuery)
    (oracle : Oracle CycleCall CycleAnswer) (i : Nat) (db : Store) :
    Owned (aloneRely db) db i 0 (cycle.resolution planned oracle i db).session [] := by
  have hwp : Txn.wp (aloneRely db) (fun _ => True)
      (cycle.resolveCandidates planned (oracle i 0 .clock))
      (fun _ s => Owned (aloneRely db) db i 0 s [])
      ((Session.start i).answered .clock (oracle i 0 .clock)) :=
    wp_owned_of_only (by decide) (only_resolveCandidates cycle planned _)
      ((Owned.start (aloneRely db) db i).answered .clock _)
  exact Txn.eval_of_wp (only_resolveCandidates cycle planned _) hwp

omit [PersistenceRuntime] in
theorem effect_commit {registry : FieldRegistry} {candidates : List Property}
    {alerts : List SearchAlert} {s : CycleSession} {owned : OwnedMatches}
    (howned : Owned (aloneRely db) db i 0 s owned)
    (hrecorded : Recorded (aloneRely db) registry candidates alerts i 0 owned) :
    Effect (fun alert p => alert ∈ alerts ∧ p ∈ candidates ∧
        AlertEngine.Satisfies registry p alert)
      (· = i) db (applyAll s.pending db) owned
      (insertedNotifications s.pending) where
  alertMatches := howned.queue.view_alertMatches db
  notifications := notifications_eq howned.queue.appends db
  channels := channels_applyAll _ _
  keys := howned.queue.notified
  unsent := howned.queue.unsent
  once := howned.once
  unmatched x hx := by
    obtain ⟨_, rfl, hunseen⟩ := howned.unseen x hx
    exact hunseen
  drawn x hx := by
    obtain ⟨op, -, -, hid⟩ := howned.queue.drawn x.1 (List.mem_map_of_mem hx)
    exact ⟨i, op, rfl, by rw [hid, howned.txn_eq]⟩
  distinct := by
    have hdistinct := howned.queue.distinct
    rw [List.map_map] at hdistinct
    exact hdistinct
  sound x hx := by
    obtain ⟨alert, halert, howner, p, hp, hsatisfies, hpair⟩ := hrecorded.sound x hx
    exact ⟨alert, p, ⟨halert, hp, hsatisfies⟩, howner, hpair⟩
  complete alert p h := by
    rw [← Session.view, howned.queue.view_alertMatches, List.map_append,
      List.mem_append, List.map_map]
    obtain hkey | ⟨_, rfl, hkey⟩ := hrecorded.complete alert h.1 p h.2.1 h.2.2
    · exact .inr hkey
    · exact .inl hkey

theorem candidate_iff {propertyIds : List PropertyId} {candidates : List Property}
    (hids : (cycle.resolution planned oracle i db).outcome = .ok propertyIds)
    (hcandidates : ((RunAlertCycle.loadCandidates propertyIds).eval (oracle i)
      (cycle.resolution planned oracle i db).session db).outcome = .ok candidates)
    (p : Property) :
    p ∈ candidates ↔ Candidate oracle cycle planned i db p := by
  rw [mem_loadCandidates hcandidates]
  constructor
  · rintro ⟨id, hid, hget⟩
    obtain rfl := PropertyRepository.id_of_get hget
    exact ⟨propertyIds, hids, hid, hget⟩
  · rintro ⟨propertyIds', hids', hid, hget⟩
    obtain rfl : propertyIds = propertyIds' := Except.ok.inj (hids.symm.trans hids')
    exact ⟨p.id, hid, hget⟩

theorem effect_runOne (hchannels : (db.channels.map (·.id)).Nodup)
    (hfresh : ∀ n ∈ db.notifications, ∀ op, n.matchId ≠ .uuid4 i op 0)
    (h : ((cycle.runOne planned).eval (oracle i) (.start i) db).outcome =
      .ok (true, created)) :
    ∃ owned queued, created = owned.length ∧
      Effect (fun alert p => alert ∈ planned.alerts ∧
          Candidate oracle cycle planned i db p ∧
          AlertEngine.Satisfies cycle.registry p alert)
        (· = i) db ((cycle.runOne planned).eval (oracle i) (.start i) db).store
        owned queued := by
  obtain ⟨propertyIds, hids, heq⟩ := eval_runOne_ok h
  rw [heq] at h ⊢
  have howned := owned_resolution cycle planned oracle i db
  have hknows : ∀ db', (aloneRely db).store db' i 0 → Knows db db' i 0 := by
    rintro _ rfl
    exact ⟨rfl, fun n hn op _ => hfresh n hn op⟩
  have hload : Txn.wp (aloneRely db) (fun _ => True)
      (RunAlertCycle.loadCandidates propertyIds)
      (fun _ s => Owned (aloneRely db) db i 0 s [])
      (cycle.resolution planned oracle i db).session :=
    wp_owned_of_only (by simp) (only_loadCandidates propertyIds) howned
  obtain ⟨candidates, s₁, hcandidates, howned₁, heq₁⟩ :=
    Txn.eval_bind_of_wp (only_loadCandidates propertyIds) hload h
  replace h := (congrArg Ended.outcome heq₁).symm.trans h
  have hpersist : Txn.wp (aloneRely db) (fun _ => True)
      (cycle.evaluateAndPersist planned.alerts candidates (oracle i 0 .clock)) _ s₁ :=
    wp_evaluateAndPersist hknows hchannels cycle _ candidates _ howned₁
  obtain ⟨count, s₂, -, ⟨owned, rfl, howned₂, hrecorded⟩, heq₂⟩ :=
    Txn.eval_bind_of_wp (only_evaluateAndPersist cycle _ candidates _) hpersist h
  replace h := (congrArg Ended.outcome heq₂).symm.trans h
  refine ⟨owned, insertedNotifications s₂.pending, ?_⟩
  cases hadmits : Database.admits db s₂.pending with
  | false => simp [Txn.eval, Txn.commitOr, Txn.bind, hadmits] at h
  | true =>
      have hend : (cycle.persistMatches planned propertyIds (oracle i 0 .clock)).eval
          (oracle i) (cycle.resolution planned oracle i db).session db =
            ⟨.ok (true, owned.length), s₂.committed, applyAll s₂.pending db⟩ := by
        refine (heq₁.trans heq₂).trans ?_
        simp [Txn.eval, Txn.commitOr, Txn.bind, hadmits]
      simp [Txn.eval, Txn.commitOr, Txn.bind, hadmits] at h
      rw [hend]
      exact ⟨h.symm, (effect_commit howned₂ hrecorded).congr
        (fun alert p => by rw [candidate_iff hids hcandidates]) fun _ h => h⟩

end Workers

/-! ## All workers -/

def Evaluated (oracle : Oracle CycleCall CycleAnswer) (cycle : RunAlertCycle)
    (queries : List PlannedQuery) (db : Store) (order : List Nat)
    (alert : SearchAlert) (p : Property) : Prop :=
  ∃ before i after planned, order = before ++ i :: after ∧
    queries[i]? = some planned ∧ alert ∈ planned.alerts ∧
    Candidate oracle cycle planned i
      (Sys.serialStore oracle (cycle.worker queries) db before) p ∧
    AlertEngine.Satisfies cycle.registry p alert

theorem outcomeIn_append {oracle : Oracle CycleCall CycleAnswer}
    {cycle : RunAlertCycle} {queries : List PlannedQuery} {db : Store}
    {before after : List Nat} {i : Nat} (hnodup : (before ++ i :: after).Nodup) :
    outcomeIn oracle cycle queries db (before ++ i :: after) i =
      Sys.serialOutcome oracle (cycle.worker queries) db before i := by
  have hne : ∀ j ∈ before, decide (j ≠ i) = true := fun j hj =>
    decide_eq_true ((List.nodup_append.mp hnodup).2.2 j hj i (.head _))
  have hbefore : (before ++ i :: after).takeWhile (· ≠ i) = before := by
    rw [List.takeWhile_append_of_pos hne]
    simp
  rw [outcomeIn, hbefore]

/-- Some interleaving of the workers runs them in the given order. -/
theorem exists_schedule_of_order (oracle : Oracle CycleCall CycleAnswer)
    (cycle : RunAlertCycle) (queries : List PlannedQuery) (db : Store)
    {order : List Nat} (hnodup : order.Nodup) :
    ∃ schedule, ((Sys.start db (cycle.worker queries)).run oracle schedule).store =
        Sys.serialStore oracle (cycle.worker queries) db order ∧
      ∀ i ∈ order, ((Sys.start db (cycle.worker queries)).run oracle
        schedule).Finished i (outcomeIn oracle cycle queries db order i) := by
  obtain ⟨schedule, hstore, houtcomes, -⟩ :=
    Sys.exists_serial_schedule oracle (cycle.worker queries) db order hnodup
  refine ⟨schedule, hstore, fun i hi => ?_⟩
  obtain ⟨before, after, rfl⟩ := List.append_of_mem hi
  rw [outcomeIn_append hnodup]
  exact houtcomes before i after rfl

section Runs

variable {oracle : Oracle CycleCall CycleAnswer} {cycle : RunAlertCycle}
  {queries : List PlannedQuery} {db : Store}

theorem evaluated_concat {order : List Nat} {i : Nat} {planned : PlannedQuery}
    (hplanned : queries[i]? = some planned) (alert : SearchAlert) (p : Property) :
    Evaluated oracle cycle queries db (order ++ [i]) alert p ↔
      Evaluated oracle cycle queries db order alert p ∨
        (alert ∈ planned.alerts ∧ Candidate oracle cycle planned i
            (Sys.serialStore oracle (cycle.worker queries) db order) p ∧
          AlertEngine.Satisfies cycle.registry p alert) := by
  constructor
  · rintro ⟨before, j, after, planned', horder, hplanned', hevaluated⟩
    obtain ⟨rfl, rfl, rfl⟩ | ⟨rest, rfl, rfl⟩ :=
      append_singleton_eq_append_cons.mp horder
    · obtain rfl := Option.some.inj (hplanned'.symm.trans hplanned)
      exact .inr hevaluated
    · exact .inl ⟨before, j, rest, planned', rfl, hplanned', hevaluated⟩
  · rintro (⟨before, j, after, planned', rfl, hplanned', hevaluated⟩ | hevaluated)
    · exact ⟨before, j, after ++ [i], planned', by simp, hplanned', hevaluated⟩
    · exact ⟨order, i, [], planned, rfl, hplanned, hevaluated⟩

omit [PythonRuntime] [PersistenceRuntime] in
theorem Effect.fresh {evaluated : SearchAlert → Property → Prop}
    {ran : Nat → Prop} {mid : Store} {owned : OwnedMatches}
    {queued : List NotificationRow} (h : Effect evaluated ran db mid owned queued)
    (hfresh : FreshStore db) {i : Nat} (hi : ¬ran i) :
    ∀ n ∈ mid.notifications, ∀ op, n.matchId ≠ .uuid4 i op 0 := by
  intro n hn op hid
  rw [h.notifications] at hn
  obtain hn | hn := List.mem_append.mp hn
  · obtain ⟨row, hrow, hmatch⟩ := hfresh.foreignKey n hn
    exact hfresh.notDrawn row hrow i op (hmatch.trans hid)
  · have hkey : delivery n ∈ owedKeys db owned := by
      rw [← h.keys]
      exact List.mem_map_of_mem hn
    obtain ⟨x, hx, hmatch, -⟩ := mem_owedKeys hkey
    obtain ⟨j, op', hran, hdrawn⟩ := h.drawn x hx
    obtain rfl : j = i :=
      (Uuid.uuid4.inj (hdrawn.symm.trans (hmatch.symm.trans hid))).1
    exact hi hran

theorem effect_serial (hfresh : FreshStore db) {order : List Nat}
    (hnodup : order.Nodup) (hlt : ∀ i ∈ order, i < queries.length)
    {counts : Nat → Nat}
    (houtcomes : ∀ before i after, order = before ++ i :: after →
      Sys.serialOutcome oracle (cycle.worker queries) db before i =
        .ok (true, counts i)) :
    ∃ owned queued, owned.length = (order.map counts).sum ∧
      Effect (Evaluated oracle cycle queries db order) (· ∈ order) db
        (Sys.serialStore oracle (cycle.worker queries) db order) owned queued := by
  induction order using List.reverseRecOn with
  | nil =>
      refine ⟨[], [], rfl, (Effect.refl db).congr (fun alert p => ?_) (by simp)⟩
      simp [Evaluated]
  | append_singleton order i ih =>
      obtain ⟨hnodup, -, hdisjoint⟩ := List.nodup_append.mp hnodup
      obtain ⟨owned, queued, hlength, heffect⟩ := ih hnodup
        (fun j hj => hlt j (List.mem_append_left _ hj))
        fun before j after h => houtcomes before j (after ++ [i]) (by simp [h])
      have hi : i ∉ order := fun hmem => hdisjoint i hmem i (.head _) rfl
      obtain ⟨planned, hplanned⟩ : ∃ planned, queries[i]? = some planned :=
        ⟨_, List.getElem?_eq_getElem (hlt i (by simp))⟩
      have hworker : cycle.worker queries i = cycle.runOne planned := by
        rw [RunAlertCycle.worker, hplanned]
      have houtcome := houtcomes order i [] rfl
      rw [Sys.serialOutcome, Sys.alone, hworker] at houtcome
      have hchannels := hfresh.channelKey
      rw [← heffect.channels] at hchannels
      obtain ⟨owned', queued', hlength', heffect'⟩ :=
        effect_runOne hchannels (heffect.fresh hfresh hi) houtcome
      refine ⟨owned ++ owned', queued ++ queued', by simp [hlength, hlength'], ?_⟩
      rw [Sys.serialStore_concat, Sys.alone, hworker]
      refine (heffect.trans heffect' fun j hj heq => hi (heq ▸ hj)).congr
        (fun alert p => (evaluated_concat hplanned alert p).symm) fun j hj => ?_
      exact List.mem_append.mpr (hj.imp_right List.mem_singleton.mpr)

def matchCount : Except PyError (Bool × Nat) → Nat
  | .ok (_, count) => count
  | .error _ => 0

omit [PythonRuntime] [PersistenceRuntime] in
theorem report_eq_ok {outcomes : List (Except PyError (Bool × Nat))}
    {summary : RunAlertCycleReport} (h : report outcomes = .ok summary)
    (hfailed : summary.queriesFailed = 0) :
    (∀ outcome ∈ outcomes, outcome = .ok (true, matchCount outcome)) ∧
      summary.matchesCreated = (outcomes.map matchCount).sum := by
  obtain ⟨values, hvalues, h⟩ := bind_eq_ok.mp h
  obtain rfl := pure_eq_ok.mp h
  obtain rfl := mapM_id_eq_ok.mp hvalues
  have hsucceeded : ∀ value ∈ values, value.1 = true := by
    simpa [List.filter_eq_nil_iff] using hfailed
  constructor
  · intro outcome houtcome
    obtain ⟨value, hvalue, rfl⟩ := List.mem_map.mp houtcome
    rw [matchCount, ← hsucceeded value hvalue]
  · rw [List.map_map]
    rfl

end Runs

/-! ## Correctness -/

/-- The channels and the states of the notifications of a match. -/
def notified (db : Store) (matchId : MatchId) :
    List (ChannelId × NotificationStatus) :=
  (db.notifications.filter (·.matchId = matchId)).map
    fun n => (n.channelId, n.status)

/--
What a run of `queries` that leads from `db` to `after` is for.  `new` are the
matches that it adds, `evaluated alert p` says that the alert was evaluated at
a candidate of one of its queries that satisfied it.
-/
structure CycleCorrect (evaluated : SearchAlert → Property → Prop)
    (db after : Store) (created : Nat) : Prop where
  matched : ∀ alertId propertyId,
    (alertId, propertyId) ∈ after.alertMatches.map pair ↔
      (alertId, propertyId) ∈ db.alertMatches.map pair ∨
        ∃ alert p, evaluated alert p ∧ alert.id = alertId ∧ p.id = propertyId
  kept : ∀ row ∈ db.alertMatches, (after.notifications.filter
    (·.matchId = row.id)) = db.notifications.filter (·.matchId = row.id)
  added : ∃ new : List MatchRow, after.alertMatches = db.alertMatches ++ new ∧
    created = new.length ∧ (new.map pair).Nodup ∧
    (∀ row ∈ new, pair row ∉ db.alertMatches.map pair) ∧
    ∀ row ∈ new, ∃ alert p, evaluated alert p ∧ pair row = (alert.id, p.id) ∧
      notified after row.id = (NotificationChannelRepository.enabledRows
        alert.userId db).map fun channel => (channel.id, .pending)

omit [PythonRuntime] [PersistenceRuntime] in
theorem filter_channelKeys (base : Store) (matchId id : MatchId) (userId : UserId) :
    (channelKeys base matchId userId).filter (·.1 = id) =
      if matchId = id then channelKeys base matchId userId else [] := by
  unfold channelKeys
  split
  · next h =>
    refine List.filter_eq_self.mpr fun key hkey => ?_
    obtain ⟨channel, -, rfl⟩ := List.mem_map.mp hkey
    simpa using h
  · next h =>
    refine List.filter_eq_nil_iff.mpr fun key hkey => ?_
    obtain ⟨channel, -, rfl⟩ := List.mem_map.mp hkey
    simpa using h

omit [PythonRuntime] [PersistenceRuntime] in
theorem filter_owedKeys {base : Store} {owned : OwnedMatches}
    (hdistinct : (owned.map (·.1.id)).Nodup) {x : MatchRow × UserId}
    (hx : x ∈ owned) :
    (owedKeys base owned).filter (·.1 = x.1.id) = channelKeys base x.1.id x.2 := by
  induction owned with
  | nil => simp at hx
  | cons y owned ih =>
      rw [List.map_cons, List.nodup_cons] at hdistinct
      obtain ⟨hy, hdistinct⟩ := hdistinct
      rw [owedKeys, List.flatMap_cons, List.filter_append, filter_channelKeys]
      obtain rfl | hx := List.mem_cons.mp hx
      · have hrest : (owedKeys base owned).filter (·.1 = x.1.id) = [] := by
          refine List.filter_eq_nil_iff.mpr fun key hkey => ?_
          obtain ⟨z, hz, hid, -⟩ := mem_owedKeys hkey
          have hne : z.1.id ≠ x.1.id := fun heq =>
            hy (heq ▸ List.mem_map_of_mem hz)
          simpa [hid] using hne
        rw [if_pos rfl]
        exact (congrArg _ hrest).trans (List.append_nil _)
      · have hne : y.1.id ≠ x.1.id := fun heq =>
          hy (heq ▸ List.mem_map_of_mem hx)
        rw [if_neg hne, List.nil_append]
        exact ih hdistinct hx

section Correctness

variable {evaluated : SearchAlert → Property → Prop} {ran : Nat → Prop}
  {db after : Store} {owned : OwnedMatches} {queued : List NotificationRow}

omit [PythonRuntime] [PersistenceRuntime] in
theorem Effect.notified_eq (h : Effect evaluated ran db after owned queued)
    (hfresh : FreshStore db) {x : MatchRow × UserId} (hx : x ∈ owned) :
    notified after x.1.id = (NotificationChannelRepository.enabledRows x.2 db).map
      fun channel => (channel.id, .pending) := by
  have hold : db.notifications.filter (·.matchId = x.1.id) = [] := by
    refine List.filter_eq_nil_iff.mpr fun n hn => ?_
    obtain ⟨row, hrow, hmatch⟩ := hfresh.foreignKey n hn
    obtain ⟨i, op, -, hdrawn⟩ := h.drawn x hx
    have hne : n.matchId ≠ x.1.id := fun heq =>
      hfresh.notDrawn row hrow i op (hmatch.trans (heq.trans hdrawn))
    simpa using hne
  have hkeys : (queued.filter (·.matchId = x.1.id)).map delivery =
      channelKeys db x.1.id x.2 := by
    rw [← filter_owedKeys h.distinct hx, ← h.keys, List.filter_map]
    rfl
  have hpending : (queued.filter (·.matchId = x.1.id)).map
      (fun n => (n.channelId, n.status)) =
        ((queued.filter (·.matchId = x.1.id)).map delivery).map
          fun key => (key.2, NotificationStatus.pending) := by
    rw [List.map_map]
    refine List.map_congr_left fun n hn => ?_
    rw [h.unsent n (List.mem_of_mem_filter hn)]
    rfl
  rw [notified, h.notifications, List.filter_append, hold, List.nil_append,
    hpending, hkeys, channelKeys, List.map_map]
  rfl

omit [PythonRuntime] [PersistenceRuntime] in
theorem Effect.cycleCorrect (h : Effect evaluated ran db after owned queued)
    (hfresh : FreshStore db) :
    CycleCorrect evaluated db after owned.length where
  matched alertId propertyId := by
    constructor
    · intro hmem
      rw [h.alertMatches, List.map_append, List.mem_append, List.map_map] at hmem
      refine hmem.imp_right fun hnew => ?_
      obtain ⟨x, hx, heq⟩ := List.mem_map.mp hnew
      obtain ⟨alert, p, hp, -, hpair⟩ := h.sound x hx
      have hkey := hpair.symm.trans heq
      exact ⟨alert, p, hp, congrArg Prod.fst hkey, congrArg Prod.snd hkey⟩
    · rintro (hmem | ⟨alert, p, hp, rfl, rfl⟩)
      · rw [h.alertMatches, List.map_append]
        exact List.mem_append_left _ hmem
      · exact h.complete alert p hp
  kept row hrow := by
    have hnone : queued.filter (·.matchId = row.id) = [] := by
      refine List.filter_eq_nil_iff.mpr fun n hn => ?_
      have hkey : delivery n ∈ owedKeys db owned := by
        rw [← h.keys]
        exact List.mem_map_of_mem hn
      obtain ⟨x, hx, hid, -⟩ := mem_owedKeys hkey
      obtain ⟨i, op, -, hdrawn⟩ := h.drawn x hx
      have hne : n.matchId ≠ row.id := fun heq =>
        hfresh.notDrawn row hrow i op (heq.symm.trans (hid.trans hdrawn))
      simpa using hne
    rw [h.notifications, List.filter_append, hnone, List.append_nil]
  added := by
    refine ⟨owned.map (·.1), h.alertMatches, (List.length_map _).symm, ?_, ?_, ?_⟩
    · rw [List.map_map]
      exact h.once
    · intro row hrow
      obtain ⟨x, hx, rfl⟩ := List.mem_map.mp hrow
      exact h.unmatched x hx
    · intro row hrow
      obtain ⟨x, hx, rfl⟩ := List.mem_map.mp hrow
      obtain ⟨alert, p, hp, howner, hpair⟩ := h.sound x hx
      exact ⟨alert, p, hp, hpair, howner ▸ h.notified_eq hfresh hx⟩

end Correctness

/--
Cycle correctness.  When the workers of the due alerts run one after another in
any order, which is one of their schedules, and no query fails, the run adds exactly
the matches it should, each with one pending notification for each enabled channel of
the owner, adds no notification to a match that was there, and reports the number of
new matches.
-/
theorem serial_cycle_correct (oracle : Oracle CycleCall CycleAnswer)
    (cycle : RunAlertCycle) (dueAlerts : List SearchAlert) {db : Store}
    (hfresh : FreshStore db) {order : List Nat}
    (horder : order.Perm
      (List.range (plan cycle.capabilities dueAlerts).length))
    {summary : RunAlertCycleReport}
    (hreport : serialReport oracle cycle dueAlerts db order = .ok summary)
    (hfailed : summary.queriesFailed = 0) :
    let queries := plan cycle.capabilities dueAlerts
    let after := Sys.serialStore oracle (cycle.worker queries) db order
    CycleCorrect (Evaluated oracle cycle queries db order) db after
        summary.matchesCreated ∧
      ∃ schedule, ((Sys.start db (cycle.worker queries)).run oracle schedule).store = after ∧
        ∀ i ∈ order, ((Sys.start db (cycle.worker queries)).run oracle
          schedule).Finished i (outcomeIn oracle cycle queries db order i) := by
  intro queries after
  have hnodup : order.Nodup := horder.nodup_iff.mpr List.nodup_range
  refine ⟨?_, exists_schedule_of_order oracle cycle queries db hnodup⟩
  rw [serialReport] at hreport
  obtain ⟨hsucceeded, hcreated⟩ := report_eq_ok hreport hfailed
  have hlt : ∀ i ∈ order, i < queries.length := fun i hi =>
    List.mem_range.mp (horder.mem_iff.mp hi)
  have houtcomes : ∀ before i after, order = before ++ i :: after →
      Sys.serialOutcome oracle (cycle.worker queries) db before i =
        .ok (true, matchCount (outcomeIn oracle cycle queries db order i)) := by
    rintro before i after rfl
    have hi := hsucceeded _ (List.mem_map_of_mem
      (List.mem_range.mpr (hlt i (by simp))))
    rw [← hi, outcomeIn_append hnodup]
  obtain ⟨owned, queued, hlength, heffect⟩ :=
    effect_serial hfresh hnodup hlt houtcomes
  have hsum : summary.matchesCreated = owned.length := by
    rw [hcreated, hlength, List.map_map]
    exact ((horder.map _).sum_eq).symm
  rw [hsum]
  exact heffect.cycleCorrect hfresh

omit [PythonRuntime] [PersistenceRuntime] in
/-- The sales alert on a second portal. -/
def bothPortals : SearchAlert :=
  { Alerts.salesAlert with
    portalSlugs := .ofList ["fotocasa", "idealista"]
    monitored := by decide }

/-- Both portals show the flat, the first one twice on its page. -/
def repeatingOracle : Oracle CycleCall CycleAnswer := fun i op request =>
  match request with
  | .fetch query => if query.portalSlug = "idealista" then
      .ok [flatListing "SALE", flatListing "SALE"]
    else .ok [{ flatListing "SALE" with portalSlug := query.portalSlug }]
  | .normalize _ listing => normalizeFlat listing
  | request => quietOracle i op request

def unscrapedStore : Store := { cachedStore with properties := [], caches := [] }

omit [PythonRuntime] [PersistenceRuntime] in
theorem freshStore_unscrapedStore : FreshStore unscrapedStore :=
  ⟨freshStore_cachedStore.channelKey, freshStore_cachedStore.foreignKey,
    freshStore_cachedStore.notDrawn⟩

omit [PythonRuntime] [PersistenceRuntime] in
theorem serial_cycle_correct_repeated :
    let queries := @plan .plain salesCycle.capabilities [bothPortals]
    let worker := @RunAlertCycle.worker .plain .plain salesCycle queries
    let after := Sys.serialStore repeatingOracle worker unscrapedStore [1, 0]
    CycleCorrect (@Evaluated .plain .plain repeatingOracle salesCycle queries unscrapedStore
        [1, 0]) unscrapedStore after 1 ∧
      ∃ schedule, ((Sys.start unscrapedStore worker).run repeatingOracle schedule).store =
          after ∧
        ∀ i ∈ [1, 0], ((Sys.start unscrapedStore worker).run repeatingOracle
          schedule).Finished i (@outcomeIn .plain .plain repeatingOracle salesCycle queries
            unscrapedStore [1, 0] i) :=
  @serial_cycle_correct .plain .plain repeatingOracle salesCycle [bothPortals]
    unscrapedStore freshStore_unscrapedStore [1, 0] (by decide) ⟨2, 2, 0, 1⟩ (by rfl) rfl

end RealEstateTracker.Cycle
