import RealEstateTracker.Cycle.AtMostOnce
import RealEstateTracker.Cycle.CalmWorkers
import RealEstateTracker.Cycle.ExecutionRows

/-!
# Failure isolation

Only a `ScraperError` out of resolving the candidates is caught.  A run in
which nothing else is raised returns a report, and a failed query leaves one
row behind and no trace in the others.
-/

namespace RealEstateTracker.Cycle

open Foundation Domain Application Persistence

def NormalizesCalmly (request : CycleCall) (answer : CycleAnswer request) : Prop :=
  match request, answer with
  | .normalize _ _, .error (.scraperError _) => False
  | _, _ => True

def HasPortals (queries : List PlannedQuery) (db : Store) (_ _ : Nat) : Prop :=
  ∀ planned ∈ queries, planned.portalSlug ∈ db.portals

def isolationRely (queries : List PlannedQuery) : Rely Store CycleCall CycleAnswer :=
  ⟨HasPortals queries, NormalizesCalmly, True⟩

/-- The session has committed nothing and holds no foreign execution row. -/
structure Uncommitted (i : Nat) (s : Session Write CycleCall CycleAnswer) : Prop where
  txn_eq : s.txn = i
  history : s.history = []
  executions : OwnExecutions s

def NoScraperError (error : PyError) : Prop :=
  ∀ message, error ≠ .scraperError message

section Sessions

variable {i : Nat} {s : Session Write CycleCall CycleAnswer}

theorem Uncommitted.start (i : Nat) : Uncommitted i (.start i) :=
  ⟨rfl, rfl, fun row hrow => by simp at hrow⟩

theorem Uncommitted.answered (h : Uncommitted i s) (request : CycleCall)
    (answer : CycleAnswer request) : Uncommitted i (s.answered request answer) :=
  ⟨h.txn_eq, h.history, h.executions⟩

theorem Uncommitted.wrote (h : Uncommitted i s) {writes : List Write}
    (hwrites : ∀ w ∈ writes, w.table ∉ [Table.executions]) :
    Uncommitted i (s.wrote writes) := by
  refine ⟨h.txn_eq, h.history, fun row hrow => ?_⟩
  obtain hrow | hrow := List.mem_append.mp hrow
  · exact h.executions row hrow
  · exact absurd (.head _) (hwrites _ hrow)

theorem Uncommitted.recorded (h : Uncommitted i s)
    (attempt : SearchExecutionRepository.Attempt) (db : Store) :
    Uncommitted i (s.wrote
      (SearchExecutionRepository.recordWrites attempt s.stamp db)) := by
  refine ⟨h.txn_eq, h.history, fun row hrow => ?_⟩
  obtain hrow | hrow := List.mem_append.mp hrow
  · exact h.executions row hrow
  · obtain hrow | hrow := List.mem_append.mp hrow
    · have htables : InTables [.portals] (.insertExecution row) :=
        allIn_portalWrites (.head _) _ _ _ hrow
      simp [InTables, Write.table] at htables
    · obtain rfl := Write.insertExecution.inj (List.mem_singleton.mp hrow)
      exact ⟨s.ops, rfl⟩

end Sessions

/-! ## Resolving candidates -/

section Workers

variable [PythonRuntime] [PersistenceRuntime] {i : Nat} {planned : PlannedQuery}
  {queries : List PlannedQuery} {s : Session Write CycleCall CycleAnswer}

omit [PythonRuntime] in
theorem wp_addProperty (h : Uncommitted i s) (prop : Property) :
    Txn.wp (isolationRely queries) OwnExecutions (addProperty prop)
      (Txn.ends NoScraperError fun _ s => Uncommitted i s) s := by
  refine Txn.wp_ends_bind (P := fun _ s => Uncommitted i s)
    (fun now _ => h.answered .utcNow now) fun now s h => ?_
  refine Txn.wp_ends_bind (P := fun _ s => Uncommitted i s)
    (Txn.wp_ends_ofExcept (fun error heq message herror => ?_) fun _ _ => h)
    fun row s h db _ => h.wrote ?_
  · exact PropertyRepository.toModel_ne_scraperError prop now message (herror ▸ heq)
  · exact (allIn_addWrites_property _ _ _ _ _).not_mem (by decide)

theorem wp_storeListing (h : Uncommitted i s) (listing : RawListing)
    (resolved : Resolved) (result : NormalizationResult) :
    Txn.wp (isolationRely queries) OwnExecutions
      (storeListing listing resolved result)
      (Txn.ends NoScraperError fun _ s => Uncommitted i s) s := by
  unfold storeListing
  dsimp only
  split
  · exact h
  · next prop _ =>
    refine Txn.wp_ends_bind (wp_addProperty h prop) fun _ s h db _ => h.wrote ?_
    exact (allIn_upsertWrites _ _ _ _ _).not_mem (by decide)

theorem wp_resolveListing (h : Uncommitted i s) (portalSlug : String)
    (resolved : Resolved) (listing : RawListing) :
    Txn.wp (isolationRely queries) OwnExecutions
      (resolveListing portalSlug resolved listing)
      (Txn.ends NoScraperError fun _ s => Uncommitted i s) s := by
  refine Txn.wp_ends_bind (P := fun _ s => Uncommitted i s)
    (fun db _ => h.wrote (by simp)) fun unchanged s h => ?_
  cases unchanged with
  | some propertyId => exact h
  | none =>
      refine Txn.wp_ends_bind (P := fun _ s => Uncommitted i s) ?_ ?_
      · intro answer hanswer
        refine Txn.wp_ends_ofExcept (fun error heq message herror => ?_)
          fun _ _ => h.answered _ answer
        rw [heq, herror] at hanswer
        exact hanswer
      · exact fun result s h => wp_storeListing h listing resolved result

def resolvedPost {α : Type} (i : Nat) :
    Except PyError α → Session Write CycleCall CycleAnswer → Prop
  | .ok _, s => Uncommitted i s
  | .error (.scraperError _), s => Uncommitted i s ∧ s.pending = []
  | .error _, _ => True

omit [PythonRuntime] [PersistenceRuntime] in
theorem resolvedPost_error {α : Type} (h : Uncommitted i s) (hpending : s.pending = [])
    (error : PyError) : resolvedPost i (.error error : Except PyError α) s := by
  cases error with
  | scraperError => exact ⟨h, hpending⟩
  | _ => trivial

omit [PythonRuntime] [PersistenceRuntime] in
theorem resolvedPost_of_ends {α : Type} {outcome : Except PyError α}
    (h : Txn.ends NoScraperError (fun _ s => Uncommitted i s) outcome s) :
    resolvedPost i outcome s := by
  rcases outcome with (error | value)
  · cases error with
    | scraperError message => exact absurd rfl (h message)
    | _ => trivial
  · exact h

theorem wp_scraped (cycle : RunAlertCycle) (listings : List RawListing)
    (now : DateTime) (h : Uncommitted i s) :
    Txn.wp (isolationRely queries) OwnExecutions
      (do
        let resolved ← Txn.foldEach listings ⟨[], 0, 0⟩
          (resolveListing planned.portalSlug)
        Txn.exec fun _ => SearchCacheRepository.putWrites planned.signature
          planned.portalSlug resolved.propertyIds now cycle.cacheTtlSeconds
        let finishedAt ← clock
        recordExecution (successAttempt planned listings resolved now finishedAt)
        return resolved.propertyIds)
      (Txn.ends NoScraperError fun _ s => Uncommitted i s) s := by
  refine Txn.wp_ends_bind (Txn.wp_ends_foldEach (fun _ _ s => Uncommitted i s)
    (fun _ listing _ resolved s _ h => wp_resolveListing h _ resolved listing)
    (fun _ _ h => h) h) fun resolved s h => ?_
  refine Txn.wp_ends_bind (P := fun _ s => Uncommitted i s)
    (fun db _ => h.wrote ((allIn_putWrites _ _ _ _ _ _).not_mem (by decide)))
    fun _ s h => ?_
  refine Txn.wp_ends_bind (P := fun _ s => Uncommitted i s)
    (fun finishedAt _ => h.answered .clock finishedAt) fun finishedAt s h => ?_
  intro db _
  exact h.recorded _ _

theorem wp_resolveCandidates (cycle : RunAlertCycle) (now : DateTime)
    (h : Uncommitted i s) (hpending : s.pending = []) :
    Txn.wp (isolationRely queries) OwnExecutions
      (cycle.resolveCandidates planned now) (resolvedPost i) s := by
  refine (Txn.wp_bind (Txn.query _) _).mpr fun db _ => ?_
  have h₁ : Uncommitted i (s.wrote []) := h.wrote (by simp)
  dsimp only [Txn.wp_done]
  cases SearchCacheRepository.get planned.signature now (s.view db) with
  | some propertyIds => exact h₁
  | none =>
      -- the three calls before the first write
      intro answer _
      have h₂ := h₁.answered (.scraperForPortal planned.portalSlug) answer
      rcases answer with (error | _)
      · exact resolvedPost_error h₂ (by simp [hpending]) error
      intro answer _
      have h₃ := h₂.answered (.fetch planned.query) answer
      rcases answer with (error | listings)
      · exact resolvedPost_error h₃ (by simp [hpending]) error
      intro answer _
      have h₄ := h₃.answered (.normalizerForPortal planned.portalSlug) answer
      rcases answer with (error | _)
      · exact resolvedPost_error h₄ (by simp [hpending]) error
      exact Txn.wp_mono _ (fun _ _ => resolvedPost_of_ends)
        (wp_scraped cycle listings now h₄)

/-! ## What is caught while a worker resolves -/

omit [PythonRuntime] [PersistenceRuntime] in
theorem caught_iff_of_ends {α : Type} {I : α → CycleSession → Prop}
    {outcome : Except PyError α} (h : Txn.ends NoScraperError I outcome s) :
    Caught outcome ↔ ∃ value, outcome = .ok value := by
  cases outcome with
  | ok value => exact iff_of_true trivial ⟨value, rfl⟩
  | error error =>
      refine iff_of_false (fun hcaught => ?_) fun hok => ?_
      · cases error with
        | scraperError message => exact h message rfl
        | _ => exact hcaught
      · obtain ⟨value, hok⟩ := hok
        cases hok

variable {env : CycleSurroundings}

theorem caught_scraped (hnormalize : ∀ n request, NormalizesCalmly request
      (env.answer n request)) (cycle : RunAlertCycle) (listings : List RawListing)
    (now : DateTime) (h : Uncommitted i s) :
    let scraped : CycleTxn (List PropertyId) := do
      let resolved ← Txn.foldEach listings ⟨[], 0, 0⟩
        (resolveListing planned.portalSlug)
      Txn.exec fun _ => SearchCacheRepository.putWrites planned.signature
        planned.portalSlug resolved.propertyIds now cycle.cacheTtlSeconds
      let finishedAt ← clock
      recordExecution (successAttempt planned listings resolved now finishedAt)
      return resolved.propertyIds
    Caught (scraped.runIn env s).1 ↔
      ∀ call ∈ scraped.callsIn env s, CalmAnswer call.2.1 call.2.2 := by
  intro scraped
  have hwp : Txn.wp (isolationRely []) OwnExecutions scraped
      (Txn.ends NoScraperError fun _ s => Uncommitted i s) s :=
    wp_scraped cycle listings now h
  have hends : Txn.ends NoScraperError (fun _ s => Uncommitted i s) (scraped.runIn env s).1
      (scraped.runIn env s).2 :=
    Txn.runIn_of_wp (fun _ _ _ planned hplanned => absurd hplanned List.not_mem_nil)
      hnormalize trivial hwp
  exact (caught_iff_of_ends hends).trans (hinges_scraped cycle planned listings now s)

/-- The first answer of a portal that is not calm is what the worker ends with. -/
theorem caught_resolveCandidates (hnormalize : ∀ n request, NormalizesCalmly request
      (env.answer n request)) (cycle : RunAlertCycle) (now : DateTime)
    (h : Uncommitted i s) :
    Caught ((cycle.resolveCandidates planned now).runIn env s).1 ↔
      ∀ call ∈ (cycle.resolveCandidates planned now).callsIn env s,
        CalmAnswer call.2.1 call.2.2 := by
  have h₁ : Uncommitted i (s.wrote []) := h.wrote (by simp)
  unfold RunAlertCycle.resolveCandidates RunAlertCycle.scrapeCandidates
  simp only [Txn.bind_eq, Txn.query, Txn.bind, Txn.runIn, Txn.callsIn]
  cases SearchCacheRepository.get planned.signature now (s.view (env.found s.ops)) with
  | some propertyIds => exact iff_of_true trivial (List.forall_mem_nil _)
  | none =>
      refine caught_call Iff.rfl fun _ hscraper => caught_call Iff.rfl fun listings hfetch =>
        caught_call Iff.rfl fun _ hnormalizer => ?_
      exact caught_scraped hnormalize cycle listings now
        (((h₁.answered _ _).answered _ _).answered _ _)

/-! ## What a worker has committed at its end -/

omit [PythonRuntime] [PersistenceRuntime] in
theorem wp_uncommitted_of_only {tables : List Table}
    (hdisjoint : ∀ table ∈ tables, table ∉ [Table.executions]) {α : Type}
    {p : CycleTxn α} (hp : p.Only (InTables tables)) (h : Uncommitted i s) :
    Txn.wp (isolationRely queries) OwnExecutions p
      (fun _ s' => Uncommitted i s' ∧ ∀ w ∈ s.pending, w ∈ s'.pending) s :=
  Txn.wp_of_only (I := fun s' => Uncommitted i s' ∧ ∀ w ∈ s.pending, w ∈ s'.pending)
    (fun _ _ hwrites h => ⟨h.1.wrote (AllIn.not_mem hwrites hdisjoint),
      fun w hw => List.mem_append_left _ (h.2 w hw)⟩)
    (fun _ request answer h => ⟨h.1.answered request answer, h.2⟩) hp
    ⟨h, fun _ hw => hw⟩

/-- The batch contains all writes of a save of each alert of the query. -/
def SavesAll (alerts : List SearchAlert) (now : DateTime) (batch : List Write) :
    Prop :=
  ∀ alert ∈ alerts, ∃ stamp db,
    ∀ w ∈ AlertRepository.addWrites (alert.markRun now) stamp db, w ∈ batch

/--
A worker commits once: everything it has written, the saves of its alerts that
come last included, or nothing but the row of a failed execution.
-/
def CommitsOnce (planned : PlannedQuery) :
    Bool × Nat → Session Write CycleCall CycleAnswer → Prop
  | (true, _), s => s.pending = [] ∧
      ∃ batch now, s.history = [batch] ∧ SavesAll planned.alerts now batch
  | (false, created), s => created = 0 ∧ s.pending = [] ∧
      ∃ row op, s.history = [[.insertExecution row]] ∧ row.id = .uuid4 s.txn op 0 ∧
        row.portalSlug = planned.portalSlug ∧
        row.querySignature = planned.signature ∧ row.status = .failed

theorem wp_evaluateAndPersist_saves (cycle : RunAlertCycle)
    (candidates : List Property) (now : DateTime) (h : Uncommitted i s) :
    Txn.wp (isolationRely queries) OwnExecutions
      (cycle.evaluateAndPersist planned.alerts candidates now)
      (Txn.onOk fun _ s => Uncommitted i s ∧
        SavesAll planned.alerts now s.pending) s := by
  refine Txn.wp_ends_foldEach (fun before _ s => Uncommitted i s ∧
      SavesAll before now s.pending) ?_ (fun _ _ h => h) ⟨h, fun _ h => by simp at h⟩
  rintro before alert after created s₁ - ⟨h₁, hsaves⟩
  refine Txn.wp_ends_bind (P := fun _ s₂ => s₂ = s₁)
    (Txn.wp_onOk_ofExcept fun _ _ => rfl) fun found s₂ heq => ?_
  subst heq
  have hfound : (Txn.foldEach found created
      (RunAlertCycle.persistMatch alert.userId now) : CycleTxn Nat).Only
        (InTables matchTables) :=
    Txn.only_foldEach fun created found _ => only_persistMatch _ _ created found
  refine Txn.wp_ends_bind (P := fun _ s₃ => Uncommitted i s₃ ∧
    ∀ w ∈ s₂.pending, w ∈ s₃.pending) (Txn.wp_mono _ ?_
      (wp_uncommitted_of_only (by decide) hfound h₁)) ?_
  · rintro (error | _) s₃ h₃
    · trivial
    · exact h₃
  rintro _ s₃ ⟨h₃, hkept⟩ db -
  refine ⟨h₃.wrote ((allIn_addWrites_alert _ _ _).not_mem (by decide)), ?_⟩
  intro alert' halert'
  obtain halert' | halert' := List.mem_append.mp halert'
  · obtain ⟨stamp, db', hwrites⟩ := hsaves alert' halert'
    exact ⟨stamp, db', fun w hw => List.mem_append_left _ (hkept w (hwrites w hw))⟩
  · rw [List.mem_singleton.mp halert']
    exact ⟨_, _, fun w hw => List.mem_append_right _ hw⟩

theorem wp_persistMatches_once (cycle : RunAlertCycle)
    (propertyIds : List PropertyId) (now : DateTime) (h : Uncommitted i s) :
    Txn.wp (isolationRely queries) OwnExecutions
      (cycle.persistMatches planned propertyIds now)
      (Txn.onOk (CommitsOnce planned)) s := by
  have hload : Txn.wp (isolationRely queries) OwnExecutions
      (RunAlertCycle.loadCandidates propertyIds)
      (Txn.onOk fun _ s => Uncommitted i s) s := by
    refine Txn.wp_mono _ ?_
      (wp_uncommitted_of_only (by simp) (only_loadCandidates propertyIds) h)
    rintro (error | candidates) s' h'
    · trivial
    · exact h'.1
  have hcommit : ∀ created s', Uncommitted i s' →
      SavesAll planned.alerts now s'.pending →
        Txn.wp (isolationRely queries) OwnExecutions
          ((Txn.commitOr .integrityError : CycleTxn Unit).bind fun _ =>
            .done (true, created)) (Txn.onOk (CommitsOnce planned)) s' := by
    intro created s' h' hsaves
    refine ⟨h'.executions, ⟨rfl, s'.pending, now, ?_, hsaves⟩, fun _ => trivial⟩
    simp [h'.history]
  refine (Txn.wp_bind _ _).mpr (Txn.wp_mono _ ?_ hload)
  rintro (error | candidates) s₁ h₁
  · trivial
  refine (Txn.wp_bind _ _).mpr (Txn.wp_mono _ ?_
    (wp_evaluateAndPersist_saves cycle candidates now h₁))
  rintro (error | created) s₂ h₂
  · trivial
  exact hcommit created s₂ h₂.1 h₂.2

omit [PythonRuntime] [PersistenceRuntime] in
theorem wp_recordFailure_once (hplanned : planned ∈ queries) (error : String) (now : DateTime)
    (h : Uncommitted i s) (hpending : s.pending = []) :
    Txn.wp (isolationRely queries) OwnExecutions
      (RunAlertCycle.recordFailure planned error now)
      (Txn.onOk (CommitsOnce planned)) s := by
  intro finishedAt _ db hportal
  have h₁ := h.answered .clock finishedAt
  have hview : (s.answered .clock finishedAt).view db = db := by
    simp [Session.view, hpending]
  -- the portal has its row, so the execution row is all there is to write
  have hwrites : SearchExecutionRepository.recordWrites
      (failedAttempt planned error now finishedAt)
      (s.answered .clock finishedAt).stamp ((s.answered .clock finishedAt).view db) =
        [.insertExecution (SearchExecutionRepository.row
          (failedAttempt planned error now finishedAt)
          (s.answered .clock finishedAt).stamp)] := by
    have hslug : (failedAttempt planned error now finishedAt).portalSlug ∈
        db.portals := hportal planned hplanned
    rw [hview]
    exact SearchExecutionRepository.recordWrites_of_mem hslug _
  have h₂ := h₁.recorded (failedAttempt planned error now finishedAt)
    ((s.answered .clock finishedAt).view db)
  refine ⟨h₂.executions, ⟨rfl, rfl, SearchExecutionRepository.row
    (failedAttempt planned error now finishedAt) (s.answered .clock finishedAt).stamp,
      s.ops + 1, ?_, rfl, rfl, rfl, rfl⟩, fun _ => trivial⟩
  rw [Session.history_committed, Session.history_wrote, Session.pending_wrote,
    Session.pending_answered, Session.history_answered, h.history, hpending,
    List.nil_append, List.nil_append, hwrites]

theorem wp_runOne_once (hplanned : planned ∈ queries) (cycle : RunAlertCycle) :
    Txn.wp (isolationRely queries) OwnExecutions (cycle.runOne planned)
      (Txn.onOk (CommitsOnce planned)) (.start i) := by
  intro now _
  change Txn.wp _ _ ((cycle.resolveCandidates _ now).attempt.bind _) _ _
  refine (Txn.wp_bind _ _).mpr ((Txn.wp_attempt _).mpr (Txn.wp_mono _ ?_
    (wp_resolveCandidates cycle now ((Uncommitted.start i).answered .clock now) rfl)))
  rintro (error | propertyIds) s h
  · cases error with
    | scraperError error => exact wp_recordFailure_once hplanned error now h.1 h.2
    | _ => trivial
  · exact wp_persistMatches_once cycle propertyIds now h

end Workers

/-! ## The law -/

section Runs

variable [PythonRuntime] [PersistenceRuntime]

/--
Failure isolation of a run that has come to its end: it returns a report that
counts every query once, every query commits once, and without a failed query
the others commit the same, so that only its execution row is missing.
-/
structure Isolated (oracle : Oracle CycleCall CycleAnswer) (cycle : RunAlertCycle)
    (queries : List PlannedQuery) (db : Store) (schedule : List Nat)
    (outcomes : Nat → Except PyError (Bool × Nat)) : Prop where
  reported : ∃ summary,
    report ((List.range queries.length).map outcomes) = .ok summary ∧
      summary.queriesPlanned = queries.length ∧
      summary.queriesPlanned = summary.queriesSucceeded + summary.queriesFailed
  commits : ∀ i planned, queries[i]? = some planned → ∃ result,
    outcomes i = .ok result ∧ CommitsOnce planned result
      (((Sys.start db (cycle.worker queries)).run oracle schedule).workers i).session
  invisible : ∀ k created, k < queries.length → outcomes k = .ok (false, created) →
    let after := (Sys.start db (cycle.worker queries)).run oracle schedule
    let without := (Sys.start db (cycle.worker queries)).run oracle
      (schedule.filter (· ≠ k))
    without.store = withoutExecutionsOf k after.store ∧
      ∀ j, j ≠ k → without.workers j = after.workers j

variable {oracle : Oracle CycleCall CycleAnswer} {cycle : RunAlertCycle}
  {queries : List PlannedQuery} {db : Store}

omit [PythonRuntime] [PersistenceRuntime] in
theorem stable_hasPortals : Sys.Stable (W := Write) (C := CycleCall)
    (R := CycleAnswer) (HasPortals queries) OwnExecutions where
  own _ s h _ _ := fun planned hplanned =>
    mem_portals_applyAll s.pending (h planned hplanned)
  refused _ _ h _ := h
  other _ s _ _ _ _ _ _ h := fun planned hplanned =>
    mem_portals_applyAll s.pending (h planned hplanned)

def guarantee (queries : List PlannedQuery) (i : Nat) :
    Except PyError (Bool × Nat) → Session Write CycleCall CycleAnswer → Prop :=
  match queries[i]? with
  | some planned => Txn.onOk (CommitsOnce planned)
  | none => Txn.onOk fun _ _ => True

theorem wp_worker (cycle : RunAlertCycle) (queries : List PlannedQuery) (i : Nat) :
    (cycle.worker queries i).wp (isolationRely queries) OwnExecutions
      (guarantee queries i) (.start i) := by
  unfold RunAlertCycle.worker guarantee
  cases hplanned : queries[i]? with
  | none => trivial
  | some planned => exact wp_runOne_once (List.mem_of_getElem? hplanned) cycle

theorem holds_worker (hportals : HasPortals queries db 0 0)
    (hnormalize : ∀ i op request, NormalizesCalmly request (oracle i op request))
    (schedule : List Nat) (i : Nat) :
    Sys.Holds (isolationRely queries) OwnExecutions (guarantee queries i)
      (((Sys.start db (cycle.worker queries)).run oracle schedule).workers i) :=
  (Sys.invariant_run stable_hasPortals (fun _ => hportals) hnormalize
    (wp_worker cycle queries) schedule).2 i

theorem commitsOnce_of_finished (hportals : HasPortals queries db 0 0)
    (hnormalize : ∀ i op request, NormalizesCalmly request (oracle i op request))
    {schedule : List Nat} {i : Nat} {planned : PlannedQuery}
    (hplanned : queries[i]? = some planned) {result : Bool × Nat}
    (hfinished : ((Sys.start db (cycle.worker queries)).run oracle
      schedule).Finished i (.ok result)) :
    CommitsOnce planned result
      (((Sys.start db (cycle.worker queries)).run oracle schedule).workers i).session := by
  have h : Sys.Holds (isolationRely queries) OwnExecutions (guarantee queries i)
      (((Sys.start db (cycle.worker queries)).run oracle schedule).workers i) :=
    holds_worker hportals hnormalize schedule i
  rw [Sys.Holds, hfinished, guarantee, hplanned] at h
  exact h

def FreshExecutions (db : Store) : Prop :=
  ∀ row ∈ db.executions, ∀ k, drawnBy k row.id = false

theorem alike_without (hportals : HasPortals queries db 0 0)
    (hnormalize : ∀ i op request, NormalizesCalmly request (oracle i op request))
    (hfresh : FreshExecutions db) {schedule : List Nat} {k created : Nat}
    {planned : PlannedQuery} (hplanned : queries[k]? = some planned)
    (hfinished : ((Sys.start db (cycle.worker queries)).run oracle
      schedule).Finished k (.ok (false, created))) :
    Sys.Alike hideExecutions (fun db db' => db' = withoutExecutionsOf k db) k
      ((Sys.start db (cycle.worker queries)).run oracle schedule)
      ((Sys.start db (cycle.worker queries)).run oracle
        (schedule.filter (· ≠ k))) := by
  obtain ⟨-, -, row, op, hhistory, hid, -⟩ :=
    commitsOnce_of_finished hportals hnormalize hplanned hfinished
  rw [Sys.txn_run] at hid
  refine Sys.alike_filter (masks_withoutExecutionsOf k) ?_ (fun j _ => ?_)
    (fun before j after hschedule hj hcommitting => ?_)
    fun before after hschedule hcommitting hadmits => ?_
  · -- no stored row is one of worker `k`
    rw [withoutExecutionsOf, List.filter_eq_self.mpr fun row hrow => by
      rw [hfresh row hrow k]; rfl]
  · unfold RunAlertCycle.worker
    split
    · exact unaware_runOne cycle _
    · trivial
  · obtain ⟨next, hcode⟩ := hcommitting
    exact Sys.ready_of_holds (holds_worker hportals hnormalize before j) hcode
  · -- the batch stays in the history, which holds the failed row only
    obtain ⟨next, hcode⟩ := hcommitting
    subst hschedule
    have hbatch := Sys.history_run oracle
      (((Sys.start db (cycle.worker queries)).run oracle before).step oracle k)
      after k
    rw [← Sys.run_cons, ← Sys.run_append, hhistory] at hbatch
    simp only [Sys.step, hcode, hadmits, if_true, Sys.workers_setWorker_self,
      Session.history_committed] at hbatch
    obtain ⟨rest, heq⟩ := hbatch
    rw [List.append_assoc, List.singleton_append] at heq
    obtain ⟨-, heq⟩ | ⟨-, heq⟩ := List.append_eq_singleton_iff.mp heq
    · exact ⟨row, op, (List.cons.inj heq).1, hid⟩
    · simp at heq

/-! ## Exactly when it holds -/

omit [PythonRuntime] [PersistenceRuntime] in
theorem report_of_ok {n : Nat} {outcomes : Nat → Except PyError (Bool × Nat)}
    (h : ∀ i < n, ∃ result, outcomes i = .ok result) :
    ∃ summary, report ((List.range n).map outcomes) = .ok summary ∧
      summary.queriesPlanned = n ∧
      summary.queriesPlanned = summary.queriesSucceeded + summary.queriesFailed := by
  have hresults : ∀ i, ∃ result, i < n → outcomes i = .ok result := fun i => by
    by_cases hi : i < n
    · exact (h i hi).imp fun _ hresult _ => hresult
    · exact ⟨(true, 0), fun h => absurd h hi⟩
  choose results hresults using hresults
  have hmap : (List.range n).map outcomes =
      ((List.range n).map results).map .ok := by
    rw [List.map_map]
    exact List.map_congr_left fun i hi => hresults i (List.mem_range.mp hi)
  unfold report
  rw [mapM_id_eq_ok.mpr hmap]
  exact ⟨_, rfl, by simp,
    List.length_eq_length_filter_add fun result : Bool × Nat => result.1⟩

theorem worker_of_le {i : Nat} (h : queries.length ≤ i) :
    cycle.worker queries i = .done (true, 0) := by
  unfold RunAlertCycle.worker
  rw [List.getElem?_eq_none h]

theorem lt_of_mem_log {schedule : List Nat} {i : Nat}
    {call : (request : CycleCall) × CycleAnswer request}
    (h : (i, call) ∈ ((Sys.start db (cycle.worker queries)).run oracle schedule).log) :
    i < queries.length := by
  by_contra hle
  obtain ⟨op, hcall⟩ := Sys.mem_callsIn_of_mem_log h
  rw [worker_of_le (Nat.le_of_not_lt hle)] at hcall
  exact absurd hcall List.not_mem_nil

/--
In a run of a plan that has come to its end, a worker has returned exactly if every answer
it was given is calm and nothing that it found in the database made it raise.
-/
theorem returned_iff (hnormalize : ∀ i op request, NormalizesCalmly request
      (oracle i op request)) {schedule : List Nat} {i : Nat} {planned : PlannedQuery}
    (hplanned : queries[i]? = some planned) {outcome : Except PyError (Bool × Nat)}
    (hfinished : ((Sys.start db (cycle.worker queries)).run oracle schedule).Finished i
      outcome) :
    (∃ result, outcome = .ok result) ↔
      (∀ call, (i, call) ∈ ((Sys.start db (cycle.worker queries)).run oracle
          schedule).log → CalmAnswer call.1 call.2) ∧
        FindsCalm (Sys.meets oracle db (cycle.worker queries) schedule i) cycle planned i := by
  have hworker : cycle.worker queries i = cycle.runOne planned := by
    unfold RunAlertCycle.worker
    rw [hplanned]
  have hrun := Sys.runIn_of_finished hfinished
  have hlog := Sys.mem_log_iff_of_finished hfinished
  rw [hworker] at hrun hlog
  have henv : ∀ n request, NormalizesCalmly request
      ((Sys.meets oracle db (cycle.worker queries) schedule i).answer n request) :=
    hnormalize i
  generalize Sys.meets oracle db (cycle.worker queries) schedule i = env at *
  have hreturns : Txn.Returns env (cycle.runOne planned) (.start i) ↔ _ :=
    returns_runOne_iff rfl (caught_resolveCandidates henv cycle (env.answer 0 .clock)
      ((Uncommitted.start i).answered .clock (env.answer 0 .clock)))
  rw [Txn.Returns, hrun] at hreturns
  refine hreturns.trans (and_congr_left fun _ => ?_)
  constructor
  · intro h call hcall
    obtain ⟨op, hcall⟩ := (hlog call).mp hcall
    exact h _ hcall
  · exact fun h call hcall => h call.2 ((hlog call.2).mpr ⟨call.1, hcall⟩)

/--
A run of a plan that has come to its end isolates the failures in it exactly when the
collaborators raise nothing but a `ScraperError` out of a lookup or a fetch, and no
worker finds anything in the database that makes it raise.
-/
theorem isolated_iff (hportals : HasPortals queries db 0 0)
    (hnormalize : ∀ i op request, NormalizesCalmly request (oracle i op request))
    (hfresh : FreshExecutions db) {schedule : List Nat}
    {outcomes : Nat → Except PyError (Bool × Nat)}
    (hended : ∀ i < queries.length,
      ((Sys.start db (cycle.worker queries)).run oracle schedule).Finished i
        (outcomes i)) :
    Isolated oracle cycle queries db schedule outcomes ↔
      (∀ i call, (i, call) ∈ ((Sys.start db (cycle.worker queries)).run oracle
          schedule).log → CalmAnswer call.1 call.2) ∧
        ∀ i planned, queries[i]? = some planned →
          FindsCalm (Sys.meets oracle db (cycle.worker queries) schedule i) cycle
            planned i := by
  have hreturned : ∀ i planned, queries[i]? = some planned → _ := fun i planned hplanned =>
    returned_iff hnormalize hplanned
      (hended i (List.getElem?_eq_some_iff.mp hplanned).1)
  constructor
  · intro h
    have hok := fun i planned hplanned => (hreturned i planned hplanned).mp
      ((h.commits i planned hplanned).imp fun _ hcommits => hcommits.1)
    refine ⟨fun i call hcall => ?_, fun i planned hplanned => (hok i planned hplanned).2⟩
    exact (hok i _ (List.getElem?_eq_getElem (lt_of_mem_log hcall))).1 call hcall
  · rintro ⟨hanswers, hfinds⟩
    have hok : ∀ i < queries.length, ∃ result, outcomes i = .ok result := fun i hi =>
      (hreturned i _ (List.getElem?_eq_getElem hi)).mpr
        ⟨hanswers i, hfinds i _ (List.getElem?_eq_getElem hi)⟩
    refine ⟨report_of_ok hok, fun i planned hplanned => ?_,
      fun k created hk hfailed => ?_⟩
    · have hi := (List.getElem?_eq_some_iff.mp hplanned).1
      obtain ⟨result, hresult⟩ := hok i hi
      exact ⟨result, hresult, commitsOnce_of_finished hportals hnormalize hplanned
        (hresult ▸ hended i hi)⟩
    · have halike := alike_without hportals hnormalize hfresh
        (List.getElem?_eq_getElem hk) (hfailed ▸ hended k hk)
      exact ⟨halike.store, fun j hj => halike.workers j hj⟩

end Runs

/-! ## A portal without a scraper -/

/-- No scraper is registered: the lookup in the dict raises a `KeyError`. -/
def unregisteredOracle : Oracle CycleCall CycleAnswer := fun i op request =>
  match request with
  | .scraperForPortal portalSlug => .error (.keyError portalSlug)
  | request => quietOracle i op request

abbrev unregisteredRun (schedule : List Nat) : CycleSys :=
  (Sys.start Alerts.salesStore
    (@RunAlertCycle.worker .plain .plain salesCycle [salesQuery])).run
      unregisteredOracle schedule

theorem hasPortals_salesStore : HasPortals [salesQuery] Alerts.salesStore 0 0 := by
  intro planned hplanned
  obtain rfl := List.mem_singleton.mp hplanned
  exact .head _

theorem normalizesCalmly_unregisteredOracle (i op : Nat) (request : CycleCall) :
    NormalizesCalmly request (unregisteredOracle i op request) := by
  cases request <;> exact trivial

/-- The `KeyError` leaves the cycle: no report, and no row of a failed execution. -/
theorem unregistered_portal_aborts_the_cycle :
    HasPortals [salesQuery] Alerts.salesStore 0 0 ∧
      (∀ i op request,
        NormalizesCalmly request (unregisteredOracle i op request)) ∧
      FreshExecutions Alerts.salesStore ∧
      (unregisteredRun [0, 0, 0]).Finished 0 (.error (.keyError "idealista")) ∧
      ¬@Isolated .plain .plain unregisteredOracle salesCycle [salesQuery]
        Alerts.salesStore [0, 0, 0] (fun _ => .error (.keyError "idealista")) := by
  refine ⟨hasPortals_salesStore, normalizesCalmly_unregisteredOracle,
    fun _ hrow => absurd hrow List.not_mem_nil, rfl, fun h => ?_⟩
  obtain ⟨summary, hreport, -⟩ := @Isolated.reported .plain .plain _ _ _ _ _ _ h
  cases hreport

/-! ## A blocked search next to another one -/

def blockedQuery : PlannedQuery :=
  ⟨"idealista", "idealista|province=36",
    ⟨"idealista", Dict.empty.set "province" "36"⟩, [Alerts.salesAlert]⟩

/-- The owner of the sales alert has a channel, and nothing is cached. -/
def channelStore : Store :=
  { Alerts.salesStore with channels := [⟨.given 9, .given 0, .telegram, "target", true⟩] }

/-- The portal shows a flat for sale, but blocks a search for the province. -/
def halfBlockedOracle : Oracle CycleCall CycleAnswer := fun i op request =>
  match request with
  | .fetch query => if query.params.get "province" = none then .ok [flatListing "SALE"]
      else .error (.scraperError "blocked")
  | .normalize _ _ => normalizeFlat (flatListing "SALE")
  | request => quietOracle i op request

def turnByTurn : List Nat := (List.range 20).flatMap fun _ => [0, 1]

abbrev halfBlockedRun : CycleSys :=
  (Sys.start channelStore
    (@RunAlertCycle.worker .plain .plain salesCycle [blockedQuery, salesQuery])).run
      halfBlockedOracle turnByTurn

def halfBlockedOutcomes (i : Nat) : Except PyError (Bool × Nat) :=
  if i = 0 then .ok (false, 0) else .ok (true, 1)

theorem halfBlocked_ended : ∀ i < 2,
    halfBlockedRun.Finished i (halfBlockedOutcomes i) := by
  intro i hi
  interval_cases i
  · rfl
  · rfl

theorem normalizesCalmly_of_calm {request : CycleCall} {answer : CycleAnswer request}
    (h : CalmAnswer request answer) : NormalizesCalmly request answer := by
  cases request with
  | normalize portalSlug listing =>
      obtain ⟨result, rfl, -⟩ := h
      trivial
  | _ => trivial

theorem halfBlocked_calm (i op : Nat) (request : CycleCall) :
    CalmAnswer request (halfBlockedOracle i op request) := by
  cases request with
  | fetch query =>
      show Caught (if query.params.get "province" = none then _ else _)
      split <;> trivial
  | normalize portalSlug listing =>
      refine ⟨_, rfl, fun prop hprop => ?_⟩
      obtain rfl := Option.some.inj hprop
      exact ⟨_, rfl⟩
  | _ => trivial

/-- One search is blocked, the other one finds a flat, and neither worker raises. -/
theorem isolated_iff_halfBlocked :
    @Isolated .plain .plain halfBlockedOracle salesCycle [blockedQuery, salesQuery]
      channelStore turnByTurn halfBlockedOutcomes := by
  have hnormalize : ∀ i op request,
      NormalizesCalmly request (halfBlockedOracle i op request) :=
    fun i op request => normalizesCalmly_of_calm (halfBlocked_calm i op request)
  refine (@isolated_iff .plain .plain halfBlockedOracle salesCycle
    [blockedQuery, salesQuery] channelStore ?_ hnormalize ?_ turnByTurn halfBlockedOutcomes
    halfBlocked_ended).mpr ⟨fun i call hcall => ?_, fun i planned hplanned => ?_⟩
  · intro planned hplanned
    rcases List.mem_pair.mp hplanned with rfl | rfl <;> exact .head _
  · exact fun _ hrow => absurd hrow List.not_mem_nil
  · obtain ⟨op, hcall⟩ := Sys.mem_callsIn_of_mem_log hcall
    exact Txn.forall_callsIn (fun _ _ => halfBlocked_calm i _ _) _ hcall
  · have hi : i < 2 := (List.getElem?_eq_some_iff.mp hplanned).1
    refine ((@returned_iff .plain .plain _ _ _ _ hnormalize _ i planned hplanned _
      (halfBlocked_ended i hi)).mp ?_).2
    unfold halfBlockedOutcomes
    split
    · exact ⟨_, rfl⟩
    · exact ⟨_, rfl⟩

end RealEstateTracker.Cycle
