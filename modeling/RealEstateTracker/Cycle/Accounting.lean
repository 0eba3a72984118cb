import RealEstateTracker.Cycle.AtMostOnce
import RealEstateTracker.Foundation.Ledger

/-!
# Accounting

The matches and the executions of a cycle are tables that workers only append to.
A worker posts as many matches as it reports, and at most one execution: a failure
exactly when it reports one.
-/

namespace RealEstateTracker.Cycle

open Foundation Domain Application Persistence

/-! ## The two tables -/

def matchTable : Appended Store Write MatchRow where
  table db := db.alertMatches
  rows
    | .insertMatch row => [row]
    | _ => []
  table_apply write db := by cases write <;> simp [apply_eq, Write.apply]

def executionTable : Appended Store Write ExecutionRow where
  table db := db.executions
  rows
    | .insertExecution row => [row]
    | _ => []
  table_apply write db := by cases write <;> simp [apply_eq, Write.apply]

/-- A write to another table. -/
def Spares (write : Write) : Prop :=
  write.table ≠ .alertMatches ∧ write.table ≠ .executions

theorem spares_of_inTables (tables : List Table) (hmatches : .alertMatches ∉ tables)
    (hexecutions : .executions ∉ tables) {write : Write} (h : InTables tables write) :
    Spares write :=
  ⟨fun heq => hmatches (heq ▸ h), fun heq => hexecutions (heq ▸ h)⟩

theorem rows_of_spares {write : Write} (h : Spares write) :
    matchTable.rows write = [] ∧ executionTable.rows write = [] := by
  cases write with
  | insertMatch row => exact absurd rfl h.1
  | insertExecution row => exact absurd rfl h.2
  | _ => exact ⟨rfl, rfl⟩

theorem flatMap_rows_of_spares {writes : List Write} (h : ∀ write ∈ writes, Spares write) :
    writes.flatMap matchTable.rows = [] ∧ writes.flatMap executionTable.rows = [] :=
  ⟨List.flatMap_eq_nil_iff.mpr fun write hwrite => (rows_of_spares (h write hwrite)).1,
    List.flatMap_eq_nil_iff.mpr fun write hwrite => (rows_of_spares (h write hwrite)).2⟩

/-! ## Drafts -/

/-- Nothing is committed; so many matches and these executions are drafted. -/
structure Drafts (txn : Nat) (s : CycleSession) (created : Nat)
    (executions : List ExecutionRow) : Prop where
  txn_eq : s.txn = txn
  history : s.history = []
  created : (s.drafted matchTable.rows).length = created
  executions : s.drafted executionTable.rows = executions

section Drafts

variable {txn : Nat} {s : CycleSession} {created : Nat} {executions : List ExecutionRow}

theorem Drafts.start (i : Nat) : Drafts i (.start i) 0 [] := ⟨rfl, rfl, rfl, rfl⟩

theorem Drafts.answered (h : Drafts txn s created executions) (request : CycleCall)
    (answer : CycleAnswer request) :
    Drafts txn (s.answered request answer) created executions :=
  ⟨h.txn_eq, h.history, h.created, h.executions⟩

theorem Drafts.wrote (h : Drafts txn s created executions) {writes : List Write}
    (hwrites : ∀ write ∈ writes, Spares write) :
    Drafts txn (s.wrote writes) created executions := by
  obtain ⟨hmatches, hexecutions⟩ := flatMap_rows_of_spares hwrites
  refine ⟨h.txn_eq, h.history, ?_, ?_⟩
  · rw [Session.drafted_wrote, hmatches, List.append_nil, h.created]
  · rw [Session.drafted_wrote, hexecutions, List.append_nil, h.executions]

theorem Drafts.insertMatch (h : Drafts txn s created executions) (row : MatchRow) :
    Drafts txn (s.wrote [.insertMatch row]) (created + 1) executions := by
  refine ⟨h.txn_eq, h.history, ?_, ?_⟩
  · rw [Session.drafted_wrote, List.length_append, h.created]
    rfl
  · rw [Session.drafted_wrote, h.executions]
    exact List.append_nil _

theorem Drafts.record (h : Drafts txn s created [])
    (attempt : SearchExecutionRepository.Attempt) (db : Store) :
    Drafts txn (s.wrote (SearchExecutionRepository.recordWrites attempt s.stamp db)) created
      [SearchExecutionRepository.row attempt s.stamp] := by
  have hportal : ∀ write ∈ portalWrites attempt.portalSlug db, Spares write :=
    fun write hwrite => spares_of_inTables _ (by decide) (by decide)
      (allIn_portalWrites (.head []) attempt.portalSlug db write hwrite)
  obtain ⟨hmatches, hexecutions⟩ := flatMap_rows_of_spares hportal
  refine ⟨h.txn_eq, h.history, ?_, ?_⟩
  · rw [Session.drafted_wrote, SearchExecutionRepository.recordWrites,
      List.flatMap_append, hmatches, List.length_append, h.created]
    rfl
  · rw [Session.drafted_wrote, SearchExecutionRepository.recordWrites,
      List.flatMap_append, hexecutions, h.executions]
    rfl

end Drafts

/-! ## Programs that may raise -/

section Rules

variable {α β : Type} {rely : CycleRely} {ready : CycleSession → Prop} {txn : Nat}
  {s : CycleSession}

/-- A program ends with `P`, or raises in a session that satisfies `F`. -/
def settles (F : CycleSession → Prop) (P : α → CycleSession → Prop) :
    Except PyError α → CycleSession → Prop
  | .ok value, s => P value s
  | .error _, s => F s

theorem wp_settles_bind {F : CycleSession → Prop} {p : CycleTxn α} {f : α → CycleTxn β}
    {P : α → CycleSession → Prop} {P' : β → CycleSession → Prop}
    (hp : Txn.wp rely ready p (settles F P) s)
    (hf : ∀ value s, P value s → Txn.wp rely ready (f value) (settles F P') s) :
    Txn.wp rely ready (p.bind f) (settles F P') s := by
  refine (Txn.wp_bind _ _).mpr (Txn.wp_mono _ ?_ hp)
  rintro (error | value) s h
  · exact h
  · exact hf value s h

theorem wp_settles_foldEach {F : CycleSession → Prop} {items : List α} {acc : β}
    {body : β → α → CycleTxn β} (Inv : List α → β → CycleSession → Prop)
    (hbody : ∀ before item after acc s, items = before ++ item :: after →
      Inv before acc s → Txn.wp rely ready (body acc item)
        (settles F fun acc s => Inv (before ++ [item]) acc s) s)
    (hstart : Inv [] acc s) :
    Txn.wp rely ready (Txn.foldEach items acc body)
      (settles F fun acc s => Inv items acc s) s := by
  refine Txn.wp_foldEach Inv (fun before item after acc s hitems h => ?_)
    (fun _ _ h => h) hstart
  refine Txn.wp_mono _ ?_ (hbody before item after acc s hitems h)
  rintro (error | acc) s h
  · exact h
  · exact h

theorem wp_settles_ofExcept {F : CycleSession → Prop} (outcome : Except PyError α)
    {P : α → CycleSession → Prop} (herror : F s) (h : ∀ value, P value s) :
    Txn.wp rely ready (Txn.ofExcept outcome : CycleTxn α) (settles F P) s := by
  rw [Txn.wp_ofExcept]
  cases outcome with
  | error error => exact herror
  | ok value => exact h value

theorem wp_drafts_of_only {p : CycleTxn α} (hp : p.Only Spares) {created : Nat}
    {executions : List ExecutionRow} (h : Drafts txn s created executions) :
    Txn.wp rely ready p (settles (fun s => Drafts txn s created executions) fun _ s =>
      Drafts txn s created executions) s := by
  refine Txn.wp_mono _ ?_ (Txn.wp_of_only (I := fun s => Drafts txn s created executions)
    (fun _ _ hwrites h => h.wrote hwrites)
    (fun _ request answer h => h.answered request answer) hp h)
  rintro (error | value) s h
  · exact h
  · exact h

end Rules

/-! ## What a worker accounts for -/

/-- The row of a page that was resolved: it has no more new listings than listings. -/
structure SuccessRow (planned : PlannedQuery) (row : ExecutionRow) : Prop where
  portal : row.portalSlug = planned.portalSlug
  signature : row.querySignature = planned.signature
  status : row.status = .success
  error : row.error = none
  listings : row.listingsNew ≤ row.listingsFound

/-- The row of a scrape that failed: it counts nothing and says why. -/
structure FailureRow (planned : PlannedQuery) (row : ExecutionRow) : Prop where
  portal : row.portalSlug = planned.portalSlug
  signature : row.querySignature = planned.signature
  status : row.status = .failed
  error : row.error ≠ none
  listings : row.listingsFound = 0 ∧ row.listingsNew = 0 ∧ row.normalizationIssues = 0

/-- The executions of a worker that found its search in the cache, or scraped, or failed. -/
inductive Accounts (planned : PlannedQuery) : Bool → List ExecutionRow → Prop
  | cached : Accounts planned true []
  | scraped {row : ExecutionRow} (h : SuccessRow planned row) : Accounts planned true [row]
  | failed {row : ExecutionRow} (h : FailureRow planned row) : Accounts planned false [row]

section Workers

variable [PythonRuntime] [PersistenceRuntime] {rely : CycleRely}
  {ready : CycleSession → Prop} {txn : Nat} {s : CycleSession}

omit [PythonRuntime] [PersistenceRuntime] in
theorem wp_drafts_query {α : Type} (read : Store → α) {created : Nat}
    {executions : List ExecutionRow} (h : Drafts txn s created executions) :
    Txn.wp rely ready (Txn.query read : CycleTxn α)
      (settles (Drafts txn · created executions) fun _ s => Drafts txn s created executions) s :=
  (Txn.wp_query _).mpr fun _ _ => h.wrote (by simp)

theorem wp_resolveListing_drafts (portalSlug : String) (resolved : Resolved)
    (listing : RawListing) (h : Drafts txn s 0 []) :
    Txn.wp rely ready (resolveListing portalSlug resolved listing)
      (settles (Drafts txn · 0 []) fun resolved' s => Drafts txn s 0 [] ∧
        resolved'.listingsNew ≤ resolved.listingsNew + 1) s := by
  refine wp_settles_bind (wp_drafts_query _ h) fun unchanged s h => ?_
  cases unchanged with
  | some propertyId => exact ⟨h, Nat.le_succ _⟩
  | none =>
      intro answer _
      refine wp_settles_bind (P := fun _ s => Drafts txn s 0 []) (wp_settles_ofExcept answer
        (h.answered _ answer) fun _ => h.answered _ answer) fun result s h => ?_
      unfold storeListing
      cases result.property with
      | none => exact ⟨h, Nat.le_succ _⟩
      | some prop =>
          refine wp_settles_bind (wp_drafts_of_only ?_ h) fun _ s h => ?_
          · refine Txn.only_bind (fun now => Txn.only_done now) fun now =>
              Txn.only_bind (Txn.only_ofExcept _) fun row => Txn.only_exec
                fun stamp db write hwrite => spares_of_inTables _ (by decide) (by decide)
                  (allIn_addWrites_property prop row now stamp db write hwrite)
          · refine wp_settles_bind (wp_drafts_of_only (Txn.only_exec
              fun stamp db write hwrite => ?_) h) fun _ s h => ⟨h, le_rfl⟩
            exact spares_of_inTables _ (by decide) (by decide)
              (allIn_upsertWrites listing prop.id _ stamp db write hwrite)

theorem wp_resolveCandidates_drafts (cycle : RunAlertCycle) (planned : PlannedQuery)
    (now : DateTime) (h : Drafts txn s 0 []) :
    Txn.wp rely ready (cycle.resolveCandidates planned now)
      (settles (Drafts txn · 0 []) fun _ s => ∃ executions, Drafts txn s 0 executions ∧
        Accounts planned true executions) s := by
  refine wp_settles_bind (wp_drafts_query _ h) fun cached s h => ?_
  cases cached with
  | some propertyIds => exact ⟨[], h, .cached⟩
  | none =>
      intro scraper _
      refine wp_settles_bind (P := fun _ s => Drafts txn s 0 []) (wp_settles_ofExcept scraper
        (h.answered _ scraper) fun _ => h.answered _ scraper) fun _ s h => ?_
      intro page _
      refine wp_settles_bind (P := fun _ s => Drafts txn s 0 []) (wp_settles_ofExcept page
        (h.answered _ page) fun _ => h.answered _ page) fun listings s h => ?_
      intro normalizer _
      refine wp_settles_bind (P := fun _ s => Drafts txn s 0 []) (wp_settles_ofExcept normalizer
        (h.answered _ normalizer) fun _ => h.answered _ normalizer) fun _ s h => ?_
      refine wp_settles_bind (wp_settles_foldEach (fun before (resolved : Resolved) s =>
        Drafts txn s 0 [] ∧ resolved.listingsNew ≤ before.length) ?_ ⟨h, le_rfl⟩) ?_
      · rintro before listing after resolved s - ⟨h, hle⟩
        refine Txn.wp_mono _ ?_ (wp_resolveListing_drafts planned.portalSlug resolved
          listing h)
        rintro (error | resolved') s' h'
        · exact h'
        · refine ⟨h'.1, h'.2.trans ?_⟩
          rw [List.length_append]
          exact Nat.add_le_add_right hle 1
      · rintro resolved s ⟨h, hle⟩
        refine wp_settles_bind (wp_drafts_of_only (Txn.only_exec
          fun _ db write hwrite => ?_) h) fun _ s h => ?_
        · exact spares_of_inTables _ (by decide) (by decide)
            (allIn_putWrites _ _ _ _ _ db write hwrite)
        intro finishedAt _ db' _
        exact ⟨_, (h.answered _ finishedAt).record _ _,
          .scraped ⟨rfl, rfl, rfl, rfl, hle⟩⟩

def Unposted (s : CycleSession) : Prop := s.history = []

omit [PythonRuntime] [PersistenceRuntime] in
theorem wp_unposted {α : Type} {p : CycleTxn α} {P : α → CycleSession → Prop}
    {created : Nat} {executions : List ExecutionRow}
    (h : Txn.wp rely ready p (settles (Drafts txn · created executions) P) s) :
    Txn.wp rely ready p (settles Unposted P) s := by
  refine Txn.wp_mono _ ?_ h
  rintro (error | value) s h
  · exact h.history
  · exact h

omit [PythonRuntime] in
/-- The counter of matches goes up with each match that is drafted. -/
theorem wp_persistMatch_drafts (userId : UserId) (now : DateTime) (found : AlertMatch)
    {created : Nat} {executions : List ExecutionRow} (h : Drafts txn s created executions) :
    Txn.wp rely ready (RunAlertCycle.persistMatch userId now created found)
      (settles Unposted fun created s => Drafts txn s created executions) s := by
  refine wp_settles_bind (P := fun matchId s =>
    Drafts txn s (created + if matchId.isSome then 1 else 0) executions) ?_ ?_
  · intro db _
    cases hfind : MatchRepository.find found.alertId found.propertyId (s.view db) with
    | some row =>
        simp only [MatchRepository.addIfNewWrites, hfind]
        exact h.wrote (by simp)
    | none =>
        simp only [MatchRepository.addIfNewWrites, hfind]
        exact h.insertMatch _
  · intro matchId s h
    cases matchId with
    | none => exact h
    | some matchId =>
        refine wp_settles_bind (wp_unposted (wp_drafts_query _ h)) fun listed s h => ?_
        refine wp_settles_bind (P := fun _ s => Drafts txn s (created + 1) executions)
          (wp_settles_ofExcept listed h.history fun _ => h) fun channels s h => ?_
        refine wp_settles_bind (wp_unposted (wp_drafts_of_only (Txn.only_forEach
          fun channel _ => Txn.only_exec fun stamp db => ?_) h)) fun _ s h => h
        unfold NotificationRepository.enqueueWrites
        split
        · simp
        · exact List.forall_mem_singleton.mpr (spares_of_inTables [.notifications]
            (by decide) (by decide) (List.mem_singleton_self _))

theorem wp_persistAlert_drafts (cycle : RunAlertCycle) (candidates : List Property)
    (now : DateTime) (alert : SearchAlert) {created : Nat}
    {executions : List ExecutionRow} (h : Drafts txn s created executions) :
    Txn.wp rely ready (cycle.persistAlert candidates now created alert)
      (settles Unposted fun created s => Drafts txn s created executions) s := by
  refine wp_settles_bind (P := fun _ s => Drafts txn s created executions)
    (wp_settles_ofExcept _ h.history fun _ => h) fun found s h => ?_
  refine wp_settles_bind (wp_settles_foldEach
    (fun _ created s => Drafts txn s created executions)
    (fun _ found _ created s _ h => wp_persistMatch_drafts alert.userId now found h) h)
    fun created s h => ?_
  refine wp_settles_bind (wp_unposted (wp_drafts_of_only (Txn.only_exec
    fun stamp db write hwrite => ?_) h)) fun _ s h => h
  exact spares_of_inTables _ (by decide) (by decide)
    (allIn_addWrites_alert _ stamp db write hwrite)

/-! ## One worker -/

/-- What a worker has posted when it returns; one that raises has posted nothing. -/
def PostedAs (planned : PlannedQuery) : Except PyError (Bool × Nat) → CycleSession → Prop :=
  settles Unposted fun reported s =>
    (s.posted matchTable.rows).length = reported.2 ∧
      Accounts planned reported.1 (s.posted executionTable.rows) ∧
      (reported.1 = false → reported.2 = 0)

variable {planned : PlannedQuery}

omit [PythonRuntime] [PersistenceRuntime] in
theorem wp_commit_drafts (reported : Bool × Nat) {executions : List ExecutionRow}
    (h : Drafts txn s reported.2 executions)
    (haccounts : Accounts planned reported.1 executions)
    (hfailed : reported.1 = false → reported.2 = 0) :
    Txn.wp rely (fun _ => True)
      ((Txn.commitOr .integrityError).bind fun _ => .done reported)
      (PostedAs planned) s := by
  refine ⟨trivial, ⟨?_, ?_, hfailed⟩, fun _ => h.history⟩
  · rw [Session.posted_committed, Session.posted, h.history]
    exact h.created
  · rw [Session.posted_committed, Session.posted, h.history]
    exact h.executions ▸ haccounts

theorem wp_persistMatches_posts (cycle : RunAlertCycle) (propertyIds : List PropertyId)
    (now : DateTime) {executions : List ExecutionRow} (h : Drafts txn s 0 executions)
    (haccounts : Accounts planned true executions) :
    Txn.wp rely (fun _ => True) (cycle.persistMatches planned propertyIds now)
      (PostedAs planned) s := by
  refine wp_settles_bind (wp_unposted (wp_drafts_of_only
    ((only_loadCandidates propertyIds).mono fun _ h => absurd h List.not_mem_nil) h))
    fun candidates s h => ?_
  refine wp_settles_bind (wp_settles_foldEach
    (fun _ created s => Drafts txn s created executions)
    (fun _ alert _ created s _ h => wp_persistAlert_drafts cycle candidates now alert h) h)
    fun created s h => ?_
  exact wp_commit_drafts (true, created) h haccounts fun h => by cases h

omit [PythonRuntime] [PersistenceRuntime] in
theorem wp_recordFailure_posts (error : String) (now : DateTime)
    (h : Drafts txn s 0 []) :
    Txn.wp rely (fun _ => True) (RunAlertCycle.recordFailure planned error now)
      (PostedAs planned) s := by
  intro finishedAt _ db _
  exact wp_commit_drafts (false, 0)
    ((h.answered .clock finishedAt).record
      (failedAttempt planned error now finishedAt) _)
    (.failed ⟨rfl, rfl, rfl, Option.some_ne_none error, rfl, rfl, rfl⟩) fun _ => rfl

theorem wp_runOne_posts (cycle : RunAlertCycle) :
    Txn.wp rely (fun _ => True) (cycle.runOne planned) (PostedAs planned) (.start txn) := by
  intro now _
  change Txn.wp rely _ ((cycle.resolveCandidates _ now).attempt.bind _) _ _
  refine (Txn.wp_bind _ _).mpr ((Txn.wp_attempt _).mpr (Txn.wp_mono _ ?_
    (wp_resolveCandidates_drafts cycle planned now
      ((Drafts.start txn).answered .clock now))))
  rintro (error | propertyIds) s h
  · cases error with
    | scraperError error => exact wp_recordFailure_posts error now h
    | _ => exact h.history
  · obtain ⟨executions, h, haccounts⟩ := h
    exact wp_persistMatches_posts cycle propertyIds now h haccounts

/-! ## A whole cycle -/

/-- The searches of a plan; a worker beyond it is idle. -/
def plannedAt (queries : List PlannedQuery) (i : Nat) : PlannedQuery :=
  (queries[i]?).getD ⟨"", "", ⟨"", .empty⟩, []⟩

theorem wp_worker_posts (cycle : RunAlertCycle) (queries : List PlannedQuery) (i : Nat) :
    Txn.wp rely (fun _ => True) (cycle.worker queries i)
      (PostedAs (plannedAt queries i)) (.start i) := by
  unfold RunAlertCycle.worker
  cases hquery : queries[i]? with
  | none => exact ⟨rfl, .cached, fun h => by cases h⟩
  | some query =>
      have hplanned : query = plannedAt queries i := by rw [plannedAt, hquery]; rfl
      rw [hplanned]
      exact wp_runOne_posts cycle

variable (cycle : RunAlertCycle) (queries : List PlannedQuery)
  (oracle : Oracle CycleCall CycleAnswer) (db : Store) (schedule : List Nat)

def endedAt : CycleSys := (Sys.start db (cycle.worker queries)).run oracle schedule

theorem holds_postedAs (i : Nat) :
    Sys.Holds (.finding fun _ => True) (fun _ => True) (PostedAs (plannedAt queries i))
      ((endedAt cycle queries oracle db schedule).workers i) := by
  have hstart : ∀ i, Sys.Holds (.finding fun _ => True) (fun _ => True)
      (PostedAs (plannedAt queries i))
      ((Sys.start db (cycle.worker queries)).workers i) :=
    fun i => wp_worker_posts cycle queries i
  exact (Sys.store_run_of_wp (fun _ _ _ _ _ => trivial) trivial hstart schedule).2 i

variable {cycle queries oracle db schedule}

theorem postedAs_of_finished {i : Nat} {outcome : Except PyError (Bool × Nat)}
    (h : (endedAt cycle queries oracle db schedule).Finished i outcome) :
    PostedAs (plannedAt queries i) outcome
      ((endedAt cycle queries oracle db schedule).workers i).session := by
  have hholds := holds_postedAs cycle queries oracle db schedule i
  rw [Sys.Holds, h, Txn.wp_ofExcept] at hholds
  exact hholds

omit [PythonRuntime] [PersistenceRuntime] in
theorem countP_accounts {planned : PlannedQuery} {succeeded : Bool}
    {executions : List ExecutionRow} (h : Accounts planned succeeded executions) :
    executions.countP (·.status = .failed) = (if succeeded then 0 else 1) ∧
      executions.length ≤ 1 := by
  cases h with
  | cached => simp
  | scraped h => simp [h.status]
  | failed h => simp [h.status]

omit [PythonRuntime] [PersistenceRuntime] in
theorem length_filter_not (reported : List (Bool × Nat)) :
    (reported.filter fun outcome => !outcome.1).length =
      (reported.map fun outcome => if outcome.1 then 0 else 1).sum := by
  induction reported with
  | nil => rfl
  | cons outcome reported ih =>
      obtain ⟨succeeded, created⟩ := outcome
      cases succeeded
      · simp [ih, Nat.add_comm]
      · simp [ih]

variable (cycle queries oracle db schedule) in
theorem table_endedAt {ρ : Type} (appended : Appended Store Write ρ) :
    (appended.table (endedAt cycle queries oracle db schedule).store).Perm
      (appended.table db ++ (List.range queries.length).flatMap fun i =>
        ((endedAt cycle queries oracle db schedule).workers i).session.posted
          appended.rows) := by
  refine appended.table_run db (cycle.worker queries) List.nodup_range (fun i hi => ?_)
    schedule
  refine ⟨.ok (true, 0), ?_⟩
  have hle : queries[i]? = none :=
    List.getElem?_eq_none (Nat.le_of_not_lt fun h => hi (List.mem_range.mpr h))
  show RunAlertCycle.worker cycle queries i = _
  rw [RunAlertCycle.worker, hle]
  rfl

omit [PythonRuntime] [PersistenceRuntime] in
theorem exists_results {n : Nat} {outcomes : Nat → Except PyError (Bool × Nat)}
    {reported : List (Bool × Nat)}
    (h : (List.range n).map outcomes = reported.map .ok) :
    ∃ results : Nat → Bool × Nat, reported = (List.range n).map results ∧
      ∀ i < n, outcomes i = .ok (results i) := by
  have hsome : ∀ i, ∃ result, i < n → outcomes i = .ok result := by
    intro i
    by_cases hi : i < n
    · have hmem : outcomes i ∈ (List.range n).map outcomes :=
        List.mem_map_of_mem (List.mem_range.mpr hi)
      rw [h] at hmem
      obtain ⟨result, -, hresult⟩ := List.mem_map.mp hmem
      exact ⟨result, fun _ => hresult.symm⟩
    · exact ⟨(true, 0), fun hlt => absurd hlt hi⟩
  choose results hresults using hsome
  refine ⟨results, ?_, hresults⟩
  have hmap : (List.range n).map outcomes = ((List.range n).map results).map .ok := by
    rw [List.map_map]
    exact List.map_congr_left fun i hi => hresults i (List.mem_range.mp hi)
  exact List.map_injective_iff.mpr (fun _ _ => Except.ok.inj) (h.symm.trans hmap)

/--
The report of a cycle accounts for the rows that it adds, whatever the order in which
its workers take their steps: a match for each one it counts, a failed execution for
each failed query, and no more executions than queries.
-/
theorem report_accounts_for_rows (cycle : RunAlertCycle) (queries : List PlannedQuery)
    (oracle : Oracle CycleCall CycleAnswer) (db : Store) (schedule : List Nat)
    (outcomes : Nat → Except PyError (Bool × Nat))
    (hended : ∀ i < queries.length,
      ((Sys.start db (cycle.worker queries)).run oracle schedule).Finished i (outcomes i))
    {summary : RunAlertCycleReport}
    (hreport : report ((List.range queries.length).map outcomes) = .ok summary) :
    let after := ((Sys.start db (cycle.worker queries)).run oracle schedule).store
    after.alertMatches.length = db.alertMatches.length + summary.matchesCreated ∧
      after.executions.countP (·.status = .failed) =
        db.executions.countP (·.status = .failed) + summary.queriesFailed ∧
      after.executions.length ≤ db.executions.length + summary.queriesPlanned := by
  intro after
  obtain ⟨reported, hreported, h⟩ := bind_eq_ok.mp hreport
  obtain rfl := pure_eq_ok.mp h
  obtain ⟨results, rfl, hresults⟩ := exists_results (mapM_id_eq_ok.mp hreported)
  have hposted : ∀ i ∈ List.range queries.length, PostedAs (plannedAt queries i)
      (.ok (results i))
      ((endedAt cycle queries oracle db schedule).workers i).session := by
    intro i hi
    rw [← hresults i (List.mem_range.mp hi)]
    exact postedAs_of_finished (hended i (List.mem_range.mp hi))
  have hmatches := table_endedAt cycle queries oracle db schedule matchTable
  have hexecutions := table_endedAt cycle queries oracle db schedule executionTable
  refine ⟨?_, ?_, ?_⟩
  · refine hmatches.length_eq.trans ?_
    rw [List.length_append, List.length_flatMap, List.map_map]
    refine congrArg (db.alertMatches.length + ·) (congrArg List.sum ?_)
    exact List.map_congr_left fun i hi => (hposted i hi).1
  · refine (hexecutions.countP_eq _).trans ?_
    rw [List.countP_append, List.countP_flatMap, length_filter_not, List.map_map]
    refine congrArg (_ + ·) (congrArg List.sum ?_)
    exact List.map_congr_left fun i hi => (countP_accounts (hposted i hi).2.1).1
  · refine hexecutions.length_eq.trans_le ?_
    rw [List.length_append, List.length_flatMap, List.length_map, List.length_range]
    refine Nat.add_le_add_left ?_ _
    have hle : ∀ k ∈ (List.range queries.length).map fun i =>
        (((endedAt cycle queries oracle db schedule).workers i).session.posted
          executionTable.rows).length, k ≤ 1 := by
      rw [List.forall_mem_map]
      exact fun i hi => (countP_accounts (hposted i hi).2.1).2
    simpa using List.sum_le_card_nsmul _ 1 hle

/-! ## The audit trail -/

theorem commitsLast_persistMatches (cycle : RunAlertCycle) (planned : PlannedQuery)
    (propertyIds : List PropertyId) (now : DateTime) :
    (cycle.persistMatches planned propertyIds now).CommitsLast := by
  refine Txn.commitsLast_bind_of_only (only_loadCandidates propertyIds) fun candidates => ?_
  refine Txn.commitsLast_bind_of_only (only_evaluateAndPersist cycle planned.alerts
    candidates now) fun created => ?_
  exact Txn.commitsLast_commitOr PyError.integrityError (true, created)

omit [PythonRuntime] [PersistenceRuntime] in
theorem commitsLast_recordFailure (planned : PlannedQuery) (error : String) (now : DateTime) :
    (RunAlertCycle.recordFailure planned error now).CommitsLast := by
  intro finishedAt
  refine Txn.commitsLast_bind_of_only (only_recordExecution
    (failedAttempt planned error now finishedAt)) fun _ => ?_
  exact Txn.commitsLast_commitOr PyError.integrityError (false, 0)

theorem commitsLast_runOne (cycle : RunAlertCycle) (planned : PlannedQuery) :
    (cycle.runOne planned).CommitsLast := by
  intro now
  refine Txn.commitsLast_bind_of_only
    (Txn.only_attempt (only_resolveCandidates cycle planned now)) fun outcome => ?_
  cases outcome with
  | ok propertyIds => exact commitsLast_persistMatches cycle planned propertyIds now
  | error error =>
      cases error with
      | scraperError error => exact commitsLast_recordFailure planned error now
      | _ => trivial

theorem commitsLast_worker (cycle : RunAlertCycle) (queries : List PlannedQuery) (i : Nat) :
    (cycle.worker queries i).CommitsLast := by
  unfold RunAlertCycle.worker
  split
  · exact commitsLast_runOne cycle _
  · trivial

/-- What a worker has added to the two tables: nothing, or all that it accounts for and
ever writes, once it has ended. -/
def Added (planned : PlannedQuery) (sys : CycleSys) (i : Nat) : Prop :=
  let s := (sys.workers i).session
  (s.posted matchTable.rows = [] ∧ s.posted executionTable.rows = []) ∨
    ∃ succeeded created, sys.Finished i (.ok (succeeded, created)) ∧ s.pending = [] ∧
      (s.posted matchTable.rows).length = created ∧
      Accounts planned succeeded (s.posted executionTable.rows) ∧
      (succeeded = false → created = 0)

/--
In every state of every interleaving of a cycle's workers, the matches and the executions
are those of the first state and those that the workers have committed.  Each worker has
committed either nothing, or all that it writes and accounts for: at most one execution,
whose counts fit its status, and no match next to a failure.
-/
theorem executions_are_an_audit_trail (cycle : RunAlertCycle)
    (queries : List PlannedQuery) (oracle : Oracle CycleCall CycleAnswer) (db : Store)
    (schedule : List Nat) :
    let after := (Sys.start db (cycle.worker queries)).run oracle schedule
    after.store.alertMatches.Perm (db.alertMatches ++ (List.range queries.length).flatMap
        fun i => (after.workers i).session.posted matchTable.rows) ∧
      after.store.executions.Perm (db.executions ++ (List.range queries.length).flatMap
        fun i => (after.workers i).session.posted executionTable.rows) ∧
      ∀ i planned, queries[i]? = some planned → Added planned after i := by
  intro after
  refine ⟨table_endedAt _ _ _ _ _ matchTable, table_endedAt _ _ _ _ _ executionTable,
    fun i planned hplanned => ?_⟩
  obtain ⟨hhistory, -⟩ | ⟨hpending, ⟨succeeded, created⟩, hfinished⟩ :=
    Sys.committed_last (commitsLast_worker cycle queries) schedule i
  · refine .inl ⟨?_, ?_⟩
    · rw [Session.posted, hhistory]
      rfl
    · rw [Session.posted, hhistory]
      rfl
  · obtain ⟨hmatches, haccounts, hfailed⟩ := postedAs_of_finished hfinished
    rw [plannedAt, hplanned] at haccounts
    exact .inr ⟨succeeded, created, hfinished, hpending, hmatches, haccounts, hfailed⟩

end Workers

theorem report_accounts_for_rows_cached :
    let after := ((Sys.start cachedStore
      (@RunAlertCycle.worker .plain .plain salesCycle [salesQuery])).run quietOracle
        (List.replicate 20 0)).store
    after.alertMatches.length = cachedStore.alertMatches.length + 1 ∧
      after.executions.countP (·.status = .failed) =
        cachedStore.executions.countP (·.status = .failed) + 0 ∧
      after.executions.length ≤ cachedStore.executions.length + 1 :=
  @report_accounts_for_rows .plain .plain salesCycle [salesQuery] quietOracle cachedStore
    (List.replicate 20 0) (fun _ => .ok (true, 1))
    (fun i hi => by obtain rfl : i = 0 := Nat.lt_one_iff.mp hi; rfl) ⟨1, 1, 0, 1⟩ rfl

end RealEstateTracker.Cycle
