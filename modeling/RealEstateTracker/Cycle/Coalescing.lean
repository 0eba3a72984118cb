import RealEstateTracker.Cycle.CacheAge

/-!
# Coalescing of searches

The locks of the signatures are made anew by each run, so two runs of the cycle
do not share them: both may look into the cache before either has committed what
it found.  A signature is fetched once when every worker that looks it up finds a
committed row, or is the first whose look-up misses.
-/

namespace RealEstateTracker.Cycle

open Foundation Domain Application Persistence

/-! ## Programs that ask no portal -/

def asksPortal : CycleCall → Bool
  | .scraperForPortal _ | .fetch _ => true
  | _ => false

def isScraperCall : CycleCall → Bool
  | .scraperForPortal _ => true
  | _ => false

def isFetch : CycleCall → Bool
  | .fetch _ => true
  | _ => false

def Quiet {α : Type} (p : CycleTxn α) : Prop :=
  p.Within (fun _ _ => True) fun request => asksPortal request = false

/-- The program fetches next, and asks no portal after that, or asks none at all. -/
def FetchNext {α : Type} (p : CycleTxn α) : Prop :=
  Quiet p ∨ ∃ query next, p = .call (.fetch query) next ∧ ∀ answer, Quiet (next answer)

section Programs

variable [PythonRuntime] [PersistenceRuntime]

omit [PythonRuntime] [PersistenceRuntime] in
theorem quiet_exec (writes : Stamp → Store → List Write) :
    Quiet (Txn.exec writes) :=
  Txn.within_exec fun _ _ _ _ => trivial

theorem quiet_storeListing (listing : RawListing) (resolved : Resolved)
    (result : NormalizationResult) : Quiet (storeListing listing resolved result) := by
  unfold storeListing
  dsimp only
  split
  · trivial
  · exact Txn.within_bind (Txn.within_bind ⟨rfl, fun _ => trivial⟩ fun _ =>
      Txn.within_bind (by simp) fun _ => quiet_exec _) fun _ =>
        Txn.within_bind (quiet_exec _) fun _ => trivial

theorem quiet_resolveListing (portalSlug : String) (resolved : Resolved)
    (listing : RawListing) : Quiet (resolveListing portalSlug resolved listing) := by
  refine Txn.within_bind (by simp) fun unchanged => ?_
  cases unchanged with
  | some propertyId => trivial
  | none =>
      exact Txn.within_bind ⟨rfl, fun _ => by simp⟩ fun result =>
        quiet_storeListing listing resolved result

theorem quiet_afterCandidates (cycle : RunAlertCycle) (planned : PlannedQuery)
    (now : DateTime) (outcome : Except PyError (List PropertyId)) :
    Quiet (afterCandidates cycle planned now outcome) :=
  asks_afterCandidates (K := fun request => asksPortal request = false) cycle planned now rfl
    outcome

theorem quiet_afterFetch (cycle : RunAlertCycle) (planned : PlannedQuery)
    (now : DateTime) (listings : List RawListing) :
    Quiet (do
      normalizerForPortal planned.portalSlug
      let resolved ← Txn.foldEach listings ⟨[], 0, 0⟩
        (resolveListing planned.portalSlug)
      Txn.exec fun _ => SearchCacheRepository.putWrites planned.signature
        planned.portalSlug resolved.propertyIds now cycle.cacheTtlSeconds
      let finishedAt ← clock
      recordExecution (successAttempt planned listings resolved now finishedAt)
      return resolved.propertyIds : CycleTxn (List PropertyId)) := by
  refine Txn.within_bind ⟨rfl, fun _ => by simp⟩ fun _ => ?_
  refine Txn.within_bind (Txn.within_foldEach fun resolved listing _ =>
    quiet_resolveListing _ resolved listing) fun resolved => ?_
  exact Txn.within_bind (quiet_exec _) fun _ =>
    Txn.within_bind ⟨rfl, fun _ => trivial⟩ fun finishedAt =>
      Txn.within_bind (quiet_exec _) fun _ => trivial

/-! ## Programs that publish what they found -/

def Puts (signature : String) : Write → Prop
  | .insertCache row | .updateCache row => row.querySignature = signature
  | _ => False

def PutPending (signature : String) (s : CycleSession) : Prop :=
  ∃ write ∈ s.pending, Puts signature write

def Published (signature : String) :
    Except PyError (Bool × Nat) → CycleSession → Prop
  | .ok (true, _), s => ∃ batch ∈ s.history, ∃ write ∈ batch, Puts signature write
  | _, _ => True

abbrev anything : CycleRely := ⟨fun _ _ _ => True, fun _ _ => True, True⟩

omit [PythonRuntime] [PersistenceRuntime] in
theorem wp_putPending {α : Type} {signature : String} {P : Write → Prop}
    {p : CycleTxn α} (h : p.Only P) {s : CycleSession}
    (hs : PutPending signature s) :
    Txn.wp anything (fun _ => True) p (fun _ s => PutPending signature s) s := by
  refine Txn.wp_of_only (fun s writes _ hs => ?_) (fun _ _ _ hs => hs) h hs
  obtain ⟨write, hwrite, hputs⟩ := hs
  exact ⟨write, List.mem_append_left _ hwrite, hputs⟩

omit [PythonRuntime] [PersistenceRuntime] in
theorem exists_puts_putWrites (signature portalSlug : String)
    (ids : List PropertyId) (now : DateTime) (ttl : Int) (db : Store) :
    ∃ write ∈ SearchCacheRepository.putWrites signature portalSlug ids now ttl db,
      Puts signature write := by
  unfold SearchCacheRepository.putWrites
  dsimp only
  split
  · exact ⟨_, .head _, rfl⟩
  · exact ⟨_, List.mem_append_right _ (.head _), rfl⟩

theorem wp_scrapeCandidates (cycle : RunAlertCycle) (planned : PlannedQuery)
    (now : DateTime) (s : CycleSession) :
    Txn.wp anything (fun _ => True) (cycle.scrapeCandidates planned now)
      (Txn.onOk fun _ s => PutPending planned.signature s) s := by
  rintro (error | _) -
  · trivial
  rintro (error | listings) -
  · trivial
  rintro (error | _) -
  · trivial
  change Txn.wp _ _ ((Txn.foldEach _ _ _).bind _) _ _
  refine Txn.wp_ends_bind (P := fun _ _ => True) (Txn.wp_mono _ ?_
    (Txn.wp_of_only (I := fun _ => True) (fun _ _ _ _ => trivial)
      (fun _ _ _ _ => trivial) (Txn.only_foldEach fun resolved listing _ =>
        only_resolveListing planned.portalSlug resolved listing) trivial)) ?_
  · rintro (error | resolved) s - <;> trivial
  intro resolved s _ db _ finishedAt _ db' _
  obtain ⟨write, hwrite, hputs⟩ := exists_puts_putWrites planned.signature
    planned.portalSlug resolved.propertyIds now cycle.cacheTtlSeconds (s.view db)
  refine ⟨write, ?_, hputs⟩
  simp [hwrite]

theorem wp_persistMatches_published (cycle : RunAlertCycle)
    (planned : PlannedQuery) (propertyIds : List PropertyId) (now : DateTime)
    {s : CycleSession} (hs : PutPending planned.signature s) :
    Txn.wp anything (fun _ => True) (cycle.persistMatches planned propertyIds now)
      (Published planned.signature) s := by
  refine (Txn.wp_bind _ _).mpr (Txn.wp_mono _ ?_
    (wp_putPending (only_loadCandidates propertyIds) hs))
  rintro (error | candidates) s hs
  · trivial
  refine (Txn.wp_bind _ _).mpr (Txn.wp_mono _ ?_
    (wp_putPending (only_evaluateAndPersist cycle _ candidates now) hs))
  rintro (error | created) s ⟨write, hwrite, hputs⟩
  · trivial
  · exact ⟨trivial, ⟨s.pending, by simp, write, hwrite, hputs⟩, fun _ => trivial⟩

theorem wp_published (cycle : RunAlertCycle) (planned : PlannedQuery)
    (now : DateTime) (s : CycleSession) :
    Txn.wp anything (fun _ => True) ((cycle.scrapeCandidates planned now).attempt.bind
      (afterCandidates cycle planned now)) (Published planned.signature) s := by
  refine (Txn.wp_bind _ _).mpr ((Txn.wp_attempt _).mpr (Txn.wp_mono _ ?_
    (wp_scrapeCandidates cycle planned now s)))
  rintro (error | propertyIds) s hs
  · cases error with
    | scraperError error => exact fun _ _ _ _ => ⟨trivial, trivial, fun _ => trivial⟩
    | _ => trivial
  · exact wp_persistMatches_published cycle planned propertyIds now hs

theorem runAt_eq (cycle : RunAlertCycle) (planned : PlannedQuery)
    (now : DateTime) :
    ∃ next, cycle.runAt planned now = .stmt (fun _ _ => []) next ∧
      ∀ stamp db,
        (SearchCacheRepository.get planned.signature now db ≠ none →
          Quiet (next stamp db)) ∧
        (SearchCacheRepository.get planned.signature now db = none →
          (∃ rest, next stamp db =
              .call (.scraperForPortal planned.portalSlug) rest ∧
            ∀ answer, FetchNext (rest answer)) ∧
          ∀ s, Txn.wp anything (fun _ => True) (next stamp db)
            (Published planned.signature) s) := by
  refine ⟨_, rfl, fun stamp db => ⟨fun hhit => ?_, fun hmiss => ?_⟩⟩
  · cases hget : SearchCacheRepository.get planned.signature now db with
    | none => exact absurd hget hhit
    | some propertyIds =>
        simp only [hget]
        exact quiet_afterCandidates cycle planned now (.ok propertyIds)
  · simp only [hmiss]
    refine ⟨⟨_, rfl, fun answer => ?_⟩, wp_published cycle planned now⟩
    cases answer with
    | error error =>
        exact .inl (quiet_afterCandidates cycle planned now (.error error))
    | ok =>
        refine .inr ⟨_, _, rfl, fun answer => ?_⟩
        cases answer with
        | error error => exact quiet_afterCandidates cycle planned now (.error error)
        | ok listings =>
            exact Txn.within_bind
              (Txn.within_attempt (quiet_afterFetch cycle planned now listings))
              (quiet_afterCandidates cycle planned now)

end Programs

/-! ## Phases of a worker -/

def callsOf (kind : CycleCall → Bool) (sys : CycleSys) (j : Nat) : Nat :=
  sys.log.countP fun entry => entry.1 = j ∧ kind entry.2.1

def nextCall {α : Type} : CycleTxn α → Option CycleCall
  | .call request _ => some request
  | _ => none

theorem callsOf_step (kind : CycleCall → Bool)
    (oracle : Oracle CycleCall CycleAnswer) (sys : CycleSys) (i j : Nat) :
    callsOf kind (sys.step oracle i) j = callsOf kind sys j +
      if i = j ∧ (nextCall (sys.workers i).code).any kind then 1 else 0 := by
  unfold callsOf
  generalize hstep : sys.step oracle i = sys'
  cases Sys.stepped hstep with
  | call request next hcode =>
      simp [hcode, nextCall, List.countP_append, List.countP_singleton]
  | returned value hcode => simp [hcode, nextCall]
  | raised error hcode => simp [hcode, nextCall]
  | stmt writes next hcode => simp [hcode, nextCall]
  | accepted next hcode => simp [hcode, nextCall]
  | refused next hcode => simp [hcode, nextCall]

/-- The worker has looked into the cache in vain: it asks the portal, or did. -/
def Missed (sys : CycleSys) (j : Nat) : Prop :=
  callsOf isScraperCall sys j ≠ 0 ∨
    ∃ portalSlug next, (sys.workers j).code = .call (.scraperForPortal portalSlug) next

section Phases

variable [PythonRuntime] [PersistenceRuntime]

/-- Where a worker is, and how often it has asked for a scraper and has fetched. -/
inductive Phase (cycle : RunAlertCycle) (planned : PlannedQuery)
    (clock : Nat → DateTime) : CycleTxn (Bool × Nat) → Nat → Nat → Prop
  | start : Phase cycle planned clock (cycle.runOne planned) 0 0
  | ready (op : Nat) :
      Phase cycle planned clock (cycle.runAt planned (clock op)) 0 0
  | missed (portalSlug : String)
      (next : Except PyError Unit → CycleTxn (Bool × Nat))
      (h : ∀ answer, FetchNext (next answer)) :
      Phase cycle planned clock (.call (.scraperForPortal portalSlug) next) 0 0
  | asked (p : CycleTxn (Bool × Nat)) (h : FetchNext p) :
      Phase cycle planned clock p 1 0
  | quiet (p : CycleTxn (Bool × Nat)) (h : Quiet p) (asked fetched : Nat)
      (hasked : asked ≤ 1) (hfetched : fetched ≤ asked) :
      Phase cycle planned clock p asked fetched

variable {cycle : RunAlertCycle} {planned : PlannedQuery} {sys : CycleSys}
  {oracle : Oracle CycleCall CycleAnswer} {i j : Nat}

theorem Phase.bound {clock : Nat → DateTime} {p : CycleTxn (Bool × Nat)}
    {asked fetched : Nat} (h : Phase cycle planned clock p asked fetched) :
    fetched ≤ asked ∧ asked ≤ 1 := by
  cases h with
  | quiet _ _ _ _ hasked hfetched => exact ⟨hfetched, hasked⟩
  | _ => decide

def InPhase (cycle : RunAlertCycle) (planned : PlannedQuery)
    (oracle : Oracle CycleCall CycleAnswer) (sys : CycleSys) (j : Nat) : Prop :=
  Phase cycle planned (fun op => oracle j op .clock) (sys.workers j).code
    (callsOf isScraperCall sys j) (callsOf isFetch sys j)

/-- Worker `i` is about to look into the cache, and will find nothing. -/
def Misses (cycle : RunAlertCycle) (planned : PlannedQuery)
    (oracle : Oracle CycleCall CycleAnswer) (sys : CycleSys) (i : Nat) : Prop :=
  ∃ op, (sys.workers i).code = cycle.runAt planned (oracle i op .clock) ∧
    SearchCacheRepository.get planned.signature (oracle i op .clock)
      ((sys.workers i).session.view sys.store) = none

omit [PythonRuntime] [PersistenceRuntime] in
theorem callsOf_step_of_none {kind : CycleCall → Bool}
    (h : (nextCall (sys.workers i).code).any kind = false) :
    callsOf kind (sys.step oracle i) i = callsOf kind sys i := by
  rw [callsOf_step, h]
  simp

omit [PythonRuntime] [PersistenceRuntime] in
theorem nextCall_of_quiet {α : Type} {p : CycleTxn α} (h : Quiet p)
    {kind : CycleCall → Bool}
    (hkind : ∀ request, asksPortal request = false → kind request = false) :
    (nextCall p).any kind = false := by
  cases p with
  | call request next => exact hkind request h.1
  | _ => rfl

omit [PythonRuntime] [PersistenceRuntime] in
theorem isScraperCall_of_quiet (request : CycleCall)
    (h : asksPortal request = false) : isScraperCall request = false := by
  cases request <;> first | rfl | cases h

omit [PythonRuntime] [PersistenceRuntime] in
theorem isFetch_of_quiet (request : CycleCall)
    (h : asksPortal request = false) : isFetch request = false := by
  cases request <;> first | rfl | cases h

omit [PythonRuntime] [PersistenceRuntime] in
theorem code_step_call {request : CycleCall}
    {next : CycleAnswer request → CycleTxn (Bool × Nat)}
    (hcode : (sys.workers i).code = .call request next) :
    ((sys.step oracle i).workers i).code =
      next (oracle i (sys.workers i).session.ops request) := by
  simp [Sys.step, hcode]

omit [PythonRuntime] [PersistenceRuntime] in
theorem code_step_stmt {writes : Stamp → Store → List Write}
    {next : Stamp → Store → CycleTxn (Bool × Nat)}
    (hcode : (sys.workers i).code = .stmt writes next) :
    ((sys.step oracle i).workers i).code =
      next (sys.workers i).session.stamp
        ((sys.workers i).session.view sys.store) := by
  simp [Sys.step, hcode]

theorem not_quiet_runAt (now : DateTime) : ¬Quiet (cycle.runAt planned now) := by
  obtain ⟨next, hrun, hnext⟩ := runAt_eq cycle planned now
  intro hquiet
  rw [hrun] at hquiet
  obtain ⟨⟨rest, hrest, -⟩, -⟩ := (hnext ⟨0, 0⟩ .empty).2 rfl
  have hasks := hquiet.2 ⟨0, 0⟩ .empty
  rw [hrest] at hasks
  cases hasks.1

theorem InPhase.not_missed (h : InPhase cycle planned oracle sys i) {now : DateTime}
    (hcode : (sys.workers i).code = cycle.runAt planned now) : ¬Missed sys i := by
  obtain ⟨next, hrun, -⟩ := runAt_eq cycle planned now
  have hquiet : ¬Quiet (cycle.runAt planned now) := not_quiet_runAt now
  rintro (hasked | ⟨portalSlug, rest, hcall⟩)
  · unfold InPhase at h
    generalize (sys.workers i).code = code at h hcode
    generalize callsOf isScraperCall sys i = asked at h hasked
    generalize callsOf isFetch sys i = fetched at h
    cases h with
    | asked p hp =>
        rcases hp with hp | ⟨query, rest, rfl, -⟩
        · exact hquiet (hcode ▸ hp)
        · rw [hrun] at hcode
          cases hcode
    | quiet p hp => exact hquiet (hcode ▸ hp)
    | _ => exact hasked rfl
  · rw [hcode, hrun] at hcall
    cases hcall

theorem inPhase_step_of_quiet (h : Quiet (sys.workers i).code)
    (hasked : callsOf isScraperCall sys i ≤ 1)
    (hfetched : callsOf isFetch sys i ≤ callsOf isScraperCall sys i) :
    InPhase cycle planned oracle (sys.step oracle i) i ∧
      (Missed (sys.step oracle i) i → Missed sys i) := by
  have hquiet : Quiet ((sys.step oracle i).workers i).code := Sys.within_step oracle h i
  have hscraper : callsOf isScraperCall (sys.step oracle i) i = _ :=
    callsOf_step_of_none (nextCall_of_quiet h isScraperCall_of_quiet)
  have hfetch : callsOf isFetch (sys.step oracle i) i = _ :=
    callsOf_step_of_none (nextCall_of_quiet h isFetch_of_quiet)
  refine ⟨?_, ?_⟩
  · rw [InPhase, hscraper, hfetch]
    exact .quiet _ hquiet _ _ hasked hfetched
  · rintro (hmissed | ⟨portalSlug, next, hcode⟩)
    · exact .inl (hscraper ▸ hmissed)
    · rw [hcode] at hquiet
      cases hquiet.1

abbrev Publishes (signature : String) (sys : CycleSys) (j : Nat) : Prop :=
  Sys.Holds anything (fun _ => True) (Published signature) (sys.workers j)

theorem inPhase_step (h : InPhase cycle planned oracle sys i) :
    InPhase cycle planned oracle (sys.step oracle i) i ∧
      (Missed (sys.step oracle i) i → Missed sys i ∨
        (Misses cycle planned oracle sys i ∧
          Publishes planned.signature (sys.step oracle i) i)) := by
  unfold InPhase at h
  generalize hcode : (sys.workers i).code = code at h
  generalize hasked : callsOf isScraperCall sys i = asked at h
  generalize hfetched : callsOf isFetch sys i = fetched at h
  cases h with
  | start =>
      have hclock : (sys.workers i).code = .call .clock fun now =>
        cycle.runAt planned now := hcode
      have hscraper : callsOf isScraperCall (sys.step oracle i) i = 0 :=
        (callsOf_step_of_none (by rw [hclock]; rfl)).trans hasked
      have hfetch : callsOf isFetch (sys.step oracle i) i = 0 :=
        (callsOf_step_of_none (by rw [hclock]; rfl)).trans hfetched
      refine ⟨?_, ?_⟩
      · rw [InPhase, code_step_call hclock, hscraper, hfetch]
        exact .ready _
      · rintro (hmissed | ⟨portalSlug, next, hnext⟩)
        · exact absurd hscraper hmissed
        · rw [code_step_call hclock] at hnext
          cases hnext
  | ready op =>
      obtain ⟨next, hrun, hnext⟩ := runAt_eq cycle planned (oracle i op .clock)
      have hlookup := hcode.trans hrun
      have hscraper : callsOf isScraperCall (sys.step oracle i) i = 0 :=
        (callsOf_step_of_none (by rw [hlookup]; rfl)).trans hasked
      have hfetch : callsOf isFetch (sys.step oracle i) i = 0 :=
        (callsOf_step_of_none (by rw [hlookup]; rfl)).trans hfetched
      obtain ⟨hhit, hmiss⟩ := hnext (sys.workers i).session.stamp
        ((sys.workers i).session.view sys.store)
      rw [InPhase, code_step_stmt hlookup, hscraper, hfetch]
      by_cases hget : SearchCacheRepository.get planned.signature
          (oracle i op .clock) ((sys.workers i).session.view sys.store) = none
      · obtain ⟨⟨rest, hrest, hfetches⟩, hpublishes⟩ := hmiss hget
        have hpublishes : Publishes planned.signature (sys.step oracle i) i := by
          rw [Publishes, Sys.Holds, code_step_stmt hlookup]
          exact hpublishes _
        rw [hrest]
        exact ⟨.missed _ _ hfetches, fun _ => .inr ⟨⟨op, hcode, hget⟩, hpublishes⟩⟩
      · refine ⟨.quiet _ (hhit hget) 0 0 (by decide) (by decide), ?_⟩
        rintro (hmissed | ⟨portalSlug, rest, hrest⟩)
        · exact absurd hscraper hmissed
        · have hquiet := hhit hget
          rw [← @code_step_stmt sys oracle i _ _ hlookup, hrest] at hquiet
          cases hquiet.1
  | missed portalSlug next hnext =>
      have hscraper : callsOf isScraperCall (sys.step oracle i) i = 1 := by
        rw [callsOf_step, hcode, hasked]
        simp [nextCall, isScraperCall]
      have hfetch : callsOf isFetch (sys.step oracle i) i = 0 :=
        (callsOf_step_of_none (by rw [hcode]; rfl)).trans hfetched
      rw [InPhase, code_step_call hcode, hscraper, hfetch]
      exact ⟨.asked _ (hnext _), fun _ => .inl (.inr ⟨portalSlug, next, hcode⟩)⟩
  | asked p hp =>
      have hmissed : Missed sys i := .inl (by rw [hasked]; decide)
      refine ⟨?_, fun _ => .inl hmissed⟩
      rcases hp with hp | ⟨query, next, rfl, hnext⟩
      · exact (inPhase_step_of_quiet (hcode ▸ hp) hasked.le
          (by rw [hasked, hfetched]; decide)).1
      · have hscraper : callsOf isScraperCall (sys.step oracle i) i = 1 :=
          (callsOf_step_of_none (by rw [hcode]; rfl)).trans hasked
        have hfetch : callsOf isFetch (sys.step oracle i) i = 1 := by
          rw [callsOf_step, hcode, hfetched]
          simp [nextCall, isFetch]
        rw [InPhase, code_step_call hcode, hscraper, hfetch]
        exact .quiet _ (hnext _) 1 1 le_rfl le_rfl
  | quiet p hp asked fetched hone hle =>
      obtain ⟨hphase, hmissed⟩ := @inPhase_step_of_quiet _ _ cycle planned sys oracle i
        (hcode ▸ hp) (hasked ▸ hone) (by rw [hasked, hfetched]; exact hle)
      exact ⟨hphase, fun h => .inl (hmissed h)⟩

end Phases

/-! ## Cached rows that stay -/

def Present (signature : String) (db : Store) : Prop :=
  ∃ row ∈ db.caches, row.querySignature = signature

/-- A row that no clock of the run has passed. -/
def Live (oracle : Oracle CycleCall CycleAnswer) (row : CacheRow) : Prop :=
  ∀ k op, (oracle k op .clock : DateTime) < row.expiresAt

def LiveWrite (oracle : Oracle CycleCall CycleAnswer) (signature : String) :
    Write → Prop
  | .insertCache row | .updateCache row =>
      row.querySignature = signature → Live oracle row
  | _ => True

def PutOver (signature : String) (db : Store) : Write → Prop
  | .updateCache row => row.querySignature = signature → Present signature db
  | _ => True

def LivePut (oracle : Oracle CycleCall CycleAnswer) (signature : String)
    (db : Store) (write : Write) : Prop :=
  LiveWrite oracle signature write ∧ PutOver signature db write

section Rows

variable {signature : String} {oracle : Oracle CycleCall CycleAnswer}
  {write : Write} {writes : List Write} {db db' : Store}

theorem present_apply : Present signature (write.apply db) ↔
    Present signature db ∨
      ∃ row, write = .insertCache row ∧ row.querySignature = signature := by
  cases write with
  | insertCache row => simp [Present, Write.apply, or_and_right, exists_or]
  | updateCache model =>
      simp only [Present, Write.apply, updateWhere, List.mem_map, reduceCtorEq,
        false_and, exists_false, or_false]
      constructor
      · rintro ⟨_, ⟨stored, hstored, rfl⟩, hsignature⟩
        refine ⟨stored, hstored, ?_⟩
        split at hsignature <;> exact hsignature
      · rintro ⟨stored, hstored, hsignature⟩
        refine ⟨_, ⟨stored, hstored, rfl⟩, ?_⟩
        split <;> exact hsignature
  | _ => simp [Present, Write.apply]

theorem present_applyAll : Present signature (applyAll writes db) ↔
    Present signature db ∨
      ∃ row, .insertCache row ∈ writes ∧ row.querySignature = signature := by
  induction writes generalizing db with
  | nil => simp
  | cons write writes ih =>
      rw [applyAll_cons, ih, apply_eq, present_apply, or_assoc]
      refine or_congr_right ?_
      simp only [List.mem_cons, or_and_right, exists_or, eq_comm]

theorem present_applyAll_of_puts (h : ∀ write ∈ writes, PutOver signature db write)
    (hputs : ∃ write ∈ writes, Puts signature write) :
    Present signature (applyAll writes db) := by
  obtain ⟨write, hwrite, hputs⟩ := hputs
  rw [present_applyAll]
  cases write with
  | insertCache row => exact .inr ⟨row, hwrite, hputs⟩
  | updateCache row => exact .inl (h _ hwrite hputs)
  | _ => exact hputs.elim

def LiveRows (oracle : Oracle CycleCall CycleAnswer) (signature : String)
    (db : Store) : Prop :=
  ∀ row ∈ db.caches, row.querySignature = signature → Live oracle row

theorem liveRows_apply (hwrite : LiveWrite oracle signature write)
    (h : LiveRows oracle signature db) :
    LiveRows oracle signature (write.apply db) := by
  cases write with
  | insertCache row =>
      refine List.forall_mem_append.mpr ⟨h, fun stored hstored => ?_⟩
      rw [List.mem_singleton.mp hstored]
      exact hwrite
  | updateCache model =>
      intro row hrow hsignature
      obtain ⟨stored, hstored, rfl⟩ := List.mem_map.mp hrow
      split at hsignature
      · next heq =>
        rw [if_pos heq]
        have hmodel : stored.querySignature = model.querySignature := by
          simpa using heq
        exact hwrite (hmodel.symm.trans hsignature)
      · next hne =>
        rw [if_neg hne]
        exact h stored hstored hsignature
  | _ => exact h

theorem liveRows_applyAll (hwrites : ∀ write ∈ writes, LiveWrite oracle signature write)
    (h : LiveRows oracle signature db) :
    LiveRows oracle signature (applyAll writes db) := by
  induction writes generalizing db with
  | nil => exact h
  | cons write writes ih =>
      obtain ⟨hwrite, hwrites⟩ := List.forall_mem_cons.mp hwrites
      exact ih hwrites (liveRows_apply hwrite h)

theorem get_ne_none (hpresent : Present signature db)
    (hlive : LiveRows oracle signature db) (k op : Nat) :
    SearchCacheRepository.get signature (oracle k op .clock) db ≠ none := by
  obtain ⟨row, hrow, hsignature⟩ := hpresent
  unfold SearchCacheRepository.get
  cases hfind : SearchCacheRepository.find signature db with
  | none =>
      have hnone := List.find?_eq_none.mp hfind row hrow
      simp [hsignature] at hnone
  | some found =>
      have hfound : found.querySignature = signature := by
        simpa using List.find?_some hfind
      have hexpires := hlive found (List.mem_of_find?_eq_some hfind) hfound k op
      simp [not_le.mpr hexpires]

end Rows

/-! ## What every state of a run keeps -/

section Runs

variable [PythonRuntime] [PersistenceRuntime] {cycle : RunAlertCycle}
  {planned : Nat → PlannedQuery} {oracle : Oracle CycleCall CycleAnswer}
  {signature : String} {sys : CycleSys} {i : Nat}

structure WorkerCached (oracle : Oracle CycleCall CycleAnswer) (signature : String)
    (db : Store) (s : CycleSession) : Prop where
  writes : ∀ write ∈ s.pending, LiveWrite oracle signature write
  pending : PutPending signature s → Present signature (s.view db)
  committed : (∃ batch ∈ s.history, ∃ write ∈ batch, Puts signature write) →
    Present signature db

structure Cached (cycle : RunAlertCycle) (planned : Nat → PlannedQuery)
    (oracle : Oracle CycleCall CycleAnswer) (signature : String)
    (sys : CycleSys) : Prop where
  code : ∀ j, (sys.workers j).code = cycle.runOne (planned j) ∨
    (sys.workers j).code.Within (LivePut oracle signature) fun _ => True
  rows : LiveRows oracle signature sys.store
  workers : ∀ j, WorkerCached oracle signature sys.store (sys.workers j).session

/-- No cached row expires while the run goes on. -/
def NoExpiry (cycle : RunAlertCycle) (oracle : Oracle CycleCall CycleAnswer) : Prop :=
  ∀ j op k op', (oracle k op' .clock : DateTime) <
    (oracle j op .clock : DateTime) + cycle.cacheTtlSeconds * 1000000

omit [PythonRuntime] [PersistenceRuntime] in
theorem livePut_of_putAt (hlive : NoExpiry cycle oracle) {query : PlannedQuery}
    {j op : Nat} {db : Store} {write : Write}
    (h : PutAt cycle query (oracle j op .clock) db write) :
    LivePut oracle signature db write := by
  have hrow : ∀ row, PutRow cycle query (oracle j op .clock) row → Live oracle row :=
    fun row hrow k op' => hrow.expiresAt ▸ hlive j op k op'
  cases write with
  | insertCache row => exact ⟨fun _ => hrow row h, trivial⟩
  | updateCache row =>
      refine ⟨fun _ => hrow row h.1, fun hsignature => ?_⟩
      obtain ⟨stored, hstored⟩ := Option.isSome_iff_exists.mp h.2
      refine ⟨stored, List.mem_of_find?_eq_some hstored, ?_⟩
      have hfound : stored.querySignature = query.signature := by
        simpa using List.find?_some hstored
      rw [hfound, ← h.1.signature, hsignature]
  | _ => exact ⟨trivial, trivial⟩

theorem Cached.code_step (h : Cached cycle planned oracle signature sys)
    (hlive : NoExpiry cycle oracle) (i j : Nat) :
    ((sys.step oracle i).workers j).code = cycle.runOne (planned j) ∨
      ((sys.step oracle i).workers j).code.Within (LivePut oracle signature)
        fun _ => True := by
  rcases h.code j with hcode | hcode
  · by_cases hij : j = i
    · subst hij
      have hclock : (sys.workers j).code = .call .clock fun now =>
        cycle.runAt (planned j) now := hcode
      rw [code_step_call hclock]
      exact .inr (within_runAt.mono (fun _ _ => livePut_of_putAt hlive) fun _ h => h)
    · rw [Sys.workers_step_of_ne oracle sys hij]
      exact .inl hcode
  · exact .inr (Sys.within_step oracle hcode i)

omit [PythonRuntime] [PersistenceRuntime] in
theorem WorkerCached.wrote {db : Store} {s : CycleSession} {writes : List Write}
    (h : WorkerCached oracle signature db s)
    (hwrites : ∀ write ∈ writes, LivePut oracle signature (s.view db) write) :
    WorkerCached oracle signature db (s.wrote writes) := by
  refine ⟨List.forall_mem_append.mpr ⟨h.writes, fun write hwrite =>
    (hwrites write hwrite).1⟩, ?_, h.committed⟩
  rintro ⟨write, hwrite, hputs⟩
  rw [Session.view_wrote]
  rcases List.mem_append.mp hwrite with hwrite | hwrite
  · exact present_applyAll.mpr (.inl (h.pending ⟨write, hwrite, hputs⟩))
  · exact present_applyAll_of_puts (fun write hwrite => (hwrites write hwrite).2)
      ⟨write, hwrite, hputs⟩

omit [PythonRuntime] [PersistenceRuntime] in
theorem WorkerCached.later {db : Store} {s : CycleSession} {writes : List Write}
    (h : WorkerCached oracle signature db s) :
    WorkerCached oracle signature (applyAll writes db) s := by
  have hkept : Present signature db → Present signature (applyAll writes db) :=
    fun hpresent => present_applyAll.mpr (.inl hpresent)
  refine ⟨h.writes, fun hputs => ?_, fun hputs => hkept (h.committed hputs)⟩
  exact present_applyAll.mpr ((present_applyAll.mp (h.pending hputs)).imp_left hkept)

omit [PythonRuntime] [PersistenceRuntime] in
theorem WorkerCached.committed_session {db : Store} {s : CycleSession}
    (h : WorkerCached oracle signature db s) :
    WorkerCached oracle signature (s.view db) s.committed := by
  refine ⟨by simp, by rintro ⟨write, hwrite, -⟩; simp at hwrite, ?_⟩
  rintro ⟨batch, hbatch, hputs⟩
  rw [Session.history_committed] at hbatch
  rcases List.mem_append.mp hbatch with hbatch | hbatch
  · exact present_applyAll.mpr (.inl (h.committed ⟨batch, hbatch, hputs⟩))
  · rw [List.mem_singleton.mp hbatch] at hputs
    exact h.pending hputs

theorem cached_step (hlive : NoExpiry cycle oracle)
    (h : Cached cycle planned oracle signature sys) (i : Nat) :
    Cached cycle planned oracle signature (sys.step oracle i) := by
  have hcode := h.code_step hlive i
  have hi := h.workers i
  generalize hstep : sys.step oracle i = sys' at hcode
  cases Sys.stepped hstep with
  | returned => exact h
  | raised => exact h
  | stmt writes next hstmt =>
      have hwithin : (sys.workers i).code.Within (LivePut oracle signature)
          fun _ => True := by
        refine (h.code i).resolve_left fun hstart => ?_
        rw [hstmt, runOne_eq] at hstart
        cases hstart
      rw [hstmt] at hwithin
      exact ⟨hcode, h.rows, Sys.forall_setWorker
        (P := fun worker => WorkerCached oracle signature _ worker.session)
        (hi.wrote (hwithin.1 _ _)) h.workers⟩
  | call request next hcall =>
      exact ⟨hcode, h.rows, Sys.forall_setWorker
        (P := fun worker => WorkerCached oracle signature _ worker.session)
        ⟨hi.writes, hi.pending, hi.committed⟩ h.workers⟩
  | accepted next hcommit =>
      exact ⟨hcode, liveRows_applyAll hi.writes h.rows, Sys.forall_setWorker
        (P := fun worker => WorkerCached oracle signature _ worker.session)
        hi.committed_session fun j => (h.workers j).later⟩
  | refused next hcommit =>
      refine ⟨hcode, h.rows, Sys.forall_setWorker
        (P := fun worker => WorkerCached oracle signature _ worker.session)
        ⟨by simp, ?_, hi.committed⟩ h.workers⟩
      rintro ⟨write, hwrite, -⟩
      simp at hwrite

/-! ## At most one fetch -/

/--
If worker `i` is about to look its signature up, then every other worker that has
looked it up in vain has returned, with its matches committed.
-/
def LookupIsCurrent (cycle : RunAlertCycle) (planned : Nat → PlannedQuery)
    (sys : CycleSys) (i : Nat) : Prop :=
  ∀ now, (sys.workers i).code = cycle.runAt (planned i) now →
    ∀ j, j ≠ i → (planned j).signature = (planned i).signature → Missed sys j →
      ∃ created, sys.Finished j (.ok (true, created))

def fetchesOf (planned : Nat → PlannedQuery) (signature : String)
    (sys : CycleSys) : Nat :=
  sys.log.countP fun entry =>
    (planned entry.1).signature = signature ∧ isFetch entry.2.1

/-- One worker at most has looked the signature up in vain. -/
structure Coalesced (cycle : RunAlertCycle) (planned : Nat → PlannedQuery)
    (oracle : Oracle CycleCall CycleAnswer) (signature : String)
    (sys : CycleSys) : Prop where
  phases : ∀ j, InPhase cycle (planned j) oracle sys j
  cached : Cached cycle planned oracle signature sys
  publishes : ∀ j, (planned j).signature = signature → Missed sys j →
    Publishes signature sys j
  single : ∀ j k, (planned j).signature = signature →
    (planned k).signature = signature → Missed sys j → Missed sys k → j = k

omit [PythonRuntime] [PersistenceRuntime] in
theorem missed_step_of_ne {j : Nat} (h : j ≠ i) :
    Missed (sys.step oracle i) j ↔ Missed sys j := by
  have hcalls : callsOf isScraperCall (sys.step oracle i) j =
      callsOf isScraperCall sys j := by
    rw [callsOf_step]
    simp [h.symm]
  rw [Missed, Missed, hcalls, Sys.workers_step_of_ne oracle sys h]

omit [PythonRuntime] [PersistenceRuntime] in
theorem publishes_step {j : Nat} (h : Publishes signature sys j) (i : Nat) :
    Publishes signature (sys.step oracle i) j := by
  by_cases hij : j = i
  · subst hij
    refine Sys.holds_step h ⟨trivial, ?_⟩
    split
    · trivial
    · exact fun _ => trivial
    · trivial
  · rw [Publishes, Sys.workers_step_of_ne oracle sys hij]
    exact h

theorem Coalesced.first (h : Coalesced cycle planned oracle signature sys)
    (hsignature : (planned i).signature = signature)
    (hcurrent : LookupIsCurrent cycle planned sys i)
    (hmisses : Misses cycle (planned i) oracle sys i) (j : Nat)
    (hj : (planned j).signature = signature) : ¬Missed sys j := by
  intro hmissed
  obtain ⟨op, hcode, hget⟩ := hmisses
  have hji : j ≠ i := by
    rintro rfl
    exact (h.phases j).not_missed hcode hmissed
  obtain ⟨created, hfinished⟩ :=
    hcurrent _ hcode j hji (hj.trans hsignature.symm) hmissed
  have hpublished := h.publishes j hj hmissed
  rw [Publishes, Sys.Holds, hfinished] at hpublished
  have hpresent := (h.cached.workers j).committed hpublished
  have hlive := liveRows_applyAll (h.cached.workers i).writes h.cached.rows
  rw [hsignature] at hget
  exact get_ne_none (present_applyAll.mpr (.inl hpresent)) hlive i op hget

theorem coalesced_step (hlive : NoExpiry cycle oracle)
    (h : Coalesced cycle planned oracle signature sys)
    (hcurrent : (planned i).signature = signature →
      LookupIsCurrent cycle planned sys i) :
    Coalesced cycle planned oracle signature (sys.step oracle i) := by
  obtain ⟨hphase, hmissed⟩ := inPhase_step (h.phases i)
  have hcases : ∀ j, (planned j).signature = signature →
      Missed (sys.step oracle i) j → Missed sys j ∨
        (j = i ∧ Publishes signature (sys.step oracle i) i ∧
          ∀ k, (planned k).signature = signature → ¬Missed sys k) := by
    intro j hj hmissed'
    by_cases hij : j = i
    · subst hij
      rcases hmissed hmissed' with hbefore | ⟨hmisses, hpublishes⟩
      · exact .inl hbefore
      · exact .inr ⟨rfl, hj ▸ hpublishes, h.first hj (hcurrent hj) hmisses⟩
    · exact .inl ((missed_step_of_ne hij).mp hmissed')
  constructor
  case phases =>
    intro j
    by_cases hij : j = i
    · exact hij ▸ hphase
    · have hscraper := callsOf_step isScraperCall oracle sys i j
      have hfetch := callsOf_step isFetch oracle sys i j
      simp only [Ne.symm hij, false_and, if_false, Nat.add_zero] at hscraper hfetch
      rw [InPhase, hscraper, hfetch, Sys.workers_step_of_ne oracle sys hij]
      exact h.phases j
  case cached => exact cached_step hlive h.cached i
  case publishes =>
    intro j hj hmissed'
    rcases hcases j hj hmissed' with hbefore | ⟨rfl, hpublishes, -⟩
    · exact publishes_step (h.publishes j hj hbefore) i
    · exact hpublishes
  case single =>
    intro j k hj hk hmissedj hmissedk
    rcases hcases j hj hmissedj with hjbefore | ⟨hji, -, hnone⟩
    · rcases hcases k hk hmissedk with hkbefore | ⟨-, -, hnone⟩
      · exact h.single j k hj hk hjbefore hkbefore
      · exact absurd hjbefore (hnone j hj)
    · rcases hcases k hk hmissedk with hkbefore | ⟨hki, -, -⟩
      · exact absurd hkbefore (hnone k hk)
      · exact hji.trans hki.symm

theorem not_missed_of_not_mem {db : Store} {schedule : List Nat} {j : Nat}
    (h : j ∉ schedule) : ¬Missed
      ((Sys.start db fun i => cycle.runOne (planned i)).run oracle schedule) j := by
  induction schedule using List.reverseRecOn with
  | nil =>
      rintro (hmissed | ⟨portalSlug, next, hcode⟩)
      · exact hmissed rfl
      · cases hcode
  | append_singleton schedule i ih =>
      simp only [List.mem_append, List.mem_singleton, not_or] at h
      rw [Sys.run_concat, missed_step_of_ne h.2]
      exact ih h.1

theorem coalesced_start {db : Store} (hempty : ¬Present signature db) :
    Coalesced cycle planned oracle signature
      (Sys.start db fun i => cycle.runOne (planned i)) := by
  have hmissed : ∀ j, ¬Missed (Sys.start db fun i => cycle.runOne (planned i)) j :=
    fun j => @not_missed_of_not_mem _ _ cycle planned oracle db [] j List.not_mem_nil
  refine ⟨fun j => .start, ⟨fun j => .inl rfl, ?_, fun j => ⟨?_, ?_, ?_⟩⟩,
    fun j _ h => absurd h (hmissed j), fun j _ _ _ h => absurd h (hmissed j)⟩
  · exact fun row hrow hsignature => absurd ⟨row, hrow, hsignature⟩ hempty
  · simp [Sys.start]
  · rintro ⟨write, hwrite, -⟩
    simp [Sys.start] at hwrite
  · rintro ⟨batch, hbatch, -⟩
    simp [Sys.start] at hbatch

omit [PythonRuntime] [PersistenceRuntime] in
theorem callsOf_ne_zero {kind : CycleCall → Bool}
    {entry : Nat × ((request : CycleCall) × CycleAnswer request)}
    (hentry : entry ∈ sys.log) (hkind : kind entry.2.1 = true) :
    callsOf kind sys entry.1 ≠ 0 := by
  have hpos : 0 < callsOf kind sys entry.1 :=
    List.countP_pos_iff.mpr ⟨entry, hentry, by simp [hkind]⟩
  exact hpos.ne'

theorem Coalesced.fetched (h : Coalesced cycle planned oracle signature sys) (j : Nat) :
    callsOf isFetch sys j ≤ 1 ∧ (callsOf isFetch sys j ≠ 0 → Missed sys j) := by
  have hphase := h.phases j
  obtain ⟨hfetched, hasked⟩ := hphase.bound
  exact ⟨hfetched.trans hasked, fun hfetch => .inl (by omega)⟩

theorem Coalesced.fetchesOf_le (h : Coalesced cycle planned oracle signature sys) :
    fetchesOf planned signature sys ≤ 1 := by
  by_cases hnone : fetchesOf planned signature sys = 0
  · omega
  · obtain ⟨first, hfirst, hkind⟩ := List.countP_pos_iff.mp (Nat.pos_of_ne_zero hnone)
    simp only [decide_eq_true_eq] at hkind
    have hmissed := (h.fetched first.1).2 (callsOf_ne_zero hfirst hkind.2)
    have hle : fetchesOf planned signature sys ≤ callsOf isFetch sys first.1 := by
      refine List.countP_mono_left fun entry hentry hfetch => ?_
      simp only [decide_eq_true_eq] at hfetch ⊢
      have hmissed' := (h.fetched entry.1).2 (callsOf_ne_zero hentry hfetch.2)
      exact ⟨h.single _ _ hfetch.1 hkind.1 hmissed' hmissed, hfetch.2⟩
    exact hle.trans (h.fetched first.1).1

/--
A signature is fetched at most once when no worker looks it up while the search of
another, which found nothing in the cache, is not committed.
-/
theorem signature_fetched_at_most_once (cycle : RunAlertCycle)
    (planned : Nat → PlannedQuery) (signature : String) {db : Store}
    (hempty : ¬Present signature db) (oracle : Oracle CycleCall CycleAnswer)
    (hlive : NoExpiry cycle oracle) (schedule : List Nat)
    (hcurrent : ∀ before i after, schedule = before ++ i :: after →
      (planned i).signature = signature → LookupIsCurrent cycle planned
        ((Sys.start db fun i => cycle.runOne (planned i)).run oracle before) i) :
    fetchesOf planned signature
      ((Sys.start db fun i => cycle.runOne (planned i)).run oracle schedule) ≤ 1 := by
  suffices h : Coalesced cycle planned oracle signature
      ((Sys.start db fun i => cycle.runOne (planned i)).run oracle schedule) from
    h.fetchesOf_le
  induction schedule using List.reverseRecOn with
  | nil => exact coalesced_start hempty
  | append_singleton schedule i ih =>
      rw [Sys.run_concat]
      refine coalesced_step hlive (ih fun before j after h =>
        hcurrent before j (after ++ [i]) (by simp [h])) (hcurrent schedule i [] rfl)

end Runs

/-! ## Two runs that look into the cache together -/

/-- Two runs of one instance, each with a worker for the sales query. -/
def twoRuns (schedule : List Nat) : CycleSys :=
  (Sys.start Alerts.salesStore fun _ =>
    @RunAlertCycle.runOne .plain .plain defaultCycle salesQuery).run
      quietOracle schedule

/-- Nothing was cached and nothing expires, and yet both workers fetch. -/
theorem two_runs_fetch_twice :
    ¬Present "idealista|" Alerts.salesStore ∧ NoExpiry defaultCycle quietOracle ∧
      fetchesOf (fun _ => salesQuery) "idealista|"
        (twoRuns ((List.range 4).flatMap fun _ => [0, 1])) = 2 := by
  refine ⟨?_, fun _ _ _ _ => ?_, rfl⟩
  · rintro ⟨row, hrow, -⟩
    cases hrow
  · change (1 : Int) < 1 + 900 * 1000000
    decide

theorem two_runs_fetch_once :
    fetchesOf (fun _ => salesQuery) "idealista|"
      (twoRuns (List.replicate 12 0 ++ List.replicate 8 1)) ≤ 1 := by
  refine @signature_fetched_at_most_once .plain .plain defaultCycle
    (fun _ => salesQuery) "idealista|" Alerts.salesStore
    two_runs_fetch_twice.1 quietOracle two_runs_fetch_twice.2.1 _ ?_
  intro before i after hschedule _ now hcode j hji _ hmissed
  have hfirst : (twoRuns (List.replicate 12 0)).Finished 0 (.ok (true, 0)) := rfl
  have hmem : j ∈ before := by
    by_contra h
    exact @not_missed_of_not_mem .plain .plain _ _ _ _ _ _ h hmissed
  rcases List.append_eq_append_iff.mp hschedule with
    ⟨rest, rfl, hrest⟩ | ⟨rest, hbefore, hrest⟩
  · -- the first run is over
    have hi : i = 1 := List.eq_of_mem_replicate (n := 8) (by simp [hrest])
    have hj : j = 0 := by
      rcases List.mem_append.mp hmem with hzero | hone
      · exact List.eq_of_mem_replicate hzero
      · exact absurd (List.eq_of_mem_replicate (n := 8) (by simp [hrest, hone]))
          (hi ▸ hji)
    have hrun := Sys.workers_run_of_finished quietOracle hfirst rest
    rw [hj, Sys.run_append]
    exact ⟨0, (congrArg Worker.code hrun).trans hfirst⟩
  · -- the first run goes on, or has just ended
    have hj : j = 0 := List.eq_of_mem_replicate (n := 12) (by simp [hbefore, hmem])
    cases rest with
    | nil =>
        rw [List.append_nil] at hbefore
        rw [hj, ← hbefore]
        exact ⟨0, hfirst⟩
    | cons k rest =>
        have hk : k = 0 := List.eq_of_mem_replicate (n := 12) (by simp [hbefore])
        have hi : i = k := (List.cons.inj hrest).1
        exact absurd (hj.trans (hk.symm.trans hi.symm)) hji

end RealEstateTracker.Cycle
