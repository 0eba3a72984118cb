import RealEstateTracker.Cycle.Candidates
import RealEstateTracker.Cycle.Identities

/-!
# Why there is a match

Workers evaluate alerts at properties that they read one by one, while other workers
overwrite properties and cached searches and alerts are edited.  Whatever runs at once,
a match is there only because a worker had a candidate that satisfied one of its alerts,
and a worker that ends well has left a match for every such candidate.
-/

namespace RealEstateTracker.Cycle

open Foundation Domain Application Persistence

/-! ## Matched pairs -/

def Matched (db : Store) (key : AlertId × PropertyId) : Prop :=
  key ∈ db.alertMatches.map pair

def MatchedBy : Write → AlertId × PropertyId → Prop
  | .insertMatch row, key => key = pair row
  | _, _ => False

/-- The write stores these identifiers as the answer to the query. -/
def CachedBy (signature : String) (ids : List PropertyId) : Write → Prop
  | .insertCache row | .updateCache row =>
      row.querySignature = signature ∧ row.propertyIds = ids
  | _ => False

theorem matched_apply (write : Write) (db : Store) (key : AlertId × PropertyId) :
    Matched (Database.apply write db) key ↔ Matched db key ∨ MatchedBy write key := by
  cases write <;> simp [apply_eq, Write.apply, Matched, MatchedBy]

def matchFacts : Facts Store Write where
  Fact := AlertId × PropertyId
  holds := Matched
  adds := MatchedBy
  holds_apply := matched_apply

theorem not_matchedBy_of_table {write : Write} (h : write.table ≠ .alertMatches)
    (key : AlertId × PropertyId) : ¬MatchedBy write key := by
  cases write <;> first | exact id | exact absurd rfl h

theorem cachedBy_of_putWrites (signature slug : String) (ids : List PropertyId)
    (now : DateTime) (ttl : Int) (db : Store) :
    ∃ write ∈ SearchCacheRepository.putWrites signature slug ids now ttl db,
      CachedBy signature ids write := by
  unfold SearchCacheRepository.putWrites
  dsimp only
  split
  · exact ⟨_, .head _, rfl, rfl⟩
  · exact ⟨_, List.mem_append_right _ (.head _), rfl, rfl⟩

/-! ## Reasons -/

section Workers

variable [PythonRuntime] [PersistenceRuntime] {env : CycleSurroundings} {s s' : CycleSession}
  {cycle : RunAlertCycle} {planned : PlannedQuery} {i : Nat}

/-- The alert accepts one of the candidates of the worker. -/
def Justified (env : CycleSurroundings) (cycle : RunAlertCycle) (planned : PlannedQuery)
    (i : Nat) (key : AlertId × PropertyId) : Prop :=
  ∃ alert ∈ planned.alerts, ∃ p, ReadsCandidate env cycle planned i p ∧
    AlertEngine.Satisfies cycle.registry p alert ∧ key = (alert.id, p.id)

def Explained (reason : AlertId × PropertyId → Prop) (write : Write) : Prop :=
  ∀ key, MatchedBy write key → reason key

omit [PythonRuntime] [PersistenceRuntime] in
theorem explained_of_inTables {tables : List Table} (htables : .alertMatches ∉ tables)
    (reason : AlertId × PropertyId → Prop) {write : Write} (h : InTables tables write) :
    Explained reason write :=
  fun key hkey => absurd hkey (not_matchedBy_of_table (fun heq => htables (heq ▸ h)) key)

omit [PythonRuntime] in
theorem explained_persistMatch {reason : AlertId × PropertyId → Prop} (userId : UserId)
    (now : DateTime) (created : Nat) {m : AlertMatch} (hreason : reason (target m)) :
    (RunAlertCycle.persistMatch userId now created m).Within
      (fun _ => Explained reason) fun _ => True := by
  refine Txn.within_bind ⟨fun stamp db write hwrite => ?_, fun stamp db => ?_⟩
    fun matchId => ?_
  · unfold MatchRepository.addIfNewWrites at hwrite
    split at hwrite
    · cases hwrite
    · rw [List.mem_singleton.mp hwrite]
      rintro key rfl
      exact hreason
  · dsimp only
    split <;> trivial
  · cases matchId with
    | none => trivial
    | some matchId =>
        refine Txn.within_bind (by simp) fun _ => Txn.within_bind (by simp) fun channels =>
          Txn.within_bind (Txn.within_forEach fun channel _ => Txn.within_exec
            fun stamp db write hwrite => ?_) fun _ => trivial
        unfold NotificationRepository.enqueueWrites at hwrite
        split at hwrite
        · cases hwrite
        · rw [List.mem_singleton.mp hwrite]
          rintro key ⟨⟩

theorem explained_evaluateAndPersist {reason : AlertId × PropertyId → Prop}
    {alerts : List SearchAlert} {candidates : List Property} (now : DateTime)
    (hreason : ∀ alert ∈ alerts, ∀ p ∈ candidates,
      AlertEngine.Satisfies cycle.registry p alert → reason (alert.id, p.id)) :
    (cycle.evaluateAndPersist alerts candidates now).Within
      (fun _ => Explained reason) fun _ => True := by
  refine Txn.within_foldEach fun created alert halert => ?_
  cases hfound : AlertEngine.evaluate cycle.registry alert candidates now with
  | error error =>
      simp only [RunAlertCycle.persistAlert, hfound]
      trivial
  | ok found =>
      simp only [RunAlertCycle.persistAlert, hfound]
      change Txn.Within _ _ ((Txn.foldEach found created _).bind _)
      refine Txn.within_bind (Txn.within_foldEach fun created m hm => ?_) fun created =>
        Txn.within_bind (Txn.within_exec fun stamp db write hwrite => ?_) fun _ => trivial
      · obtain ⟨p, hp, hsatisfied, rfl⟩ := (AlertEngine.mem_evaluate hfound m).mp hm
        exact explained_persistMatch _ _ _ (hreason alert halert p hp hsatisfied)
      · have htables := allIn_addWrites_alert _ stamp db write hwrite
        exact explained_of_inTables (by decide) reason htables

theorem explained_persistMatches {ids : List PropertyId}
    (hresolves : Resolves env cycle planned i ids s) {write : Write}
    (hwrote : ((cycle.persistMatches planned ids (env.answer 0 .clock)).runIn env s).2.Wrote
      write) : s.Wrote write ∨ Explained (Justified env cycle planned i) write := by
  rcases Txn.wrote_runIn_bind hwrote with hwrote | ⟨candidates, s₁, hload, hwrote⟩
  · exact (Txn.wrote_runIn_of_within (only_loadCandidates ids).within hwrote).imp_right
      fun h => absurd h List.not_mem_nil
  have hearlier : s₁.Wrote write → s.Wrote write := fun hwrote =>
    (Txn.wrote_of_within (only_loadCandidates ids).within hload hwrote).resolve_right
      fun h => absurd h List.not_mem_nil
  refine (Txn.wrote_runIn_of_within (K := fun _ => True) ?_ hwrote).imp_left hearlier
  refine Txn.within_bind (explained_evaluateAndPersist _ fun alert halert p hp hsatisfied => ?_)
    fun created => Txn.within_bind (Txn.within_commitOr _) fun _ => trivial
  exact ⟨alert, halert, p, (readsCandidate_iff hresolves hload p).mpr hp, hsatisfied, rfl⟩

/-- A worker writes a match only for an alert that accepts one of its candidates. -/
theorem explained_runOne {write : Write}
    (hwrote : ((cycle.runOne planned).runIn env (.start i)).2.Wrote write) :
    Explained (Justified env cycle planned i) write := by
  obtain ⟨outcome, s, hresolve⟩ : ∃ outcome s, (cycle.resolveCandidates planned
      (env.answer 0 .clock)).runIn env (begun env i) = (outcome, s) := ⟨_, _, rfl⟩
  have hresolving : s.Wrote write → Explained (Justified env cycle planned i) write := by
    intro hwrote
    have hwithin := (only_resolveCandidates cycle planned (env.answer 0 .clock)).within
    rcases Txn.wrote_of_within hwithin hresolve hwrote with
      (hpending | ⟨_, hhistory, -⟩) | h
    · cases hpending
    · cases hhistory
    · exact explained_of_inTables (by decide) _ h
  rw [runOne_eq_bind] at hwrote
  change (((cycle.resolveCandidates planned (env.answer 0 .clock)).attempt.bind
    (afterCandidates cycle planned (env.answer 0 .clock))).runIn env
      (begun env i)).2.Wrote write at hwrote
  rw [Txn.runIn_bind_of_ok (Txn.runIn_attempt_of_eq hresolve)] at hwrote
  cases outcome with
  | ok ids => exact (explained_persistMatches hresolve hwrote).elim hresolving id
  | error error =>
      cases error with
      | scraperError error =>
          exact (Txn.wrote_runIn_of_within (within_recordFailure planned error _)
            hwrote).elim hresolving (explained_of_inTables (by decide) _)
      | _ => exact hresolving hwrote

/-! ## What is not lost -/

/-- The pair is matched in something that the worker met, or by a write of its own. -/
def Noted (env : CycleSurroundings) (s : CycleSession) (key : AlertId × PropertyId) : Prop :=
  (∃ n, Matched (env.found n) key) ∨ ∃ write, s.Wrote write ∧ MatchedBy write key

omit [PythonRuntime] [PersistenceRuntime] in
theorem Noted.runIn {α : Type} {P : Write → Prop} {p : CycleTxn α} (hp : p.Only P)
    {key : AlertId × PropertyId} (h : Noted env s key) : Noted env (p.runIn env s).2 key := by
  refine h.imp_right ?_
  rintro ⟨write, hwrote, hmatched⟩
  exact ⟨write, hwrote.runIn hp, hmatched⟩

omit [PythonRuntime] in
theorem noted_persistMatch (userId : UserId) (now : DateTime) (created : Nat)
    (m : AlertMatch) : Noted env
      ((RunAlertCycle.persistMatch userId now created m).runIn env s).2 (target m) := by
  let view := s.view (env.found s.ops)
  have hview : ∀ key, Matched view key → Noted env s key := by
    intro key hkey
    rcases (matchFacts.holds_applyAll key).mp hkey with hfound | ⟨write, hwrite, hadds⟩
    · exact .inl ⟨s.ops, hfound⟩
    · exact .inr ⟨write, .inl hwrite, hadds⟩
  change Noted env (((MatchRepository.addIfNew m).bind _).runIn env s).2 _
  cases hfind : MatchRepository.find m.alertId m.propertyId view with
  | some row =>
      rw [Txn.runIn_bind_of_ok (runIn_addIfNew_of_known hfind)]
      obtain ⟨halert, hproperty⟩ :
          row.alertId = m.alertId ∧ row.propertyId = m.propertyId := by
        simpa using List.find?_some hfind
      have hrow : Noted env s (target m) := hview _ (List.mem_map.mpr
        ⟨row, List.mem_of_find?_eq_some hfind, by rw [pair, target, halert, hproperty]⟩)
      refine hrow.imp_right ?_
      rintro ⟨write, hwrote, hadds⟩
      exact ⟨write, hwrote.imp_left (List.mem_append_left _), hadds⟩
  | none =>
      rw [Txn.runIn_bind_of_ok (runIn_addIfNew_of_new hfind)]
      refine Noted.runIn (only_notify userId now _ created)
        (.inr ⟨.insertMatch (MatchRepository.newRow m s.stamp), .inl ?_, rfl⟩)
      exact List.mem_append_right _ (.head _)

theorem only_persistAlert (cycle : RunAlertCycle) (candidates : List Property)
    (now : DateTime) (created : Nat) (alert : SearchAlert) :
    (cycle.persistAlert candidates now created alert).Only
      (InTables (matchTables ++ alertTables)) := by
  refine Txn.only_bind (Txn.only_ofExcept _) fun found => ?_
  refine Txn.only_bind (Txn.only_foldEach fun created m _ =>
    (only_persistMatch _ _ created m).mono fun _ => List.mem_append_left _) fun created => ?_
  exact Txn.only_bind (Txn.only_exec fun stamp db write hwrite =>
    List.mem_append_right _ (allIn_addWrites_alert (alert.markRun now) stamp db write hwrite))
    fun _ => Txn.only_done _

/-- The alert is matched with all the candidates that satisfy it. -/
def AllNoted (env : CycleSurroundings) (registry : FieldRegistry)
    (candidates : List Property) (s : CycleSession) (alert : SearchAlert) : Prop :=
  ∀ p ∈ candidates, AlertEngine.Satisfies registry p alert → Noted env s (alert.id, p.id)

theorem allNoted_persistAlert {candidates : List Property} {now : DateTime}
    {created created' : Nat} {alert : SearchAlert}
    (h : (cycle.persistAlert candidates now created alert).runIn env s = (.ok created', s')) :
    AllNoted env cycle.registry candidates s' alert := by
  obtain ⟨found, s₁, hevaluate, hpersist⟩ := Txn.runIn_bind_eq_ok h
  rw [Txn.runIn_ofExcept] at hevaluate
  obtain ⟨hfound, rfl⟩ := Prod.mk.inj hevaluate
  obtain ⟨created₁, s₂, hmatches, hsaved⟩ := Txn.runIn_bind_eq_ok hpersist
  have hnoted : ∀ m ∈ found, Noted env s₂ (target m) := by
    refine Txn.present_of_foldEach (fun m s => Noted env s (target m))
      (fun m _ created s created' s' h => ?_)
      (fun other m _ created s created' s' h hother => ?_) hmatches
    · rw [← show _ = s' from congrArg Prod.snd h]
      exact noted_persistMatch alert.userId now created m
    · rw [← show _ = s' from congrArg Prod.snd h]
      exact hother.runIn (only_persistMatch alert.userId now created m)
  -- the save of the alert, which comes last, only adds to what is written
  obtain ⟨-, rfl⟩ := Prod.mk.inj hsaved
  intro p hp hsatisfied
  refine (hnoted ⟨alert.id, p.id, now⟩ ?_).imp_right ?_
  · exact (AlertEngine.mem_evaluate hfound _).mpr ⟨p, hp, hsatisfied, rfl⟩
  · rintro ⟨write, hwrote, hadds⟩
    exact ⟨write, hwrote.imp_left (List.mem_append_left _), hadds⟩

theorem allNoted_evaluateAndPersist {alerts : List SearchAlert} {candidates : List Property}
    {now : DateTime} {created : Nat}
    (h : (cycle.evaluateAndPersist alerts candidates now).runIn env s = (.ok created, s')) :
    ∀ alert ∈ alerts, AllNoted env cycle.registry candidates s' alert := by
  refine Txn.present_of_foldEach
    (fun alert s => AllNoted env cycle.registry candidates s alert)
    (fun alert _ created s created' s' h => allNoted_persistAlert h)
    (fun other alert _ created s created' s' h hother p hp hsatisfied => ?_) h
  rw [← show _ = s' from congrArg Prod.snd h]
  exact (hother p hp hsatisfied).runIn (only_persistAlert cycle candidates now created alert)

/-! ## Where the candidates come from -/

/-- The identifiers are cached when the worker looks, or the worker caches them itself. -/
def HasCached (env : CycleSurroundings) (signature : String) (ids : List PropertyId)
    (s : CycleSession) : Prop :=
  SearchCacheRepository.get signature (env.answer 0 .clock) (env.found 1) = some ids ∨
    ∃ write, s.Wrote write ∧ CachedBy signature ids write

omit [PythonRuntime] [PersistenceRuntime] in
theorem HasCached.runIn {signature : String} {ids : List PropertyId} {α : Type}
    {P : Write → Prop} {p : CycleTxn α} (hp : p.Only P)
    (h : HasCached env signature ids s) : HasCached env signature ids (p.runIn env s).2 := by
  refine h.imp_right ?_
  rintro ⟨write, hwrote, hcached⟩
  exact ⟨write, hwrote.runIn hp, hcached⟩

theorem cached_of_scraped {now : DateTime} {ids : List PropertyId}
    (h : (cycle.scrapeCandidates planned now).runIn env s = (.ok ids, s')) :
    HasCached env planned.signature ids s' := by
  obtain ⟨_, s₁, -, h⟩ := Txn.runIn_bind_eq_ok h
  obtain ⟨listings, s₂, -, h⟩ := Txn.runIn_bind_eq_ok h
  obtain ⟨_, s₃, -, h⟩ := Txn.runIn_bind_eq_ok h
  obtain ⟨resolved, s₄, -, h⟩ := Txn.runIn_bind_eq_ok h
  obtain ⟨hids, rfl⟩ := Prod.mk.inj h
  obtain rfl := Except.ok.inj hids
  obtain ⟨write, hwrite, hcached⟩ := cachedBy_of_putWrites planned.signature
    planned.portalSlug resolved.propertyIds now cycle.cacheTtlSeconds
    (s₄.view (env.found s₄.ops))
  refine .inr ⟨write, .inl ?_, hcached⟩
  exact List.mem_append_left _ (List.mem_append_right _ hwrite)

theorem cached_of_resolves {ids : List PropertyId}
    (h : Resolves env cycle planned i ids s) : HasCached env planned.signature ids s := by
  obtain ⟨cached, s₁, hquery, hrest⟩ := Txn.runIn_bind_eq_ok h
  obtain ⟨hget, rfl⟩ := Prod.mk.inj hquery
  have hcached : SearchCacheRepository.get planned.signature (env.answer 0 .clock)
      (env.found 1) = cached := Except.ok.inj hget
  cases cached with
  | some propertyIds =>
      obtain ⟨hids, -⟩ := Prod.mk.inj hrest
      obtain rfl := Except.ok.inj hids
      exact .inl hcached
  | none => exact cached_of_scraped hrest

/-! ## A search that succeeds -/

/--
The identifiers that the worker resolved are those of the unexpired cached search, or it
stored them itself.  It read each of them, one operation after the other once it had
resolved, and whatever it found there and one of its alerts accepts is matched.
-/
def Exhausts (env : CycleSurroundings) (cycle : RunAlertCycle) (planned : PlannedQuery)
    (i : Nat) (ended : CycleSession) (db : Store) : Prop :=
  ∃ ids s, Resolves env cycle planned i ids s ∧
    (SearchCacheRepository.get planned.signature (env.answer 0 .clock) (env.found 1) =
        some ids ∨
      ∃ writes ∈ ended.history, ∃ write ∈ writes, CachedBy planned.signature ids write) ∧
    ∀ k id, ids[k]? = some id → ∃ found, readAt env s k id = .ok found ∧
      ∀ p, found = some p → ∀ alert ∈ planned.alerts,
        AlertEngine.Satisfies cycle.registry p alert → Matched db (alert.id, p.id)

omit [PythonRuntime] [PersistenceRuntime] in
theorem wrote_committed {write : Write} (h : s.Wrote write) :
    ∃ writes ∈ s.committed.history, write ∈ writes := by
  rcases h with hpending | ⟨writes, hwrites, hwrite⟩
  · exact ⟨s.pending, by simp, hpending⟩
  · exact ⟨writes, by simp [hwrites], hwrite⟩

theorem persistMatches_eq_ok {ids : List PropertyId} {now : DateTime} {result : Bool × Nat}
    (h : (cycle.persistMatches planned ids now).runIn env s = (.ok result, s')) :
    ∃ candidates s₁,
      (RunAlertCycle.loadCandidates ids).runIn env s = (.ok candidates, s₁) ∧
      ∃ created s₂,
        (cycle.evaluateAndPersist planned.alerts candidates now).runIn env s₁ =
          (.ok created, s₂) ∧ s' = s₂.committed := by
  obtain ⟨candidates, s₁, hload, h⟩ := Txn.runIn_bind_eq_ok h
  obtain ⟨created, s₂, hpersist, h⟩ := Txn.runIn_bind_eq_ok h
  refine ⟨candidates, s₁, hload, created, s₂, hpersist, ?_⟩
  change (if Database.admits (env.found s₂.ops) s₂.pending then _ else _) = _ at h
  split at h
  · exact (Prod.mk.inj h).2.symm
  · cases h

theorem runOne_eq_ok {created : Nat}
    (h : (cycle.runOne planned).runIn env (.start i) = (.ok (true, created), s')) :
    ∃ ids s, Resolves env cycle planned i ids s ∧
      (cycle.persistMatches planned ids (env.answer 0 .clock)).runIn env s =
        (.ok (true, created), s') := by
  obtain ⟨outcome, s, hresolve⟩ : ∃ outcome s, (cycle.resolveCandidates planned
      (env.answer 0 .clock)).runIn env (begun env i) = (outcome, s) := ⟨_, _, rfl⟩
  rw [runOne_eq_bind] at h
  change ((cycle.resolveCandidates planned (env.answer 0 .clock)).attempt.bind
    (afterCandidates cycle planned (env.answer 0 .clock))).runIn env (begun env i) = _ at h
  rw [Txn.runIn_bind_of_ok (Txn.runIn_attempt_of_eq hresolve)] at h
  cases outcome with
  | ok ids => exact ⟨ids, s, hresolve, h⟩
  | error error =>
      exfalso
      cases error with
      | scraperError error =>
          obtain ⟨_, _, -, h⟩ := Txn.runIn_bind_eq_ok h
          obtain ⟨_, _, -, h⟩ := Txn.runIn_bind_eq_ok h
          obtain ⟨_, _, -, h⟩ := Txn.runIn_bind_eq_ok h
          obtain ⟨houtcome, -⟩ := Prod.mk.inj h
          exact absurd (Except.ok.inj houtcome) (by simp)
      | _ => cases h

/-- `db` has all that the worker met and all that it wrote. -/
theorem exhausts_of_ok {created : Nat} {db : Store}
    (h : (cycle.runOne planned).runIn env (.start i) = (.ok (true, created), s'))
    (hfound : ∀ n key, Matched (env.found n) key → Matched db key)
    (hwrote : ∀ writes ∈ s'.history, ∀ write ∈ writes, ∀ key, MatchedBy write key →
      Matched db key) : Exhausts env cycle planned i s' db := by
  obtain ⟨ids, s, hresolves, h⟩ := runOne_eq_ok h
  obtain ⟨candidates, s₁, hload, created', s₂, hpersist, rfl⟩ := persistMatches_eq_ok h
  have hnoted := allNoted_evaluateAndPersist hpersist
  refine ⟨ids, s, hresolves, ?_, fun k id hid => ?_⟩
  · have hcached : HasCached env planned.signature ids s₂ := by
      rw [← show _ = s₂ from congrArg Prod.snd hpersist]
      refine HasCached.runIn (only_evaluateAndPersist cycle _ candidates _) ?_
      rw [← show _ = s₁ from congrArg Prod.snd hload]
      exact (cached_of_resolves hresolves).runIn (only_loadCandidates ids)
    refine hcached.imp_right ?_
    rintro ⟨write, hwrote, hcached⟩
    obtain ⟨writes, hwrites, hwrite⟩ := wrote_committed hwrote
    exact ⟨writes, hwrites, write, hwrite, hcached⟩
  · obtain ⟨found, hread⟩ := returns_loadCandidates.mp
      (Txn.returns_iff.mpr ⟨candidates, s₁, hload⟩) k id hid
    refine ⟨found, hread, ?_⟩
    rintro p rfl alert halert hsatisfied
    have hp : p ∈ candidates := (mem_of_runIn_loadCandidates hload p).mpr ⟨k, id, hid, hread⟩
    rcases hnoted alert halert p hp hsatisfied with ⟨n, hmatched⟩ | ⟨write, hwrite, hmatched⟩
    · exact hfound n _ hmatched
    · obtain ⟨writes, hwrites, hwrite⟩ := wrote_committed hwrite
      exact hwrote writes hwrites write hwrite _ hmatched

end Workers

/-! ## Runs -/

section Runs

variable [PythonRuntime] [PersistenceRuntime]

/-- Only a search ever matches. -/
def UseCase.Justifies (env : CycleSurroundings) (i : Nat) (key : AlertId × PropertyId) :
    UseCase → Prop
  | search cycle planned => Justified env cycle planned i key
  | _ => False

theorem runIn_search {env : CycleSurroundings} {s : CycleSession} (cycle : RunAlertCycle)
    (planned : PlannedQuery) : (UseCase.search cycle planned).program.runIn env s =
      (((cycle.runOne planned).runIn env s).1.map some,
        ((cycle.runOne planned).runIn env s).2) := by
  rw [UseCase.program, Txn.runIn_bind]
  generalize (cycle.runOne planned).runIn env s = ended
  obtain ⟨outcome, s'⟩ := ended
  cases outcome <;> rfl

omit [PythonRuntime] [PersistenceRuntime] in
theorem map_some_eq_ok {outcome : Except PyError (Bool × Nat)} {result : Bool × Nat}
    (h : outcome.map some = .ok (some result)) : outcome = .ok result := by
  cases outcome with
  | ok value => rw [Option.some.inj (Except.ok.inj h)]
  | error error => cases h

theorem explained_program {env : CycleSurroundings} {i : Nat} (useCase : UseCase)
    {write : Write} (hwrote : (useCase.program.runIn env (.start i)).2.Wrote write) :
    Explained (fun key => useCase.Justifies env i key) write := by
  have halerts : ∀ {α : Type} {p : CycleTxn α} {f : α → Option (Bool × Nat)},
      p.Within (fun _ => InTables alertTables) (fun _ => True) →
        ((p.bind fun value => .done (f value)).runIn env (.start i)).2.Wrote write →
          ∀ reason, Explained reason write := by
    intro α p f hp hwrote reason
    have hwithin : (p.bind fun value => .done (f value)).Within
      (fun _ => InTables alertTables) fun _ => True := Txn.within_bind hp fun _ => trivial
    rcases Txn.wrote_runIn_of_within hwithin hwrote with
      (hpending | ⟨_, hhistory, -⟩) | h
    · cases hpending
    · cases hhistory
    · exact explained_of_inTables (by decide) reason h
  cases useCase with
  | search cycle planned =>
      rw [runIn_search] at hwrote
      exact explained_runOne hwrote
  | createAlert create id request =>
      exact halerts (within_createAlert create id request) hwrote _
  | updateAlert update request =>
      exact halerts (within_updateAlert update request) hwrote _

/--
The matches of a run: those of before, those that a search saw reason for, and for a
search that succeeded all that it saw reason for.
-/
structure MatchesExact (useCases : Nat → UseCase) (met : Nat → CycleSurroundings)
    (db : Store) (final : Sys Store Write CycleCall CycleAnswer PyError
      (Option (Bool × Nat))) : Prop where
  kept : ∀ key, Matched db key → Matched final.store key
  justified : ∀ key, Matched final.store key → Matched db key ∨
    ∃ i, (∃ writes ∈ (final.workers i).session.history, ∃ write ∈ writes,
      MatchedBy write key) ∧ (useCases i).Justifies (met i) i key
  exhausted : ∀ i cycle planned created, useCases i = .search cycle planned →
    final.Finished i (.ok (some (true, created))) →
      Exhausts (met i) cycle planned i (final.workers i).session final.store

/--
Whatever searches, creations and edits run at once and in whatever order they take
their steps, no match is lost, every new one was committed by a search that has the
alert and read the property, which satisfied it, as one of its candidates, and a search
that succeeds leaves no such pair unmatched.
-/
theorem concurrent_matches_are_exact (useCases : Nat → UseCase)
    (oracle : Oracle CycleCall CycleAnswer) (db : Store) (schedule : List Nat) :
    let programs := fun i => (useCases i).program
    MatchesExact useCases (Sys.meets oracle db programs schedule) db
      ((Sys.start db programs).run oracle schedule) := by
  intro programs
  have hholds : ∀ key, Matched ((Sys.start db programs).run oracle schedule).store key ↔
      Matched db key ∨ ∃ write, ((Sys.start db programs).run oracle schedule).Committed
        write ∧ MatchedBy write key :=
    fun key => show matchFacts.holds _ key ↔ _ from Facts.holds_run
  refine ⟨fun key hkey => (hholds key).mpr (.inl hkey), fun key hkey => ?_,
    fun i cycle planned created hsearch hfinished => ?_⟩
  · refine ((hholds key).mp hkey).imp_right ?_
    rintro ⟨write, ⟨i, batch, hbatch, hwrite⟩, hmatched⟩
    have hwrote : ((useCases i).program.runIn (Sys.meets oracle db programs schedule i)
        (.start i)).2.Wrote write :=
      .inr ⟨batch, Sys.history_of_run.subset hbatch, hwrite⟩
    exact ⟨i, ⟨batch, hbatch, write, hwrite, hmatched⟩,
      explained_program (useCases i) hwrote key hmatched⟩
  · have hrun := Sys.runIn_of_finished hfinished
    rw [show programs i = (UseCase.search cycle planned).program from
      congrArg UseCase.program hsearch, runIn_search] at hrun
    obtain ⟨houtcome, hsession⟩ := Prod.mk.inj hrun
    have hended : (cycle.runOne planned).runIn (Sys.meets oracle db programs schedule i)
        (.start i) = (.ok (true, created),
          (((Sys.start db programs).run oracle schedule).workers i).session) :=
      Prod.ext (map_some_eq_ok houtcome) hsession
    refine exhausts_of_ok hended (fun n => show matchFacts.Grows _ _ from
      Facts.grows_of_met i n) ?_
    intro writes hwrites write hwrite key hmatched
    exact (hholds key).mpr (.inr ⟨write, ⟨i, writes, hwrites, hwrite⟩, hmatched⟩)

omit [PythonRuntime] [PersistenceRuntime] in
/-- Of two workers that read the same cached search, the first to commit succeeds. -/
theorem concurrent_matches_are_exact_cached :
    let programs := fun _ : Nat =>
      @UseCase.program .plain .plain (.search salesCycle salesQuery)
    let schedule := (List.range 20).flatMap fun _ => [0, 1]
    let final := (Sys.start cachedStore programs).run quietOracle schedule
    final.Finished 0 (.ok (some (true, 1))) ∧
      @Exhausts .plain .plain (Sys.meets quietOracle cachedStore programs schedule 0)
        salesCycle salesQuery 0 (final.workers 0).session final.store :=
  ⟨rfl, @MatchesExact.exhausted .plain .plain _ _ _ _ (@concurrent_matches_are_exact .plain
    .plain (fun _ => .search salesCycle salesQuery) quietOracle cachedStore
      ((List.range 20).flatMap fun _ => [0, 1])) 0 _ _ 1 rfl rfl⟩

end Runs

end RealEstateTracker.Cycle
