import RealEstateTracker.Cycle.Candidates

/-!
# Workers that raise nothing

A worker returns exactly if no collaborator answers with an exception that is not caught,
no property is normalized to a price that cannot be divided, its candidates read back,
its alerts can be evaluated, the channels of their owners can be read, and the database
accepts its commit.
-/

namespace RealEstateTracker.Cycle

open Foundation Domain Application Persistence

/-! ## Answers -/

/-- No exception, or one that `runOne` catches. -/
def Caught {α : Type} : Except PyError α → Prop
  | .ok _ | .error (.scraperError _) => True
  | .error _ => False

/-- A normalized property must have a price per square metre, or no price or area. -/
def CalmAnswer : (request : CycleCall) → CycleAnswer request → Prop
  | .clock, _ | .utcNow, _ => True
  | .scraperForPortal _, answer | .normalizerForPortal _, answer => Caught (α := Unit) answer
  | .fetch _, answer => Caught (α := List RawListing) answer
  | .normalize _ _, answer => ∃ result : NormalizationResult, answer = .ok result ∧
      ∀ prop, result.property = some prop → ∃ ppm, prop.pricePerM2 = .ok ppm

theorem toModel_ok_iff (prop : Property) (now : DateTime) :
    (∃ row, PropertyRepository.toModel prop now = .ok row) ↔
      ∃ ppm, prop.pricePerM2 = .ok ppm := by
  constructor
  · rintro ⟨row, h⟩
    obtain ⟨ppm, hppm, -⟩ := bind_eq_ok.mp h
    exact ⟨ppm, hppm⟩
  · rintro ⟨ppm, h⟩
    exact ⟨_, by rw [PropertyRepository.toModel, h]; rfl⟩

section Workers

variable [PythonRuntime] [PersistenceRuntime] {env : CycleSurroundings}
  {s s' : CycleSession}

/-! ## Resolving -/

theorem returns_storeListing (listing : RawListing) (resolved : Resolved)
    (result : NormalizationResult) :
    Txn.Returns env (storeListing listing resolved result) s ↔
      ∀ prop, result.property = some prop → ∃ ppm, prop.pricePerM2 = .ok ppm := by
  unfold storeListing
  dsimp only
  split
  · next hnone => simp [hnone]
  · next prop hprop =>
    rw [hprop]
    simp only [Option.some.injEq, forall_eq']
    rw [← toModel_ok_iff prop (env.answer s.ops .utcNow)]
    show Txn.Returns env (((Txn.ofExcept (PropertyRepository.toModel prop
      (env.answer s.ops .utcNow))).bind _).bind _) _ ↔ _
    cases hrow : PropertyRepository.toModel prop (env.answer s.ops .utcNow) with
    | error error => simp [Txn.ofExcept, Txn.Returns, Txn.runIn]
    | ok row => exact iff_of_true ⟨_, rfl⟩ ⟨row, rfl⟩

theorem calm_storeListing (listing : RawListing) (resolved : Resolved)
    (result : NormalizationResult) : ∀ call ∈ (storeListing listing resolved
      result).callsIn env s, CalmAnswer call.2.1 call.2.2 := by
  have hwithin : (storeListing listing resolved result).Within (fun _ _ => True)
      (· = .utcNow) := by
    unfold storeListing
    dsimp only
    split
    · trivial
    · refine Txn.within_bind (Txn.within_bind ⟨rfl, fun _ => trivial⟩ fun now => ?_)
        fun _ => Txn.within_bind (Txn.within_exec fun _ _ _ _ => trivial) fun _ => trivial
      exact Txn.within_bind (Txn.within_ofExcept _) fun row =>
        Txn.within_exec fun _ _ _ _ => trivial
  intro call hcall
  obtain ⟨op, request, answer⟩ := call
  obtain rfl : request = .utcNow := Txn.callsIn_of_within hwithin _ hcall
  trivial

theorem hinges_normalize (portalSlug : String) (listing : RawListing)
    (resolved : Resolved) (s : CycleSession) : Txn.Hinges env CalmAnswer
      ((normalize portalSlug listing).bind (storeListing listing resolved)) s := by
  change Txn.Returns env ((Txn.ofExcept (env.answer s.ops
    (.normalize portalSlug listing))).bind _) _ ↔ ∀ call ∈ (s.ops, _) ::
      ((Txn.ofExcept (env.answer s.ops (.normalize portalSlug listing))).bind _).callsIn
        env _, _
  cases hanswer : env.answer s.ops (.normalize portalSlug listing) with
  | error error =>
      refine iff_of_false (fun h => ?_) fun h => ?_
      · obtain ⟨_, h⟩ := h
        cases h
      · obtain ⟨result, hresult, -⟩ := h _ (.head _)
        cases hresult
  | ok result =>
      rw [List.forall_mem_cons, Txn.ofExcept, Txn.done_bind,
        and_iff_left (calm_storeListing listing resolved result)]
      refine (returns_storeListing listing resolved result).trans ?_
      constructor
      · exact fun h => ⟨result, rfl, h⟩
      · rintro ⟨result', hresult, h⟩
        rwa [Except.ok.inj hresult]

theorem hinges_resolveListing (portalSlug : String) (resolved : Resolved)
    (listing : RawListing) (s : CycleSession) :
    Txn.Hinges env CalmAnswer (resolveListing portalSlug resolved listing) s := by
  refine Txn.hinges_bind (Txn.hinges_query _) fun unchanged s' _ => ?_
  cases unchanged with
  | some propertyId => exact Txn.hinges_done _
  | none => exact hinges_normalize portalSlug listing resolved s'

theorem hinges_scraped (cycle : RunAlertCycle) (planned : PlannedQuery)
    (listings : List RawListing) (now : DateTime) (s : CycleSession) :
    Txn.Hinges env CalmAnswer (do
      let resolved ← Txn.foldEach listings ⟨[], 0, 0⟩ (resolveListing planned.portalSlug)
      Txn.exec fun _ => SearchCacheRepository.putWrites planned.signature
        planned.portalSlug resolved.propertyIds now cycle.cacheTtlSeconds
      let finishedAt ← clock
      recordExecution (successAttempt planned listings resolved now finishedAt)
      return resolved.propertyIds) s := by
  refine Txn.hinges_bind (Txn.hinges_foldEach fun resolved listing _ s =>
    hinges_resolveListing planned.portalSlug resolved listing s) fun resolved s' _ => ?_
  refine Txn.hinges_bind (Txn.hinges_exec _) fun _ s' _ => ?_
  refine iff_of_true ⟨_, rfl⟩ fun call hcall => ?_
  rw [List.mem_singleton.mp hcall]
  trivial

omit [PythonRuntime] [PersistenceRuntime] in
theorem caught_call {α β : Type} {answer : Except PyError α} {f : α → CycleTxn β}
    {call : Nat × ((request : CycleCall) × CycleAnswer request)}
    (hcall : CalmAnswer call.2.1 call.2.2 ↔ Caught answer)
    (hf : ∀ value, answer = .ok value → (Caught ((f value).runIn env s).1 ↔
      ∀ call ∈ (f value).callsIn env s, CalmAnswer call.2.1 call.2.2)) :
    Caught (((Txn.ofExcept answer).bind f).runIn env s).1 ↔
      ∀ c ∈ call :: ((Txn.ofExcept answer).bind f).callsIn env s,
        CalmAnswer c.2.1 c.2.2 := by
  rw [List.forall_mem_cons, hcall]
  cases answer with
  | error error =>
      have hsame : Caught (.error error : Except PyError β) ↔
          Caught (.error error : Except PyError α) := by
        cases error <;> exact Iff.rfl
      exact ⟨fun h => ⟨hsame.mp h, fun c hc => by cases hc⟩, fun h => hsame.mpr h.1⟩
  | ok value =>
      rw [Txn.ofExcept, Txn.done_bind, hf value rfl]
      exact (and_iff_right trivial).symm

/-! ## Persisting -/

/-- The worker reads its candidates, which it goes on with in session `s`. -/
def Loaded (env : CycleSurroundings) (cycle : RunAlertCycle) (planned : PlannedQuery)
    (i : Nat) (candidates : List Property) (s : CycleSession) : Prop :=
  ∃ ids s₁, Resolves env cycle planned i ids s₁ ∧
    (RunAlertCycle.loadCandidates ids).runIn env s₁ = (.ok candidates, s)

/-- The worker has just inserted a match of the alert, in session `s`. -/
def Notifies (env : CycleSurroundings) (cycle : RunAlertCycle) (planned : PlannedQuery)
    (i : Nat) (alert : SearchAlert) (s : CycleSession) : Prop :=
  ∃ candidates s₁ created s₂ found m created' s₃ matchId,
    Loaded env cycle planned i candidates s₁ ∧
    Txn.Round env planned.alerts 0 (cycle.persistAlert candidates (env.answer 0 .clock)) s₁
      alert created s₂ ∧
    AlertEngine.evaluate cycle.registry alert candidates (env.answer 0 .clock) = .ok found ∧
    Txn.Round env found created (RunAlertCycle.persistMatch alert.userId
      (env.answer 0 .clock)) s₂ m created' s₃ ∧
    (MatchRepository.addIfNew m).runIn env s₃ = (.ok (some matchId), s)

/-- Nothing that the worker finds in the database makes it raise. -/
structure FindsCalm (env : CycleSurroundings) (cycle : RunAlertCycle)
    (planned : PlannedQuery) (i : Nat) : Prop where
  readsBack : ∀ ids s, Resolves env cycle planned i ids s →
    ∀ k id, ids[k]? = some id → ∃ found, readAt env s k id = .ok found
  evaluates : ∀ candidates s, Loaded env cycle planned i candidates s →
    ∀ alert ∈ planned.alerts, ∃ found,
      AlertEngine.evaluate cycle.registry alert candidates (env.answer 0 .clock) = .ok found
  readsChannels : ∀ alert s, Notifies env cycle planned i alert s → ∃ channels,
    NotificationChannelRepository.listEnabledForUser alert.userId
      (s.view (env.found s.ops)) = .ok channels
  commits : (cycle.runOne planned).Accepted env (.start i)

omit [PythonRuntime] in
theorem returns_persistMatch (userId : UserId) (now : DateTime) (created : Nat)
    (m : AlertMatch) :
    Txn.Returns env (RunAlertCycle.persistMatch userId now created m) s ↔
      ∀ matchId s', (MatchRepository.addIfNew m).runIn env s = (.ok (some matchId), s') →
        ∃ channels, NotificationChannelRepository.listEnabledForUser userId
          (s'.view (env.found s'.ops)) = .ok channels := by
  obtain ⟨matchId, s₁, hadd⟩ : ∃ matchId s₁,
      (MatchRepository.addIfNew m : CycleTxn _).runIn env s = (.ok matchId, s₁) := by
    cases hfind : MatchRepository.find m.alertId m.propertyId
        (s.view (env.found s.ops)) with
    | some row => exact ⟨_, _, runIn_addIfNew_of_known hfind⟩
    | none => exact ⟨_, _, runIn_addIfNew_of_new hfind⟩
  change Txn.Returns env ((MatchRepository.addIfNew m).bind _) s ↔ _
  rw [Txn.returns_bind, hadd]
  cases matchId with
  | none => simp
  | some matchId =>
      -- only reading the channels can fail
      trans ∃ channels, NotificationChannelRepository.listEnabledForUser userId
        (s₁.view (env.found s₁.ops)) = .ok channels
      · have hqueued : ∀ (channels : List NotificationChannel) (s : CycleSession),
            Txn.Returns env ((Txn.forEach channels fun channel => Txn.exec
              (NotificationRepository.enqueueWrites matchId channel.id now)).bind
                fun _ => .done (created + 1) : CycleTxn Nat) s := fun channels s =>
          (Txn.returns_bind_iff_of_returns fun _ _ => Txn.returns_done _).mpr
            (Txn.returns_forEach fun _ _ _ => ⟨(), rfl⟩)
        constructor
        · rintro ⟨_, _, heq, hreturns⟩
          obtain ⟨hid, rfl⟩ := Prod.mk.inj heq
          obtain rfl := Except.ok.inj hid
          obtain ⟨channels, hchannels, -⟩ := Txn.returns_ofExcept_bind.mp hreturns
          exact ⟨channels, hchannels⟩
        · rintro ⟨channels, hchannels⟩
          exact ⟨_, _, rfl, Txn.returns_ofExcept_bind.mpr ⟨channels, hchannels, hqueued _ _⟩⟩
      · simp

theorem returns_persistAlert (cycle : RunAlertCycle) (candidates : List Property)
    (now : DateTime) (created : Nat) (alert : SearchAlert) :
    Txn.Returns env (cycle.persistAlert candidates now created alert) s ↔
      ∃ found, AlertEngine.evaluate cycle.registry alert candidates now = .ok found ∧
        ∀ m created' s', Txn.Round env found created
          (RunAlertCycle.persistMatch alert.userId now) s m created' s' →
            Txn.Returns env (RunAlertCycle.persistMatch alert.userId now created' m) s' := by
  refine Txn.returns_ofExcept_bind.trans (exists_congr fun found => and_congr_right fun _ => ?_)
  rw [← Txn.returns_foldEach]
  exact Txn.returns_bind_iff_of_returns fun _ _ => ⟨_, rfl⟩

theorem returns_persistMatches (cycle : RunAlertCycle) (planned : PlannedQuery)
    (ids : List PropertyId) (now : DateTime) :
    Txn.Returns env (cycle.persistMatches planned ids now) s ↔
      ∃ candidates s₁,
        (RunAlertCycle.loadCandidates ids).runIn env s = (.ok candidates, s₁) ∧
        ∃ created s₂,
          (cycle.evaluateAndPersist planned.alerts candidates now).runIn env s₁ =
            (.ok created, s₂) ∧
          Database.admits (env.found s₂.ops) s₂.pending = true := by
  refine Txn.returns_bind.trans (exists_congr fun candidates => exists_congr fun s₁ =>
    and_congr_right fun _ => ?_)
  exact Txn.returns_bind.trans (exists_congr fun created => exists_congr fun s₂ =>
    and_congr_right fun _ => Txn.returns_commitOr)

theorem accepted_persistMatches (cycle : RunAlertCycle) (planned : PlannedQuery)
    (ids : List PropertyId) (now : DateTime) :
    Txn.Accepted env (cycle.persistMatches planned ids now) s ↔
      ∀ candidates s₁,
        (RunAlertCycle.loadCandidates ids).runIn env s = (.ok candidates, s₁) →
        ∀ created s₂,
          (cycle.evaluateAndPersist planned.alerts candidates now).runIn env s₁ =
            (.ok created, s₂) →
          Database.admits (env.found s₂.ops) s₂.pending = true := by
  refine (Txn.accepted_bind_of_only (only_loadCandidates ids) _ _).trans
    (forall_congr' fun candidates => forall_congr' fun s₁ => imp_congr_right fun _ => ?_)
  exact (Txn.accepted_bind_of_only (only_evaluateAndPersist cycle _ _ _) _ _).trans
    (forall_congr' fun created => forall_congr' fun s₂ => imp_congr_right fun _ =>
      Txn.accepted_commitOr)

/-! ## One worker -/

section RunOne

variable {cycle : RunAlertCycle} {planned : PlannedQuery} {i : Nat}

variable {outcome : Except PyError (List PropertyId)}
  (hresolve : (cycle.resolveCandidates planned (env.answer 0 .clock)).runIn env
    (begun env i) = (outcome, s))

include hresolve

theorem returns_runOne : Txn.Returns env (cycle.runOne planned) (.start i) ↔
    Txn.Returns env (afterCandidates cycle planned (env.answer 0 .clock) outcome) s := by
  rw [runOne_eq_bind]
  show Txn.Returns env ((cycle.resolveCandidates planned (env.answer 0 .clock)).attempt.bind
    (afterCandidates cycle planned (env.answer 0 .clock))) (begun env i) ↔ _
  rw [Txn.Returns, Txn.runIn_bind_of_ok (Txn.runIn_attempt_of_eq hresolve), ← Txn.Returns]

theorem accepted_runOne : Txn.Accepted env (cycle.runOne planned) (.start i) ↔
    Txn.Accepted env (afterCandidates cycle planned (env.answer 0 .clock) outcome) s := by
  rw [runOne_eq_bind]
  show Txn.Accepted env ((cycle.resolveCandidates planned (env.answer 0 .clock)).attempt.bind
    (afterCandidates cycle planned (env.answer 0 .clock))) (begun env i) ↔ _
  rw [Txn.accepted_bind_of_only (Txn.only_attempt (only_resolveCandidates cycle planned _)),
    Txn.runIn_attempt_of_eq hresolve]
  simp

theorem calls_runOne : (∀ call ∈ (cycle.runOne planned).callsIn env (.start i),
      CalmAnswer call.2.1 call.2.2) ↔
    ∀ call ∈ (cycle.resolveCandidates planned (env.answer 0 .clock)).callsIn env
      (begun env i), CalmAnswer call.2.1 call.2.2 := by
  have hafter : ∀ call ∈ (afterCandidates cycle planned (env.answer 0 .clock)
      outcome).callsIn env s, CalmAnswer call.2.1 call.2.2 := by
    intro call hcall
    obtain ⟨op, request, answer⟩ := call
    obtain rfl : request = .clock :=
      Txn.callsIn_of_within (asks_afterCandidates (K := (· = .clock)) cycle planned _ rfl
        outcome) _ hcall
    trivial
  rw [runOne_eq_bind]
  show (∀ call ∈ (0, ⟨.clock, env.answer 0 .clock⟩) ::
    ((cycle.resolveCandidates planned (env.answer 0 .clock)).attempt.bind
      (afterCandidates cycle planned (env.answer 0 .clock))).callsIn env (begun env i),
        CalmAnswer call.2.1 call.2.2) ↔ _
  rw [List.forall_mem_cons, Txn.callsIn_bind, Txn.callsIn_attempt,
    Txn.runIn_attempt_of_eq hresolve, List.forall_mem_append]
  exact (and_iff_right trivial).trans (and_iff_left hafter)

omit hresolve in
theorem loaded_iff {ids : List PropertyId} (hresolves : Resolves env cycle planned i ids s)
    (candidates : List Property) (s₁ : CycleSession) :
    Loaded env cycle planned i candidates s₁ ↔
      (RunAlertCycle.loadCandidates ids).runIn env s = (.ok candidates, s₁) := by
  constructor
  · rintro ⟨ids', s', hresolves', hload⟩
    obtain ⟨hids, rfl⟩ := Prod.mk.inj (hresolves.symm.trans hresolves')
    obtain rfl := Except.ok.inj hids
    exact hload
  · exact fun hload => ⟨ids, s, hresolves, hload⟩

omit hresolve in
theorem Loaded.unique {candidates candidates' : List Property} {s₁ s₂ : CycleSession}
    (h : Loaded env cycle planned i candidates s₁)
    (h' : Loaded env cycle planned i candidates' s₂) : candidates = candidates' ∧ s₁ = s₂ := by
  obtain ⟨ids, s, hresolves, hload⟩ := h
  obtain ⟨hcandidates, rfl⟩ :=
    Prod.mk.inj (hload.symm.trans ((loaded_iff hresolves candidates' s₂).mp h'))
  exact ⟨Except.ok.inj hcandidates, rfl⟩

omit hresolve in
/-- Only an evaluation or the reading of the channels can fail. -/
theorem returns_evaluateAndPersist {candidates : List Property} {s₁ : CycleSession}
    (hloaded : Loaded env cycle planned i candidates s₁) :
    Txn.Returns env (cycle.evaluateAndPersist planned.alerts candidates
        (env.answer 0 .clock)) s₁ ↔
      (∀ alert ∈ planned.alerts, ∃ found, AlertEngine.evaluate cycle.registry alert candidates
        (env.answer 0 .clock) = .ok found) ∧
      ∀ alert s, Notifies env cycle planned i alert s → ∃ channels,
        NotificationChannelRepository.listEnabledForUser alert.userId
          (s.view (env.found s.ops)) = .ok channels := by
  constructor
  · intro hreturns
    have hrounds := Txn.returns_foldEach.mp hreturns
    refine ⟨fun alert halert => ?_, fun alert s hnotifies => ?_⟩
    · obtain ⟨created, s₂, hround⟩ := Txn.exists_round hreturns halert
      obtain ⟨found, hfound, -⟩ := (returns_persistAlert cycle candidates _ created alert).mp
        (hrounds alert created s₂ hround)
      exact ⟨found, hfound⟩
    · obtain ⟨candidates', s', created, s₂, found, m, created', s₃, matchId, hloaded', hround,
        hfound, hmatch, hadd⟩ := hnotifies
      obtain ⟨rfl, rfl⟩ := hloaded.unique hloaded'
      obtain ⟨found', hfound', hmatches⟩ := (returns_persistAlert cycle candidates _ created
        alert).mp (hrounds alert created s₂ hround)
      obtain rfl := Except.ok.inj (hfound.symm.trans hfound')
      exact (returns_persistMatch _ _ _ m).mp (hmatches m created' s₃ hmatch) matchId s hadd
  · rintro ⟨hevaluates, hchannels⟩
    refine Txn.returns_foldEach.mpr fun alert created s₂ hround => ?_
    obtain ⟨found, hfound⟩ := hevaluates alert hround.mem
    refine (returns_persistAlert cycle candidates _ created alert).mpr
      ⟨found, hfound, fun m created' s₃ hmatch => ?_⟩
    refine (returns_persistMatch _ _ _ m).mpr fun matchId s hadd => ?_
    exact hchannels alert s ⟨candidates, s₁, created, s₂, found, m, created', s₃, matchId,
      hloaded, hround, hfound, hmatch, hadd⟩

omit hresolve in
theorem returns_persistMatches_iff {ids : List PropertyId}
    (hresolves : Resolves env cycle planned i ids s) :
    Txn.Returns env (cycle.persistMatches planned ids (env.answer 0 .clock)) s ↔
      FindsCalm env cycle planned i := by
  have hcommits : (cycle.runOne planned).Accepted env (.start i) ↔
      Txn.Accepted env (cycle.persistMatches planned ids (env.answer 0 .clock)) s :=
    accepted_runOne hresolves
  rw [accepted_persistMatches] at hcommits
  rw [returns_persistMatches]
  constructor
  · rintro ⟨candidates, s₁, hload, created, s₂, hpersist, hadmits⟩
    have hloaded := (loaded_iff hresolves candidates s₁).mpr hload
    obtain ⟨hevaluates, hchannels⟩ := (returns_evaluateAndPersist hloaded).mp
      (Txn.returns_iff.mpr ⟨created, s₂, hpersist⟩)
    refine ⟨fun ids' s' hresolves' => ?_, fun candidates' s' hloaded' => ?_, hchannels,
      hcommits.mpr fun candidates' s' hload' created' s₃ hpersist' => ?_⟩
    · obtain ⟨hids, rfl⟩ := Prod.mk.inj (hresolves.symm.trans hresolves')
      obtain rfl := Except.ok.inj hids
      exact returns_loadCandidates.mp (Txn.returns_iff.mpr ⟨candidates, s₁, hload⟩)
    · obtain ⟨rfl, rfl⟩ := hloaded.unique hloaded'
      exact hevaluates
    · obtain ⟨rfl, rfl⟩ := hloaded.unique ((loaded_iff hresolves candidates' s').mpr hload')
      obtain ⟨-, rfl⟩ := Prod.mk.inj (hpersist.symm.trans hpersist')
      exact hadmits
  · intro h
    obtain ⟨candidates, s₁, hload⟩ := Txn.returns_iff.mp
      (returns_loadCandidates.mpr (h.readsBack ids s hresolves))
    have hloaded := (loaded_iff hresolves candidates s₁).mpr hload
    obtain ⟨created, s₂, hpersist⟩ := Txn.returns_iff.mp
      ((returns_evaluateAndPersist hloaded).mpr
        ⟨h.evaluates candidates s₁ hloaded, h.readsChannels⟩)
    exact ⟨candidates, s₁, hload, created, s₂, hpersist,
      hcommits.mp h.commits candidates s₁ hload created s₂ hpersist⟩

/--
A worker returns exactly if no answer makes it raise, and nothing that it finds in the
database.  Which answers are caught while it resolves is for its caller to show.
-/
theorem returns_runOne_iff (hcaught : Caught outcome ↔
      ∀ call ∈ (cycle.resolveCandidates planned (env.answer 0 .clock)).callsIn env
        (begun env i), CalmAnswer call.2.1 call.2.2) :
    Txn.Returns env (cycle.runOne planned) (.start i) ↔
      (∀ call ∈ (cycle.runOne planned).callsIn env (.start i),
        CalmAnswer call.2.1 call.2.2) ∧ FindsCalm env cycle planned i := by
  rw [returns_runOne hresolve, calls_runOne hresolve, ← hcaught]
  cases outcome with
  | ok ids => exact (returns_persistMatches_iff hresolve).trans (and_iff_right trivial).symm
  | error error =>
      have hfailed : ∀ ids s', ¬Resolves env cycle planned i ids s' := by
        intro ids s' hresolves
        cases (Prod.mk.inj (hresolve.symm.trans hresolves)).1
      have hcalm : FindsCalm env cycle planned i ↔
          (cycle.runOne planned).Accepted env (.start i) := by
        refine ⟨FindsCalm.commits, fun hcommits => ⟨?_, ?_, ?_, hcommits⟩⟩
        · exact fun ids s' hresolves => absurd hresolves (hfailed ids s')
        · rintro candidates s' ⟨ids, s₁, hresolves, -⟩
          exact absurd hresolves (hfailed ids s₁)
        · rintro alert s' ⟨_, _, _, _, _, _, _, _, _, ⟨ids, s₁, hresolves, -⟩, -⟩
          exact absurd hresolves (hfailed ids s₁)
      rw [hcalm, accepted_runOne hresolve]
      cases error with
      | scraperError error =>
          refine Iff.trans ?_ (and_iff_right trivial).symm
          exact Txn.returns_commitOr.trans Txn.accepted_commitOr.symm
      | _ =>
          refine iff_of_false (fun h => ?_) fun h => h.1
          obtain ⟨_, h⟩ := h
          cases h

end RunOne

end Workers

end RealEstateTracker.Cycle
