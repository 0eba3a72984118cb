import RealEstateTracker.Cycle.Footprints
import RealEstateTracker.Foundation.LocalRun

/-!
# The candidates of a worker

A worker reads its clock, resolves candidates, and then reads them one by one at the
operations that follow.  All of it is fixed by what the worker meets.
-/

namespace RealEstateTracker.Cycle

open Foundation Domain Application Persistence

abbrev CycleSurroundings := Surroundings Store CycleCall CycleAnswer

/-- The session of worker `i` after it has read the clock. -/
def begun (env : CycleSurroundings) (i : Nat) : CycleSession :=
  (Session.start i).answered .clock (env.answer 0 .clock)

section Candidates

variable [PythonRuntime] [PersistenceRuntime] (env : CycleSurroundings)

/-- The worker resolves the identifiers, which it goes on with in session `s`. -/
def Resolves (cycle : RunAlertCycle) (planned : PlannedQuery) (i : Nat)
    (ids : List PropertyId) (s : CycleSession) : Prop :=
  (cycle.resolveCandidates planned (env.answer 0 .clock)).runIn env (begun env i) =
    (.ok ids, s)

/-- What the `k`-th read after session `s` finds under an identifier. -/
def readAt (s : CycleSession) (k : Nat) (id : PropertyId) :
    Except PyError (Option Property) :=
  PropertyRepository.get id (s.view (env.found (s.ops + k)))

/-- The worker reads the property as one of its candidates. -/
def ReadsCandidate (cycle : RunAlertCycle) (planned : PlannedQuery) (i : Nat) (p : Property) :
    Prop :=
  ∃ ids s k id, Resolves env cycle planned i ids s ∧ ids[k]? = some id ∧
    readAt env s k id = .ok (some p)

variable {env} {s s' : CycleSession} {ids : List PropertyId} {candidates : List Property}

theorem readAt_wrote (s : CycleSession) (k : Nat) (id : PropertyId) :
    readAt env (s.wrote []) k id = readAt env s (k + 1) id := by
  have hops : (s.wrote []).ops + k = s.ops + (k + 1) := by
    rw [Session.ops_wrote]
    omega
  simp only [readAt, hops, Session.view, Session.pending_wrote, List.append_nil]

/-- One round of `loadCandidates`. -/
def loadOne (candidates : List Property) (id : PropertyId) : CycleTxn (List Property) := do
  let found ← Txn.query (PropertyRepository.get id)
  let prop ← Txn.ofExcept found
  return candidates ++ prop.toList

theorem runIn_loadOne (candidates : List Property) (id : PropertyId) (s : CycleSession) :
    (loadOne candidates id).runIn env s =
      ((readAt env s 0 id).map fun prop => candidates ++ prop.toList, s.wrote []) := by
  show Txn.runIn env (Txn.bind (Txn.ofExcept (readAt env s 0 id)) _) (s.wrote []) = _
  cases readAt env s 0 id <;> rfl

theorem returns_loads (candidates : List Property) (s : CycleSession) :
    Txn.Returns env (Txn.foldEach ids candidates loadOne) s ↔
      ∀ k id, ids[k]? = some id → ∃ found, readAt env s k id = .ok found := by
  induction ids generalizing candidates s with
  | nil => simp [Txn.foldEach]
  | cons first ids ih =>
      have hrest : (∀ k id, (first :: ids)[k]? = some id →
          ∃ found, readAt env s k id = .ok found) ↔
          (∃ found, readAt env s 0 first = .ok found) ∧
          ∀ k id, ids[k]? = some id → ∃ found, readAt env (s.wrote []) k id = .ok found := by
        simp only [readAt_wrote]
        constructor
        · exact fun h => ⟨h 0 first rfl, fun k id hid => h (k + 1) id hid⟩
        · rintro ⟨hfirst, hlater⟩ (_ | k) id hid
          · obtain rfl := Option.some.inj hid
            exact hfirst
          · exact hlater k id hid
      rw [hrest, Txn.foldEach, Txn.returns_bind, runIn_loadOne]
      cases hread : readAt env s 0 first with
      | error error => simp [Except.map]
      | ok found =>
          simp only [Except.map, Prod.mk.injEq, Except.ok.injEq, exists_eq', true_and]
          constructor
          · rintro ⟨value, s', ⟨rfl, rfl⟩, h⟩
            exact (ih _ _).mp h
          · exact fun h => ⟨_, _, ⟨rfl, rfl⟩, (ih _ _).mpr h⟩

theorem mem_loads {acc : List Property}
    (h : (Txn.foldEach ids acc loadOne).runIn env s = (.ok candidates, s')) (p : Property) :
    p ∈ candidates ↔ p ∈ acc ∨
      ∃ k id, ids[k]? = some id ∧ readAt env s k id = .ok (some p) := by
  induction ids generalizing acc s with
  | nil =>
      obtain ⟨hacc, -⟩ := Prod.mk.inj h
      obtain rfl := Except.ok.inj hacc
      simp
  | cons first ids ih =>
      obtain ⟨acc', s₁, hfirst, hrest⟩ := Txn.runIn_bind_eq_ok h
      rw [runIn_loadOne] at hfirst
      obtain ⟨hread, rfl⟩ := Prod.mk.inj hfirst
      cases hfound : readAt env s 0 first with
      | error error => simp [hfound, Except.map] at hread
      | ok found =>
          simp only [hfound, Except.map, Except.ok.injEq] at hread
          subst hread
          rw [ih hrest, List.mem_append, or_assoc]
          refine or_congr_right ?_
          simp only [readAt_wrote]
          constructor
          · rintro (hp | ⟨k, id, hid, hp⟩)
            · obtain rfl := Option.mem_toList.mp hp
              exact ⟨0, first, rfl, hfound⟩
            · exact ⟨k + 1, id, hid, hp⟩
          · rintro ⟨_ | k, id, hid, hp⟩
            · obtain rfl := Option.some.inj hid
              rw [hfound] at hp
              exact .inl (by simp [Except.ok.inj hp])
            · exact .inr ⟨k, id, hid, hp⟩

theorem returns_loadCandidates : Txn.Returns env (RunAlertCycle.loadCandidates ids) s ↔
    ∀ k id, ids[k]? = some id → ∃ found, readAt env s k id = .ok found :=
  returns_loads [] s

/-- The candidates are what is found under the identifiers, in one read after the other. -/
theorem mem_of_runIn_loadCandidates
    (h : (RunAlertCycle.loadCandidates ids).runIn env s = (.ok candidates, s'))
    (p : Property) : p ∈ candidates ↔
      ∃ k id, ids[k]? = some id ∧ readAt env s k id = .ok (some p) := by
  rw [mem_loads h]
  simp

theorem readsCandidate_iff {cycle : RunAlertCycle} {planned : PlannedQuery} {i : Nat}
    (hresolves : Resolves env cycle planned i ids s)
    (h : (RunAlertCycle.loadCandidates ids).runIn env s = (.ok candidates, s'))
    (p : Property) : ReadsCandidate env cycle planned i p ↔ p ∈ candidates := by
  rw [mem_of_runIn_loadCandidates h]
  constructor
  · rintro ⟨ids', s₁, k, id, hresolves', hid, hread⟩
    obtain ⟨hids, rfl⟩ := Prod.mk.inj (hresolves.symm.trans hresolves')
    obtain rfl := Except.ok.inj hids
    exact ⟨k, id, hid, hread⟩
  · rintro ⟨k, id, hid, hread⟩
    exact ⟨ids, s, k, id, hresolves, hid, hread⟩

end Candidates

/-! ## Inserting a match -/

section Matches

variable {env : CycleSurroundings} {s : CycleSession} {m : AlertMatch}

theorem runIn_addIfNew_of_known {row : MatchRow}
    (h : MatchRepository.find m.alertId m.propertyId (s.view (env.found s.ops)) = some row) :
    (MatchRepository.addIfNew m : CycleTxn _).runIn env s = (.ok none, s.wrote []) := by
  simp only [MatchRepository.addIfNew, MatchRepository.addIfNewWrites, Txn.runIn, h]

theorem runIn_addIfNew_of_new
    (h : MatchRepository.find m.alertId m.propertyId (s.view (env.found s.ops)) = none) :
    (MatchRepository.addIfNew m : CycleTxn _).runIn env s =
      (.ok (some (MatchRepository.newRow m s.stamp).id),
        s.wrote [.insertMatch (MatchRepository.newRow m s.stamp)]) := by
  simp only [MatchRepository.addIfNew, MatchRepository.addIfNewWrites, Txn.runIn, h]

end Matches

end RealEstateTracker.Cycle
