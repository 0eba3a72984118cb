import RealEstateTracker.Cycle.Footprints
import RealEstateTracker.Foundation.Erasure

/-!
# Execution rows

A cycle writes a row for each search and never reads one.  A worker that
commits nothing but its own row is therefore invisible to every other worker.
-/

namespace RealEstateTracker.Cycle

open Foundation Domain Application Persistence

/-! ## Nobody reads executions -/

def hideExecutions (db : Store) : Store := { db with executions := [] }

section Programs

variable [PythonRuntime] [PersistenceRuntime]

theorem unaware_resolveListing (portalSlug : String) (resolved : Resolved)
    (listing : RawListing) :
    (resolveListing portalSlug resolved listing).Unaware hideExecutions := by
  refine Txn.unaware_bind (Txn.unaware_query fun _ => rfl) fun unchanged => ?_
  cases unchanged with
  | some propertyId => trivial
  | none =>
      refine Txn.unaware_bind (fun answer => Txn.unaware_ofExcept answer)
        fun result => ?_
      unfold storeListing
      dsimp only
      split
      · trivial
      · refine Txn.unaware_bind (Txn.unaware_bind (fun now => trivial) fun now =>
          Txn.unaware_bind (Txn.unaware_ofExcept _) fun row =>
            Txn.unaware_exec fun _ _ => rfl) fun _ => ?_
        exact Txn.unaware_bind (Txn.unaware_exec fun _ _ => rfl) fun _ => trivial

theorem unaware_resolveCandidates (cycle : RunAlertCycle) (planned : PlannedQuery)
    (now : DateTime) :
    (cycle.resolveCandidates planned now).Unaware hideExecutions := by
  refine Txn.unaware_bind (Txn.unaware_query fun _ => rfl) fun cached => ?_
  cases cached with
  | some propertyIds => trivial
  | none =>
      refine Txn.unaware_bind (fun answer => Txn.unaware_ofExcept answer)
        fun _ => ?_
      refine Txn.unaware_bind (fun answer => Txn.unaware_ofExcept answer)
        fun listings => ?_
      refine Txn.unaware_bind (fun answer => Txn.unaware_ofExcept answer)
        fun _ => ?_
      refine Txn.unaware_bind (Txn.unaware_foldEach fun resolved listing =>
        unaware_resolveListing _ resolved listing) fun resolved => ?_
      refine Txn.unaware_bind (Txn.unaware_exec fun _ _ => rfl) fun _ => ?_
      refine Txn.unaware_bind (fun finishedAt => trivial) fun finishedAt => ?_
      exact Txn.unaware_bind (Txn.unaware_exec fun _ _ => rfl) fun _ => trivial

theorem unaware_persistMatches (cycle : RunAlertCycle) (planned : PlannedQuery)
    (propertyIds : List PropertyId) (now : DateTime) :
    (cycle.persistMatches planned propertyIds now).Unaware hideExecutions := by
  refine Txn.unaware_bind (Txn.unaware_foldEach fun candidates propertyId =>
    Txn.unaware_bind (Txn.unaware_query fun _ => rfl) fun _ =>
      Txn.unaware_bind (Txn.unaware_ofExcept _) fun _ => trivial)
    fun candidates => ?_
  refine Txn.unaware_bind (Txn.unaware_foldEach fun created alert => ?_)
    fun created => Txn.unaware_bind (Txn.unaware_commitOr _) fun _ => trivial
  refine Txn.unaware_bind (Txn.unaware_ofExcept _) fun found => ?_
  refine Txn.unaware_bind (Txn.unaware_foldEach fun created found => ?_)
    fun created => Txn.unaware_bind (Txn.unaware_exec fun _ _ => rfl)
      fun _ => trivial
  refine Txn.unaware_bind (fun stamp db => ⟨rfl, rfl, ?_⟩) fun matchId => ?_
  · dsimp only
    split <;> trivial
  · cases matchId with
    | none => trivial
    | some matchId =>
        refine Txn.unaware_bind (Txn.unaware_query fun _ => rfl) fun listed => ?_
        refine Txn.unaware_bind (Txn.unaware_ofExcept _) fun channels => ?_
        exact Txn.unaware_bind (Txn.unaware_forEach fun channel =>
          Txn.unaware_exec fun _ _ => rfl) fun _ => trivial

theorem unaware_runOne (cycle : RunAlertCycle) (planned : PlannedQuery) :
    (cycle.runOne planned).Unaware hideExecutions := by
  refine Txn.unaware_bind (fun now => trivial) fun now => ?_
  refine Txn.unaware_bind
    (Txn.unaware_attempt (unaware_resolveCandidates cycle planned now))
    fun outcome => ?_
  cases outcome with
  | ok propertyIds => exact unaware_persistMatches cycle planned propertyIds now
  | error error =>
      cases error with
      | scraperError error =>
          refine Txn.unaware_bind (fun finishedAt => trivial) fun finishedAt => ?_
          refine Txn.unaware_bind (Txn.unaware_exec fun _ _ => rfl) fun _ => ?_
          exact Txn.unaware_bind (Txn.unaware_commitOr _) fun _ => trivial
      | _ => trivial

end Programs

/-! ## Stores without the rows of one worker -/

def drawnBy (k : Nat) : Uuid → Bool
  | .uuid4 txn _ _ => txn = k
  | .given _ => false

def withoutExecutionsOf (k : Nat) (db : Store) : Store :=
  { db with executions := db.executions.filter fun row => !drawnBy k row.id }

def OwnExecutions (s : Session Write CycleCall CycleAnswer) : Prop :=
  ∀ row, .insertExecution row ∈ s.pending → ∃ op, row.id = .uuid4 s.txn op 0

def OnlyExecution (k : Nat) (s : Session Write CycleCall CycleAnswer) : Prop :=
  ∃ row op, s.pending = [.insertExecution row] ∧ row.id = .uuid4 k op 0

theorem hideExecutions_applyAll (writes : List Write) (db : Store) :
    hideExecutions (applyAll writes db) =
      hideExecutions (applyAll writes (hideExecutions db)) := by
  have hone : ∀ (write : Write) (db : Store), hideExecutions (write.apply db) =
      hideExecutions (write.apply (hideExecutions db)) := fun write db => by
    cases write <;> rfl
  induction writes generalizing db with
  | nil => rfl
  | cons write writes ih =>
      rw [applyAll_cons, applyAll_cons, ih, apply_eq, hone, ← ih]
      rfl

section Writes

variable {k : Nat} {write : Write}

theorem apply_withoutExecutionsOf
    (h : ∀ row, write = .insertExecution row → drawnBy k row.id = false)
    (db : Store) : write.apply (withoutExecutionsOf k db) =
      withoutExecutionsOf k (write.apply db) := by
  cases write with
  | insertExecution row =>
      simp [Write.apply, withoutExecutionsOf, List.filter_append, h row rfl]
  | _ => rfl

theorem admitted_withoutExecutionsOf
    (h : ∀ row, write = .insertExecution row → drawnBy k row.id = false)
    (db : Store) : write.admitted (withoutExecutionsOf k db) =
      write.admitted db := by
  cases write with
  | insertExecution row =>
      have hany : ((withoutExecutionsOf k db).executions.any (·.id = row.id)) =
          db.executions.any (·.id = row.id) := by
        rw [Bool.eq_iff_iff, List.any_eq_true, List.any_eq_true]
        constructor
        · rintro ⟨stored, hstored, heq⟩
          exact ⟨stored, List.mem_of_mem_filter hstored, heq⟩
        · rintro ⟨stored, hstored, heq⟩
          refine ⟨stored, List.mem_filter.mpr ⟨hstored, ?_⟩, heq⟩
          rw [of_decide_eq_true heq, h row rfl]
          rfl
      unfold Write.admitted
      dsimp only
      rw [hany]
      rfl
  | _ => rfl

theorem applyAll_withoutExecutionsOf {writes : List Write}
    (h : ∀ row, .insertExecution row ∈ writes → drawnBy k row.id = false)
    (db : Store) : Database.admits db writes =
        Database.admits (withoutExecutionsOf k db) writes ∧
      applyAll writes (withoutExecutionsOf k db) =
        withoutExecutionsOf k (applyAll writes db) := by
  induction writes generalizing db with
  | nil => exact ⟨rfl, rfl⟩
  | cons write writes ih =>
      have hwrite : ∀ row, write = .insertExecution row →
          drawnBy k row.id = false := fun row heq => h row (heq ▸ .head _)
      have happly := apply_withoutExecutionsOf hwrite db
      obtain ⟨hadmits, hrest⟩ := ih (fun row hrow => h row (.tail _ hrow))
        (write.apply db)
      rw [admits_eq, admits_eq] at hadmits ⊢
      rw [admitsAll, admitsAll, admitted_withoutExecutionsOf hwrite, happly,
        ← hadmits, applyAll_cons, applyAll_cons, apply_eq, apply_eq, happly, hrest]
      exact ⟨rfl, rfl⟩

end Writes

theorem masks_withoutExecutionsOf (k : Nat) :
    Sys.Masks hideExecutions (fun db db' => db' = withoutExecutionsOf k db) k
      OwnExecutions (OnlyExecution k) where
  alike db db' writes h := by
    rw [h, hideExecutions_applyAll, hideExecutions_applyAll writes
      (withoutExecutionsOf k db)]
    rfl
  other db db' s h htxn hown := by
    have hothers : ∀ row, .insertExecution row ∈ s.pending →
        drawnBy k row.id = false := fun row hrow => by
      obtain ⟨op, hid⟩ := hown row hrow
      rw [hid]
      exact decide_eq_false htxn
    rw [h]
    exact applyAll_withoutExecutionsOf hothers db
  own db db' s h hown := by
    obtain ⟨row, op, hpending, hid⟩ := hown
    rw [h, hpending]
    simp [withoutExecutionsOf, apply_eq, Write.apply, List.filter_append, hid,
      drawnBy]

end RealEstateTracker.Cycle
