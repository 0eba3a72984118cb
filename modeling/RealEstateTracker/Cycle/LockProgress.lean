import RealEstateTracker.Cycle.Deadlock
import RealEstateTracker.Foundation.FairLocking

/-!
# Progress of a cycle

Every worker returns the locks that it takes.  So the cycle comes to its end under
every fair schedule, and from every state, exactly where no two workers can deadlock;
two that can wait for ever under some schedule.
-/

namespace RealEstateTracker.Cycle

open Foundation Foundation.Locking Domain Application LockSteps

theorem heldAfter_alertTurns_release (n : Nat) :
    heldAfter [.databaseLock] (alertTurns n ++ [.release .databaseLock]) = [] := by
  rw [heldAfter_append, heldAfter_alertTurns]
  rfl

theorem heldAfter_workerOps (planned : PlannedQuery) (resolution : Resolution) :
    heldAfter [] (workerOps planned resolution) = [] := by
  cases resolution with
  | scraped visit =>
      rw [workerOps, List.append_assoc, heldAfter_append, heldAfter_searchOps_writing,
        heldAfter_alertTurns_release]
  | failed portalKnown =>
      rw [workerOps, heldAfter_append, heldAfter_searchOps]
      rfl
  | hit =>
      rw [workerOps, heldAfter_append, heldAfter_searchOps]
      cases planned.alerts with
      | nil => rfl
      | cons alert alerts =>
          show heldAfter [] (firstTurn ++ alertTurns alerts.length ++ _) = []
          rw [List.append_assoc, heldAfter_append, heldAfter_firstTurn,
            heldAfter_alertTurns_release]

theorem returns_programs (queries : List PlannedQuery)
    (visits : Fin queries.length → QueryVisit) (i : Fin queries.length) :
    Returns (start (programs queries visits) i) := by
  show heldAfter [] (programs queries visits i) = []
  rw [programs_eq]
  exact heldAfter_workerOps queries[i] (visits i).resolution

/-- Turns of each worker in the order of the plan. -/
def roundRobin (n : Nat) : List (Turn (Fin n)) := (List.finRange n).map .advance

theorem round_roundRobin (n : Nat) : Round (roundRobin n) :=
  fun i => List.mem_map_of_mem (List.mem_finRange i)

/-- Two workers that take the locks in both orders can come to wait for ever. -/
theorem waits_forever {cycle : RunAlertCycle} {queries : List PlannedQuery}
    (hcaps : ∀ planned ∈ queries, 0 < cycle.maxConcurrencyForPortal planned.portalSlug)
    {visits : Fin queries.length → QueryVisit} {i j : Fin queries.length} (hij : i ≠ j)
    (hi : WritesLate (queries.get i) (visits i).resolution)
    (hj : ReturnsWriting (queries.get j) (visits j).resolution) :
    ∃ schedule waiting, ∀ turns : List (Turn (Fin queries.length)),
      (∀ turn ∈ turns, ∃ k, turn = .advance k) →
        Deadlocked cycle.capacity (run cycle.capacity (start (programs queries visits))
          (schedule ++ turns)) waiting := by
  obtain ⟨schedule, waiting, hdeadlock⟩ := deadlock_reached hcaps hij hi hj
  refine ⟨schedule, waiting, fun turns hturns => ?_⟩
  rw [run_append]
  exact deadlocked_advances hdeadlock hturns

/--
A cycle comes to its end, whatever its workers did before, once it is given as many
rounds as it has lock operations in which each worker gets a turn and any may fail,
exactly where no worker comes for `alert_mutation_lock` with the write lock while
another first writes inside its turn with `alert_mutation_lock`.  Where one does, some
schedule leads to workers that wait for each other however the turns go on.
-/
theorem fair_cycle_ends_iff {cycle : RunAlertCycle} {queries : List PlannedQuery}
    (hcaps : ∀ planned ∈ queries, 0 < cycle.maxConcurrencyForPortal planned.portalSlug)
    (visits : Fin queries.length → QueryVisit) :
    ((∀ (schedule : List (Turn (Fin queries.length)))
      (rounds : List (List (Turn (Fin queries.length)))),
      (∀ turns ∈ rounds, Round turns) →
      ∑ i, (programs queries visits i).length ≤ rounds.length →
        Finished (run cycle.capacity (start (programs queries visits))
          (schedule ++ rounds.flatten))) ↔
    ∀ i j, i ≠ j → WritesLate (queries.get i) (visits i).resolution →
      ¬ReturnsWriting (queries.get j) (visits j).resolution) ∧
    ∀ i j, i ≠ j → WritesLate (queries.get i) (visits i).resolution →
      ReturnsWriting (queries.get j) (visits j).resolution →
        ∃ schedule waiting, ∀ turns : List (Turn (Fin queries.length)),
          (∀ turn ∈ turns, ∃ k, turn = .advance k) →
            Deadlocked cycle.capacity (run cycle.capacity
              (start (programs queries visits)) (schedule ++ turns)) waiting := by
  refine ⟨⟨fun hends i j hij hi hj => ?_, fun hpairs schedule rounds hrounds hlength => ?_⟩,
    fun i j hij hi hj => waits_forever hcaps hij hi hj⟩
  · obtain ⟨schedule, waiting, hdeadlock⟩ := waits_forever hcaps hij hi hj
    have hfinished := hends schedule
      (List.replicate (∑ i, (programs queries visits i).length) (roundRobin _))
      (fun turns hturns => List.eq_of_mem_replicate hturns ▸ round_roundRobin _)
      (List.length_replicate ..).ge
    refine not_finished_of_deadlocked (hdeadlock _ fun turn hturn => ?_) hfinished
    obtain ⟨turns, hturns, hturn⟩ := List.mem_flatten.mp hturn
    rw [List.eq_of_mem_replicate hturns] at hturn
    obtain ⟨k, -, rfl⟩ := List.mem_map.mp hturn
    exact ⟨k, rfl⟩
  · have hreturns := returns_programs queries visits
    rw [run_append]
    refine finished_of_rounds (fun i => returns_run hreturns schedule i)
      (fun later waiting => ?_) hrounds
      ((remaining_run_le _ hreturns schedule).trans hlength)
    rw [← run_append]
    exact never_deadlocked hcaps hpairs (schedule ++ later) waiting

theorem fair_cycle_ends_iff_hitAndScrape :
    ((∀ (schedule : List (Turn (Fin 2))) (rounds : List (List (Turn (Fin 2)))),
      (∀ turns ∈ rounds, Round turns) →
      ∑ i, (programs [salesQuery, flatsQuery] hitAndScrape i).length ≤ rounds.length →
        Finished (run salesCycle.capacity
          (start (programs [salesQuery, flatsQuery] hitAndScrape))
          (schedule ++ rounds.flatten))) ↔
    ∀ i j, i ≠ j →
      WritesLate ([salesQuery, flatsQuery].get i) (hitAndScrape i).resolution →
      ¬ReturnsWriting ([salesQuery, flatsQuery].get j) (hitAndScrape j).resolution) ∧
    ∃ schedule waiting, ∀ turns : List (Turn (Fin 2)),
      (∀ turn ∈ turns, ∃ k, turn = .advance k) →
        Deadlocked salesCycle.capacity (run salesCycle.capacity
          (start (programs [salesQuery, flatsQuery] hitAndScrape))
          (schedule ++ turns)) waiting :=
  ⟨(fair_cycle_ends_iff (fun _ _ => Nat.one_pos) hitAndScrape).1,
    (fair_cycle_ends_iff (fun _ _ => Nat.one_pos) hitAndScrape).2 0 1 (by decide)
      ⟨rfl, List.cons_ne_nil _ _⟩ (List.cons_ne_nil _ _)⟩

end RealEstateTracker.Cycle
