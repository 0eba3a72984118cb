import RealEstateTracker.Foundation.Locking
import Mathlib.Data.Set.Card

/-!
# Fair schedules of threads that take locks

A schedule in rounds is fair when every round gives each thread a turn.  As long as
no threads are deadlocked, every round of unfinished threads gets something done, so
a fair schedule that is long enough finishes all of them.  Deadlocked threads wait
for ever.
-/

namespace RealEstateTracker.Foundation.Locking

variable {ι R : Type} [DecidableEq R]

/-- What a thread has still to do returns all it holds. -/
def Returns (thread : Thread R) : Prop := heldAfter thread.held thread.rest = []

theorem Returns.next {thread next : Thread R} (h : Returns thread)
    (hnext : thread.Next next) : Returns next := by
  obtain rfl | ⟨r, rest, hop, rfl⟩ | ⟨r, rest, hop, rfl⟩ := hnext
  · rfl
  · rw [Returns, hop] at h
    exact h
  · rw [Returns, hop] at h
    exact h

theorem Returns.held_eq_nil {thread : Thread R} (h : Returns thread)
    (hrest : thread.rest = []) : thread.held = [] := by
  rw [Returns, hrest] at h
  exact h

variable [Fintype ι]

def remaining (threads : ι → Thread R) : Nat := ∑ i, (threads i).rest.length

def Finished (threads : ι → Thread R) : Prop := ∀ i, threads i = ⟨[], []⟩

omit [DecidableEq R] in
theorem remaining_eq_zero {threads : ι → Thread R} :
    remaining threads = 0 ↔ ∀ i, (threads i).rest = [] := by
  simp [remaining, Finset.sum_eq_zero_iff]

variable [DecidableEq ι]

omit [DecidableEq R] in
theorem remaining_update_lt {threads : ι → Thread R} {i : ι} {thread : Thread R}
    (h : thread.rest.length < (threads i).rest.length) :
    remaining (Function.update threads i thread) < remaining threads := by
  refine Finset.sum_lt_sum (fun j _ => ?_) ⟨i, Finset.mem_univ i, ?_⟩
  · by_cases hij : j = i
    · subst hij
      rw [Function.update_self]
      exact h.le
    · rw [Function.update_of_ne hij]
  · rw [Function.update_self]
    exact h

section Steps

variable {capacity : R → Nat} {threads : ι → Thread R}

theorem returns_run (h : ∀ i, Returns (threads i)) (schedule : List (Turn ι)) (j : ι) :
    Returns (run capacity threads schedule j) :=
  forall_run (fun _ => Returns) Returns.next h schedule j

/-- A turn that changes anything gets something done. -/
theorem step_eq_or_lt (capacity : R → Nat) (h : ∀ i, Returns (threads i)) (turn : Turn ι) :
    step capacity threads turn = threads ∨
      remaining (step capacity threads turn) < remaining threads := by
  obtain hstep | ⟨i, thread, hstep, hthread⟩ := step_cases capacity threads turn
  · exact .inl hstep
  rw [hstep]
  obtain rfl | ⟨r, rest, hop, rfl⟩ | ⟨r, rest, hop, rfl⟩ := hthread
  · cases hrest : (threads i).rest with
    | nil =>
        refine .inl (Function.update_eq_self_iff.mpr ?_)
        have hheld := (h i).held_eq_nil hrest
        generalize threads i = thread at hrest hheld
        obtain ⟨held, rest⟩ := thread
        dsimp only at hrest hheld
        rw [hrest, hheld]
    | cons op rest => exact .inr (remaining_update_lt (by rw [hrest]; simp))
  · exact .inr (remaining_update_lt (by rw [hop]; simp))
  · exact .inr (remaining_update_lt (by rw [hop]; simp))

theorem remaining_run_le (capacity : R → Nat) (h : ∀ i, Returns (threads i))
    (schedule : List (Turn ι)) :
    remaining (run capacity threads schedule) ≤ remaining threads := by
  induction schedule generalizing threads with
  | nil => exact le_rfl
  | cons turn schedule ih =>
      refine (ih (forall_step (fun _ => Returns) Returns.next h turn)).trans ?_
      obtain hstep | hlt := step_eq_or_lt capacity h turn
      · rw [hstep]
      · exact hlt.le

/-- Either a schedule gets something done, or none of its turns can. -/
theorem run_idle_or_lt (h : ∀ i, Returns (threads i)) (schedule : List (Turn ι)) :
    (∀ turn ∈ schedule, step capacity threads turn = threads) ∨
      remaining (run capacity threads schedule) < remaining threads := by
  induction schedule with
  | nil => exact .inl fun _ hturn => absurd hturn List.not_mem_nil
  | cons turn schedule ih =>
      obtain hstep | hlt := step_eq_or_lt capacity h turn
      · have hrun : run capacity threads (turn :: schedule) =
            run capacity threads schedule := congrArg (run capacity · schedule) hstep
        rw [hrun]
        exact ih.imp_left fun hidle => List.forall_mem_cons.mpr ⟨hstep, hidle⟩
      · have hreturns : ∀ i, Returns (step capacity threads turn i) :=
          forall_step (fun _ => Returns) Returns.next h turn
        exact .inr ((remaining_run_le capacity hreturns schedule).trans_lt hlt)

/-! ## Progress -/

theorem waits_of_idle {i : ι} (hidle : step capacity threads (.advance i) = threads)
    (hrest : (threads i).rest ≠ []) : ∃ r, WaitsFor capacity threads i r := by
  have hself : ∀ thread : Thread R, thread.rest.length < (threads i).rest.length →
      Function.update threads i thread ≠ threads := fun thread hlt heq =>
    (remaining_update_lt hlt).ne (congrArg remaining heq)
  match hop : (threads i).rest with
  | [] => exact absurd hop hrest
  | .release r :: rest =>
      simp only [step, hop] at hidle
      exact absurd hidle (hself _ (by rw [hop]; simp))
  | .acquire r :: rest =>
      refine ⟨r, by rw [Thread.wants, hop], fun hfree => ?_⟩
      simp only [step, hop, if_pos hfree] at hidle
      exact absurd hidle (hself _ (by rw [hop]; simp))

/-- Where no thread can advance and one is unfinished, the unfinished ones are deadlocked. -/
theorem deadlocked_of_idle (h : ∀ i, Returns (threads i))
    (hidle : ∀ i, step capacity threads (.advance i) = threads)
    (hunfinished : ∃ i, (threads i).rest ≠ []) :
    ∃ waiting, Deadlocked capacity threads waiting := by
  classical
  obtain ⟨i, hi⟩ := hunfinished
  refine ⟨Finset.univ.filter fun j => (threads j).rest ≠ [],
    ⟨i, Finset.mem_filter.mpr ⟨Finset.mem_univ i, hi⟩⟩, fun j hj => ?_⟩
  obtain ⟨r, hwaits⟩ := waits_of_idle (hidle j) (Finset.mem_filter.mp hj).2
  refine ⟨r, hwaits, fun k hk => Finset.mem_filter.mpr ⟨Finset.mem_univ k, fun hrest => ?_⟩⟩
  rw [(h k).held_eq_nil hrest] at hk
  exact List.not_mem_nil hk

/-- A round that gives each thread a turn. -/
def Round (turns : List (Turn ι)) : Prop := ∀ i, .advance i ∈ turns

theorem remaining_round_lt (h : ∀ i, Returns (threads i))
    (hnever : ∀ waiting, ¬Deadlocked capacity threads waiting)
    (hunfinished : ∃ i, (threads i).rest ≠ []) {turns : List (Turn ι)}
    (hround : Round turns) :
    remaining (run capacity threads turns) < remaining threads := by
  refine (run_idle_or_lt h turns).resolve_left fun hidle => ?_
  obtain ⟨waiting, hdeadlock⟩ :=
    deadlocked_of_idle h (fun i => hidle _ (hround i)) hunfinished
  exact hnever waiting hdeadlock

omit [Fintype ι] [DecidableEq ι] in
theorem finished_of_returns (h : ∀ i, Returns (threads i))
    (hrest : ∀ i, (threads i).rest = []) : Finished threads := by
  intro i
  have hheld := (h i).held_eq_nil (hrest i)
  have hempty := hrest i
  generalize threads i = thread at hheld hempty
  obtain ⟨held, rest⟩ := thread
  dsimp only at hheld hempty
  rw [hheld, hempty]

/--
Fair schedules finish: from a state that reaches no deadlock, as many rounds as there is
left to do are enough.
-/
theorem finished_of_rounds (h : ∀ i, Returns (threads i))
    (hnever : ∀ schedule waiting,
      ¬Deadlocked capacity (run capacity threads schedule) waiting)
    {rounds : List (List (Turn ι))} (hrounds : ∀ turns ∈ rounds, Round turns)
    (hlength : remaining threads ≤ rounds.length) :
    Finished (run capacity threads rounds.flatten) := by
  induction rounds generalizing threads with
  | nil => exact finished_of_returns h (remaining_eq_zero.mp (Nat.le_zero.mp hlength))
  | cons turns rounds ih =>
      obtain ⟨hround, hrounds⟩ := List.forall_mem_cons.mp hrounds
      rw [List.flatten_cons, run_append]
      refine ih (fun i => returns_run h turns i) (fun schedule waiting => ?_) hrounds ?_
      · rw [← run_append]
        exact hnever (turns ++ schedule) waiting
      · rw [List.length_cons] at hlength
        by_cases hunfinished : ∃ i, (threads i).rest ≠ []
        · have hlt := remaining_round_lt h (fun waiting => hnever [] waiting)
            hunfinished hround
          exact Nat.le_of_lt_succ (hlt.trans_le hlength)
        · have hzero : remaining threads = 0 :=
            remaining_eq_zero.mpr fun i => not_not.mp fun hi => hunfinished ⟨i, hi⟩
          have hle := remaining_run_le capacity h turns
          omega

end Steps

/-! ## Deadlocks last -/

section Deadlocks

variable {capacity : R → Nat} {threads : ι → Thread R}

omit [DecidableEq R] [Fintype ι] [DecidableEq ι] in
theorem wants_eq_some {thread : Thread R} {r : R} (h : thread.wants = some r) :
    ∃ rest, thread.rest = .acquire r :: rest := by
  obtain ⟨held, rest⟩ := thread
  match rest, h with
  | .acquire _ :: rest, rfl => exact ⟨rest, rfl⟩

theorem holders_update {i : ι} {thread : Thread R} {r : R}
    (h : thread.held.count r = (threads i).held.count r) :
    holders (Function.update threads i thread) r = holders threads r := by
  refine Finset.sum_congr rfl fun j _ => ?_
  by_cases hij : j = i
  · rw [hij, Function.update_self, h]
  · rw [Function.update_of_ne hij]

theorem deadlocked_update {waiting : Finset ι} (h : Deadlocked capacity threads waiting)
    {i : ι} (hi : i ∉ waiting) {thread : Thread R}
    (hheld : ∀ j ∈ waiting, ∀ r, WaitsFor capacity threads j r →
      (∀ k, r ∈ (threads k).held → k ∈ waiting) →
        thread.held.count r = (threads i).held.count r) :
    Deadlocked capacity (Function.update threads i thread) waiting := by
  refine ⟨h.1, fun j hj => ?_⟩
  obtain ⟨r, hwaits, hholders⟩ := h.2 j hj
  have hcount := hheld j hj r hwaits hholders
  have hji : j ≠ i := fun heq => hi (heq ▸ hj)
  refine ⟨r, ⟨?_, ?_⟩, fun k hk => ?_⟩
  · rw [Function.update_of_ne hji]
    exact hwaits.1
  · rw [Free, holders_update hcount]
    exact hwaits.2
  · by_cases hki : k = i
    · subst hki
      rw [Function.update_self, ← List.count_pos_iff, hcount, List.count_pos_iff] at hk
      exact hholders k hk
    · rw [Function.update_of_ne hki] at hk
      exact hholders k hk

/-- Nobody gets out of a deadlock by waiting, and nobody from outside helps. -/
theorem deadlocked_advance {waiting : Finset ι} (h : Deadlocked capacity threads waiting)
    (i : ι) : Deadlocked capacity (step capacity threads (.advance i)) waiting := by
  by_cases hi : i ∈ waiting
  · obtain ⟨r, ⟨hwants, hfull⟩, -⟩ := h.2 i hi
    obtain ⟨rest, hrest⟩ := wants_eq_some hwants
    have hstep : step capacity threads (.advance i) = threads := by
      simp only [step, hrest, if_neg hfull]
    rwa [hstep]
  cases hrest : (threads i).rest with
  | nil =>
      have hstep : step capacity threads (.advance i) = threads := by
        simp only [step, hrest]
      rwa [hstep]
  | cons op rest =>
      cases op with
      | release s =>
          simp only [step, hrest]
          refine deadlocked_update h hi fun j _ r _ hholders => ?_
          -- the resource that is waited for is not held out here
          have hr : r ∉ (threads i).held := fun hmem => hi (hholders i hmem)
          rw [List.count_eq_zero_of_not_mem hr,
            List.count_eq_zero_of_not_mem fun hmem => hr (List.mem_of_mem_erase hmem)]
      | acquire s =>
          by_cases hfree : Free capacity threads s
          · simp only [step, hrest, if_pos hfree]
            refine deadlocked_update h hi fun j _ r hwaits _ => ?_
            have hne : s ≠ r := fun heq => hwaits.2 (heq ▸ hfree)
            exact List.count_cons_of_ne hne
          · simp only [step, hrest, if_neg hfree]
            exact h

theorem deadlocked_advances {waiting : Finset ι} (h : Deadlocked capacity threads waiting)
    {turns : List (Turn ι)} (hturns : ∀ turn ∈ turns, ∃ i, turn = .advance i) :
    Deadlocked capacity (run capacity threads turns) waiting := by
  induction turns generalizing threads with
  | nil => exact h
  | cons turn turns ih =>
      obtain ⟨⟨i, rfl⟩, hrest⟩ := List.forall_mem_cons.mp hturns
      exact ih (deadlocked_advance h i) hrest

omit [DecidableEq ι] in
theorem not_finished_of_deadlocked {waiting : Finset ι}
    (h : Deadlocked capacity threads waiting) : ¬Finished threads := by
  intro hfinished
  obtain ⟨i, hi⟩ := h.1
  obtain ⟨r, ⟨hwants, -⟩, -⟩ := h.2 i hi
  rw [hfinished i] at hwants
  cases hwants

end Deadlocks

/-! ## Capacities -/

theorem holders_le_step {capacity : R → Nat} {threads : ι → Thread R}
    (h : ∀ r, holders threads r ≤ capacity r) (turn : Turn ι) (r : R) :
    holders (step capacity threads turn) r ≤ capacity r := by
  have hless : ∀ i (thread : Thread R), thread.held.count r ≤ (threads i).held.count r →
      holders (Function.update threads i thread) r ≤ capacity r := by
    intro i thread hle
    refine (Finset.sum_le_sum fun j _ => ?_).trans (h r)
    by_cases hij : j = i
    · rw [hij, Function.update_self]
      exact hle
    · rw [Function.update_of_ne hij]
  cases turn with
  | fail i => exact hless i _ (Nat.zero_le _)
  | advance i =>
      cases hrest : (threads i).rest with
      | nil =>
          simp only [step, hrest]
          exact h r
      | cons op rest =>
          cases op with
          | release s =>
              simp only [step, hrest]
              exact hless i _ (List.erase_sublist.count_le _)
          | acquire s =>
              by_cases hfree : Free capacity threads s
              · simp only [step, hrest, if_pos hfree]
                by_cases hsr : s = r
                · subst hsr
                  have hone : holders (Function.update threads i ⟨s :: (threads i).held, rest⟩)
                      s ≤ holders threads s + 1 := by
                    rw [holders, ← Finset.add_sum_erase _ _ (Finset.mem_univ i), holders,
                      ← Finset.add_sum_erase _ (fun j => (threads j).held.count s)
                        (Finset.mem_univ i)]
                    have hothers : ∑ j ∈ Finset.univ.erase i, (Function.update threads i
                          ⟨s :: (threads i).held, rest⟩ j).held.count s =
                        ∑ j ∈ Finset.univ.erase i, (threads j).held.count s :=
                      Finset.sum_congr rfl fun j hj => by
                        rw [Function.update_of_ne (Finset.ne_of_mem_erase hj)]
                    rw [hothers, Function.update_self, List.count_cons_self]
                    omega
                  exact hone.trans hfree
                · exact hless i _ (List.count_cons_of_ne hsr).le
              · simp only [step, hrest, if_neg hfree]
                exact h r

theorem holders_le_run (capacity : R → Nat) (programs : ι → List (LockOp R))
    (schedule : List (Turn ι)) (r : R) :
    holders (run capacity (start programs) schedule) r ≤ capacity r := by
  have hstart : ∀ r, holders (start programs) r ≤ capacity r := by
    intro r
    have hzero : holders (start programs) r = 0 := Finset.sum_eq_zero fun i _ => rfl
    rw [hzero]
    exact Nat.zero_le _
  generalize start programs = threads at hstart
  induction schedule generalizing threads with
  | nil => exact hstart r
  | cons turn schedule ih => exact ih _ (holders_le_step hstart turn)

/-- A part of the programs in which a resource is held admits as many threads. -/
theorem ncard_le_capacity (capacity : R → Nat) (programs : ι → List (LockOp R))
    (schedule : List (Turn ι)) (r : R) {part : Set ι}
    (h : ∀ i ∈ part, r ∈ (run capacity (start programs) schedule i).held) :
    part.ncard ≤ capacity r := by
  set threads := run capacity (start programs) schedule
  set holding := Finset.univ.filter fun i => r ∈ (threads i).held with hholding
  have hpart : part ⊆ holding := fun i hi =>
    Finset.mem_coe.mpr (Finset.mem_filter.mpr ⟨Finset.mem_univ i, h i hi⟩)
  calc part.ncard
      ≤ holding.card := by
        rw [← Set.ncard_coe_finset]
        exact Set.ncard_le_ncard hpart
    _ = ∑ i ∈ holding, 1 := Finset.card_eq_sum_ones holding
    _ ≤ ∑ i ∈ holding, (threads i).held.count r :=
        Finset.sum_le_sum fun i hi => List.count_pos_iff.mpr (Finset.mem_filter.mp hi).2
    _ ≤ holders threads r := Finset.sum_le_sum_of_subset (Finset.filter_subset _ _)
    _ ≤ capacity r := holders_le_run capacity programs schedule r

end RealEstateTracker.Foundation.Locking
