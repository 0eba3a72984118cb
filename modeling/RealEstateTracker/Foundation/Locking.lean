import Mathlib.Algebra.Order.BigOperators.Group.Finset
import Mathlib.Data.Fintype.BigOperators
import Mathlib.Tactic

/-!
# Threads that take locks

Finitely many threads acquire and release resources.  A resource has a
capacity: one for a lock, more for a semaphore.  A thread that wants a full
resource waits for it.  A thread may also fail, which returns all it holds.

Threads are deadlocked when each waits for a resource that only they hold.
No threads ever are, when every thread takes resources in an order they share.
-/

namespace RealEstateTracker.Foundation.Locking

inductive LockOp (R : Type) where
  | acquire (resource : R)
  | release (resource : R)
  deriving DecidableEq, Repr

/-- What a thread holds, and what it has still to do. -/
structure Thread (R : Type) where
  held : List R
  rest : List (LockOp R)
  deriving DecidableEq, Repr

inductive Turn (ι : Type) where
  | advance (i : ι)
  | fail (i : ι)
  deriving DecidableEq, Repr

def Thread.wants {R : Type} (thread : Thread R) : Option R :=
  match thread.rest with
  | .acquire r :: _ => some r
  | _ => none

section Programs

variable {R : Type} [DecidableEq R]

def heldAfter (held : List R) : List (LockOp R) → List R
  | [] => held
  | .acquire r :: rest => heldAfter (r :: held) rest
  | .release r :: rest => heldAfter (held.erase r) rest

/--
Nothing is acquired twice, and a contended resource only when everything held
comes before it.
-/
def Climbs (rank : R → Nat) (contended : R → Prop) (held : List R) :
    List (LockOp R) → Prop
  | [] => True
  | .acquire r :: rest =>
      r ∉ held ∧ (contended r → ∀ h ∈ held, rank h < rank r) ∧
        Climbs rank contended (r :: held) rest
  | .release r :: rest => Climbs rank contended (held.erase r) rest

theorem climbs_append {rank : R → Nat} {contended : R → Prop} {held : List R}
    {first second : List (LockOp R)} :
    Climbs rank contended held (first ++ second) ↔
      Climbs rank contended held first ∧
        Climbs rank contended (heldAfter held first) second := by
  induction first generalizing held with
  | nil => exact (and_iff_right trivial).symm
  | cons op first ih =>
      cases op with
      | acquire r => simp only [List.cons_append, Climbs, heldAfter, ih, and_assoc]
      | release r => exact @ih (held.erase r)

theorem heldAfter_append (held : List R) (first second : List (LockOp R)) :
    heldAfter held (first ++ second) =
      heldAfter (heldAfter held first) second := by
  induction first generalizing held with
  | nil => rfl
  | cons op first ih => cases op <;> exact ih _

theorem mem_heldAfter {held : List R} {ops : List (LockOp R)} {r : R} (h : r ∈ held)
    (hops : .release r ∉ ops) : r ∈ heldAfter held ops := by
  induction ops generalizing held with
  | nil => exact h
  | cons op ops ih =>
      have hrest : .release r ∉ ops := fun hmem => hops (.tail _ hmem)
      cases op with
      | acquire s => exact ih (.tail _ h) hrest
      | release s =>
          have hne : r ≠ s := by
            rintro rfl
            exact hops (.head _)
          exact ih ((List.mem_erase_of_ne hne).mpr h) hrest

/-- What one turn makes of a thread. -/
def Thread.Next (thread next : Thread R) : Prop :=
  next = ⟨[], []⟩ ∨
    (∃ r rest, thread.rest = .acquire r :: rest ∧ next = ⟨r :: thread.held, rest⟩) ∨
    ∃ r rest, thread.rest = .release r :: rest ∧ next = ⟨thread.held.erase r, rest⟩

/-- The thread holds what the part of its program that it has done leaves it. -/
def Follows (program : List (LockOp R)) (thread : Thread R) : Prop :=
  ∃ done, program = done ++ thread.rest ∧ thread.held = heldAfter [] done

theorem Follows.next {program : List (LockOp R)} {thread next : Thread R}
    (h : thread = ⟨[], []⟩ ∨ Follows program thread) (hnext : thread.Next next) :
    next = ⟨[], []⟩ ∨ Follows program next := by
  obtain rfl | ⟨r, rest, hop, rfl⟩ | ⟨r, rest, hop, rfl⟩ := hnext
  · exact .inl rfl
  · obtain rfl | ⟨done, hprogram, hheld⟩ := h
    · cases hop
    refine .inr ⟨done ++ [.acquire r], ?_, ?_⟩
    · rw [hprogram, hop, List.append_assoc]
      rfl
    · rw [heldAfter_append, ← hheld]
      rfl
  · obtain rfl | ⟨done, hprogram, hheld⟩ := h
    · cases hop
    refine .inr ⟨done ++ [.release r], ?_, ?_⟩
    · rw [hprogram, hop, List.append_assoc]
      rfl
    · rw [heldAfter_append, ← hheld]
      rfl

end Programs

variable {ι R : Type} [DecidableEq R]

def start (programs : ι → List (LockOp R)) : ι → Thread R :=
  fun i => ⟨[], programs i⟩

section Holders

variable [Fintype ι]

def holders (threads : ι → Thread R) (r : R) : Nat :=
  ∑ i, (threads i).held.count r

def Free (capacity : R → Nat) (threads : ι → Thread R) (r : R) : Prop :=
  holders threads r < capacity r

instance (capacity : R → Nat) (threads : ι → Thread R) (r : R) :
    Decidable (Free capacity threads r) :=
  inferInstanceAs (Decidable (_ < _))

def WaitsFor (capacity : R → Nat) (threads : ι → Thread R) (i : ι) (r : R) :
    Prop :=
  (threads i).wants = some r ∧ ¬ Free capacity threads r

/-- Every thread of the set waits for a resource that only threads of the set hold. -/
def Deadlocked (capacity : R → Nat) (threads : ι → Thread R)
    (waiting : Finset ι) : Prop :=
  waiting.Nonempty ∧ ∀ i ∈ waiting, ∃ r, WaitsFor capacity threads i r ∧
    ∀ j, r ∈ (threads j).held → j ∈ waiting

/-! ## Who holds a resource -/

theorem free_of_unheld {capacity : R → Nat} {threads : ι → Thread R} {r : R}
    (hcapacity : 0 < capacity r) (h : ∀ i, r ∉ (threads i).held) :
    Free capacity threads r := by
  have hholders : holders threads r = 0 :=
    Finset.sum_eq_zero fun i _ => List.count_eq_zero_of_not_mem (h i)
  rw [Free, hholders]
  exact hcapacity

theorem exists_holder {capacity : R → Nat} {threads : ι → Thread R} {r : R}
    (hcapacity : 0 < capacity r) (h : ¬ Free capacity threads r) :
    ∃ i, r ∈ (threads i).held := by
  by_contra hnone
  push Not at hnone
  exact h (free_of_unheld hcapacity hnone)

theorem not_free_of_held {capacity : R → Nat} {threads : ι → Thread R} {r : R}
    {i : ι} (hcapacity : capacity r = 1) (h : r ∈ (threads i).held) :
    ¬ Free capacity threads r := by
  have hone : 1 ≤ (threads i).held.count r := List.count_pos_iff.mpr h
  have hle : (threads i).held.count r ≤ holders threads r :=
    Finset.single_le_sum (f := fun j => (threads j).held.count r)
      (fun _ _ => Nat.zero_le _) (Finset.mem_univ i)
  rw [Free, hcapacity]
  omega

end Holders

/-! ## Runs -/

variable [Fintype ι] [DecidableEq ι]

/-- A finished thread does nothing, and neither does one that has to wait. -/
def step (capacity : R → Nat) (threads : ι → Thread R) :
    Turn ι → (ι → Thread R)
  | .advance i =>
      match (threads i).rest with
      | [] => threads
      | .acquire r :: rest =>
          if Free capacity threads r then
            Function.update threads i ⟨r :: (threads i).held, rest⟩
          else threads
      | .release r :: rest =>
          Function.update threads i ⟨(threads i).held.erase r, rest⟩
  | .fail i => Function.update threads i ⟨[], []⟩

def run (capacity : R → Nat) (threads : ι → Thread R)
    (schedule : List (Turn ι)) : ι → Thread R :=
  schedule.foldl (step capacity) threads

theorem run_append (capacity : R → Nat) (threads : ι → Thread R)
    (first second : List (Turn ι)) :
    run capacity threads (first ++ second) =
      run capacity (run capacity threads first) second :=
  List.foldl_append ..

theorem step_cases (capacity : R → Nat) (threads : ι → Thread R)
    (turn : Turn ι) :
    step capacity threads turn = threads ∨
      ∃ i thread, step capacity threads turn = Function.update threads i thread ∧
        (threads i).Next thread := by
  cases turn with
  | fail i => exact .inr ⟨i, _, rfl, .inl rfl⟩
  | advance i =>
      match hrest : (threads i).rest with
      | [] => exact .inl (by simp only [step, hrest])
      | .release r :: rest =>
          exact .inr ⟨i, _, by simp only [step, hrest], .inr (.inr ⟨r, rest, hrest, rfl⟩)⟩
      | .acquire r :: rest =>
          by_cases hfree : Free capacity threads r
          · exact .inr ⟨i, _, by simp only [step, hrest, if_pos hfree],
              .inr (.inl ⟨r, rest, hrest, rfl⟩)⟩
          · exact .inl (by simp only [step, hrest, if_neg hfree])

/-- What each thread keeps whatever it does next, all threads keep in a step. -/
theorem forall_step (Keeps : ι → Thread R → Prop)
    (hnext : ∀ {i thread next}, Keeps i thread → thread.Next next → Keeps i next)
    {capacity : R → Nat} {threads : ι → Thread R} (h : ∀ i, Keeps i (threads i))
    (turn : Turn ι) (j : ι) : Keeps j (step capacity threads turn j) := by
  obtain hstep | ⟨i, thread, hstep, hthread⟩ := step_cases capacity threads turn
  · rw [hstep]
    exact h j
  · rw [hstep]
    by_cases hij : j = i
    · subst hij
      rw [Function.update_self]
      exact hnext (h j) hthread
    · rw [Function.update_of_ne hij]
      exact h j

theorem forall_run (Keeps : ι → Thread R → Prop)
    (hnext : ∀ {i thread next}, Keeps i thread → thread.Next next → Keeps i next)
    {capacity : R → Nat} {threads : ι → Thread R} (h : ∀ i, Keeps i (threads i))
    (schedule : List (Turn ι)) (j : ι) : Keeps j (run capacity threads schedule j) := by
  induction schedule generalizing threads with
  | nil => exact h j
  | cons turn schedule ih => exact ih (forall_step Keeps hnext h turn)

theorem follows_run (capacity : R → Nat) (programs : ι → List (LockOp R))
    (schedule : List (Turn ι)) (i : ι) :
    run capacity (start programs) schedule i = ⟨[], []⟩ ∨
      Follows (programs i) (run capacity (start programs) schedule i) :=
  forall_run (fun i thread => thread = ⟨[], []⟩ ∨ Follows (programs i) thread) Follows.next
    (fun _ => .inr ⟨[], rfl, rfl⟩) schedule i

/-! ## Ordered programs -/

section Ordered

variable (rank : R → Nat) (contended : R → Prop)

structure Fits (program : List (LockOp R)) (thread : Thread R) : Prop where
  climbs : Climbs rank contended thread.held thread.rest
  held : ∀ r ∈ thread.held, .acquire r ∈ program
  rest : ∀ r, .acquire r ∈ thread.rest → .acquire r ∈ program

variable {rank contended}

theorem Fits.next {program : List (LockOp R)} {thread next : Thread R}
    (h : Fits rank contended program thread) (hnext : thread.Next next) :
    Fits rank contended program next := by
  obtain ⟨hclimbs, hheld, hrest⟩ := h
  obtain rfl | ⟨r, rest, hop, rfl⟩ | ⟨r, rest, hop, rfl⟩ := hnext
  · exact ⟨by simp [Climbs], by simp, by simp⟩
  · rw [hop] at hclimbs hrest
    refine ⟨hclimbs.2.2, ?_, fun s hs => hrest s (.tail _ hs)⟩
    rintro s (_ | ⟨_, hs⟩)
    · exact hrest r (.head _)
    · exact hheld s hs
  · rw [hop] at hclimbs hrest
    exact ⟨hclimbs, fun s hs => hheld s (List.mem_of_mem_erase hs),
      fun s hs => hrest s (.tail _ hs)⟩

omit [Fintype ι] [DecidableEq ι] in
theorem fits_start {programs : ι → List (LockOp R)}
    (h : ∀ i, Climbs rank contended [] (programs i)) (i : ι) :
    Fits rank contended (programs i) (start programs i) :=
  ⟨h i, fun _ hr => absurd hr List.not_mem_nil, fun _ hr => hr⟩

theorem Fits.of_wants {program : List (LockOp R)} {thread : Thread R} {r : R}
    (h : Fits rank contended program thread) (hwants : thread.wants = some r) :
    r ∉ thread.held ∧ .acquire r ∈ program ∧
      (contended r → ∀ s ∈ thread.held, rank s < rank r) := by
  obtain ⟨held, rest⟩ := thread
  match rest, hwants with
  | .acquire _ :: _, rfl =>
      exact ⟨h.climbs.1, h.rest r (.head _), h.climbs.2.1⟩

/--
Threads that climb are never deadlocked.  A resource that is not contended may
be taken out of order, as no two programs take it.
-/
theorem not_deadlocked_of_climbs {capacity : R → Nat}
    {programs : ι → List (LockOp R)}
    (hcapacity : ∀ i r, .acquire r ∈ programs i → 0 < capacity r)
    (hclimbs : ∀ i, Climbs rank contended [] (programs i))
    (halone : ∀ r, ¬ contended r → ∀ i j, .acquire r ∈ programs i →
      .acquire r ∈ programs j → i = j)
    (schedule : List (Turn ι)) (waiting : Finset ι) :
    ¬ Deadlocked capacity (run capacity (start programs) schedule) waiting := by
  generalize hthreads : run capacity (start programs) schedule = threads
  have hfits : ∀ i, Fits rank contended (programs i) (threads i) := fun i =>
    hthreads ▸ forall_run (fun i => Fits rank contended (programs i)) Fits.next
      (fits_start hclimbs) schedule i
  rintro ⟨hne, hwaits⟩
  -- The thread that waits for the last resource waits for another of the set.
  obtain ⟨i, hi, hmax⟩ := waiting.exists_max_image
    (fun i => ((threads i).wants.map rank).getD 0) hne
  obtain ⟨r, ⟨hwants, hfull⟩, hholders⟩ := hwaits i hi
  obtain ⟨j, hheld⟩ :=
    exists_holder (hcapacity i r ((hfits i).of_wants hwants).2.1) hfull
  obtain ⟨s, ⟨hwants', hfull'⟩, _⟩ := hwaits j (hholders j hheld)
  obtain ⟨hfresh, huses, hbelow⟩ := (hfits j).of_wants hwants'
  have hcontended : contended s := by
    by_contra hs
    obtain ⟨k, hk⟩ := exists_holder (hcapacity j s huses) hfull'
    obtain rfl := halone s hs k j ((hfits k).held s hk) huses
    exact hfresh hk
  have hlt : rank r < rank s := hbelow hcontended r hheld
  have hle : rank s ≤ rank r := by
    simpa [hwants, hwants'] using hmax j (hholders j hheld)
  omega

end Ordered

/-! ## A thread that runs alone -/

theorem step_acquire {capacity : R → Nat} {threads : ι → Thread R} {i : ι}
    {r : R} {held : List R} {rest : List (LockOp R)}
    (hthread : threads i = ⟨held, .acquire r :: rest⟩)
    (hcapacity : 0 < capacity r) (h : ∀ j, r ∉ (threads j).held) :
    step capacity threads (.advance i) =
      Function.update threads i ⟨r :: held, rest⟩ := by
  have hfree := free_of_unheld hcapacity h
  simp only [step, hthread, if_pos hfree]

theorem run_alone {rank : R → Nat} {contended : R → Prop} {capacity : R → Nat}
    {i : ι} {ops rest : List (LockOp R)} {held : List R} {threads : ι → Thread R}
    (hthread : threads i = ⟨held, ops ++ rest⟩)
    (hcapacity : ∀ r, .acquire r ∈ ops → 0 < capacity r)
    (hclimbs : Climbs rank contended held ops)
    (hothers : ∀ j, j ≠ i → ∀ r, .acquire r ∈ ops → r ∉ (threads j).held) :
    run capacity threads (List.replicate ops.length (.advance i)) =
      Function.update threads i ⟨heldAfter held ops, rest⟩ := by
  induction ops generalizing held threads with
  | nil => exact (Function.update_eq_self_iff.mpr hthread.symm).symm
  | cons op ops ih =>
      have hnext : ∃ next, step capacity threads (.advance i) =
            Function.update threads i ⟨next, ops ++ rest⟩ ∧
          Climbs rank contended next ops ∧
          heldAfter next ops = heldAfter held (op :: ops) := by
        cases op with
        | acquire r =>
            refine ⟨r :: held, step_acquire hthread (hcapacity r (.head _))
              fun j => ?_,
              hclimbs.2.2, rfl⟩
            by_cases hij : j = i
            · rw [hij, hthread]
              exact hclimbs.1
            · exact hothers j hij r (.head _)
        | release r =>
            exact ⟨held.erase r, by simp only [step, hthread, List.cons_append],
              hclimbs, rfl⟩
      obtain ⟨next, hstep, hclimbs', hafter⟩ := hnext
      have hrun := @ih next (Function.update threads i ⟨next, ops ++ rest⟩)
        (Function.update_self ..) (fun r hr => hcapacity r (.tail _ hr)) hclimbs'
        fun j hij r hr => by
          rw [Function.update_of_ne hij]
          exact hothers j hij r (.tail _ hr)
      rw [List.length_cons, List.replicate_succ, run, List.foldl_cons, hstep]
      rw [run, Function.update_idem, hafter] at hrun
      exact hrun

theorem deadlocked_pair {capacity : R → Nat} {threads : ι → Thread R} {i j : ι}
    {first second : R} {restI restJ : List (LockOp R)}
    (hi : threads i = ⟨[first], .acquire second :: restI⟩)
    (hj : threads j = ⟨[second], .acquire first :: restJ⟩)
    (hothers : ∀ k, k ≠ i → k ≠ j → (threads k).held = [])
    (hfirst : capacity first = 1) (hsecond : capacity second = 1) :
    Deadlocked capacity threads {i, j} := by
  have hheldI : first ∈ (threads i).held := by rw [hi]; exact .head _
  have hheldJ : second ∈ (threads j).held := by rw [hj]; exact .head _
  have hinside : ∀ r k, r ∈ (threads k).held → k ∈ ({i, j} : Finset ι) := by
    intro r k hk
    by_contra hout
    simp only [Finset.mem_insert, Finset.mem_singleton, not_or] at hout
    rw [hothers k hout.1 hout.2] at hk
    exact List.not_mem_nil hk
  refine ⟨⟨i, Finset.mem_insert_self ..⟩, fun k hk => ?_⟩
  obtain rfl | hk := Finset.mem_insert.mp hk
  · exact ⟨second, ⟨by rw [hi]; rfl, not_free_of_held hsecond hheldJ⟩, hinside _⟩
  · obtain rfl := Finset.mem_singleton.mp hk
    exact ⟨first, ⟨by rw [hj]; rfl, not_free_of_held hfirst hheldI⟩, hinside _⟩

/--
One thread takes `first` before `second`, the other comes for `first` with
`second` in hand: let both come as far as that.
-/
theorem exists_deadlock {rank : R → Nat} {contended : R → Prop}
    {capacity : R → Nat} {programs : ι → List (LockOp R)} {i j : ι} (hij : i ≠ j)
    {first second : R} (hne : first ≠ second)
    {beforeI beforeJ restI restJ : List (LockOp R)}
    (hi : programs i = beforeI ++ .acquire first :: .acquire second :: restI)
    (hj : programs j = beforeJ ++ .acquire first :: restJ)
    (hclimbsI : Climbs rank contended [] beforeI)
    (hclimbsJ : Climbs rank contended [] beforeJ)
    (hafterI : heldAfter [] beforeI = []) (hafterJ : heldAfter [] beforeJ = [second])
    (hcapacity : ∀ k r, .acquire r ∈ programs k → 0 < capacity r)
    (hfirst : capacity first = 1) (hsecond : capacity second = 1) :
    ∃ schedule waiting,
      Deadlocked capacity (run capacity (start programs) schedule) waiting := by
  set readyI : ι → Thread R := Function.update (start programs) i
    ⟨[], .acquire first :: .acquire second :: restI⟩ with hreadyI
  set readyJ : ι → Thread R := Function.update readyI j
    ⟨[second], .acquire first :: restJ⟩ with hreadyJ
  have hunheld : ∀ k, (readyI k).held = [] := by
    intro k
    by_cases hk : k = i
    · rw [hk, hreadyI, Function.update_self]
    · rw [hreadyI, Function.update_of_ne hk]
      rfl
  have hrunI : run capacity (start programs)
      (List.replicate beforeI.length (.advance i)) = readyI := by
    have hthread : start programs i =
        ⟨[], beforeI ++ .acquire first :: .acquire second :: restI⟩ :=
      congrArg (Thread.mk []) hi
    rw [run_alone hthread
      (fun r hr => hcapacity i r (hi ▸ List.mem_append_left _ hr)) hclimbsI
      fun k _ r _ => List.not_mem_nil, hafterI]
  have hrunJ : run capacity readyI
      (List.replicate beforeJ.length (.advance j)) = readyJ := by
    have hthread : readyI j = ⟨[], beforeJ ++ .acquire first :: restJ⟩ := by
      rw [hreadyI, Function.update_of_ne hij.symm]
      exact congrArg (Thread.mk []) hj
    rw [run_alone hthread
      (fun r hr => hcapacity j r (hj ▸ List.mem_append_left _ hr)) hclimbsJ
      fun k _ r _ => by rw [hunheld k]; exact List.not_mem_nil, hafterJ]
  have hthreadI : readyJ i = ⟨[], .acquire first :: .acquire second :: restI⟩ := by
    rw [hreadyJ, Function.update_of_ne hij, hreadyI, Function.update_self]
  have hlast : step capacity readyJ (.advance i) =
      Function.update readyJ i ⟨[first], .acquire second :: restI⟩ := by
    refine step_acquire hthreadI (by omega) fun k => ?_
    by_cases hk : k = j
    · rw [hk, hreadyJ, Function.update_self]
      exact List.mem_singleton.not.mpr hne
    · rw [hreadyJ, Function.update_of_ne hk, hunheld k]
      exact List.not_mem_nil
  refine ⟨List.replicate beforeI.length (.advance i) ++
    List.replicate beforeJ.length (.advance j) ++ [.advance i], {i, j}, ?_⟩
  rw [run_append, run_append, hrunI, hrunJ, run, List.foldl_cons, List.foldl_nil, hlast]
  have hthreadJ : Function.update readyJ i ⟨[first], .acquire second :: restI⟩ j =
      ⟨[second], .acquire first :: restJ⟩ := by
    rw [Function.update_of_ne hij.symm, hreadyJ, Function.update_self]
  exact deadlocked_pair (Function.update_self ..) hthreadJ
    (fun k hki hkj => by
      rw [Function.update_of_ne hki, hreadyJ, Function.update_of_ne hkj, hunheld k])
    hfirst hsecond

end RealEstateTracker.Foundation.Locking
