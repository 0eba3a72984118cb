import RealEstateTracker.Foundation.Footprint
import RealEstateTracker.Foundation.Interleaving

/-!
# Serial runs

A program that nothing interferes with has one result.  Workers that run one
after another compute the composition of their results, and some schedule of
the interleaved system does just that.
-/

namespace RealEstateTracker.Foundation

structure Ended (DB W C : Type) (R : C → Type) (E α : Type) where
  outcome : Except E α
  session : Session W C R
  store : DB

namespace Txn

variable {DB W C : Type} {R : C → Type} {E α β : Type} [Database DB W]

/-- Run a program alone; the answer to a call may depend on when it is made. -/
def eval (answers : Nat → (request : C) → R request) :
    Txn DB W C R E α → Session W C R → DB → Ended DB W C R E α
  | done value, s, db => ⟨.ok value, s, db⟩
  | raise error, s, db => ⟨.error error, s, db⟩
  | stmt writes next, s, db =>
      (next s.stamp (s.view db)).eval answers
        (s.wrote (writes s.stamp (s.view db))) db
  | call request next, s, db =>
      (next (answers s.ops request)).eval answers
        (s.answered request (answers s.ops request)) db
  | commit next, s, db =>
      if Database.admits db s.pending then
        (next true).eval answers s.committed (applyAll s.pending db)
      else (next false).eval answers s.refused db

variable {answers : Nat → (request : C) → R request}

def andThen (ended : Ended DB W C R E α)
    (answers : Nat → (request : C) → R request)
    (f : α → Txn DB W C R E β) : Ended DB W C R E β :=
  match ended.outcome with
  | .ok value => (f value).eval answers ended.session ended.store
  | .error error => ⟨.error error, ended.session, ended.store⟩

theorem eval_bind (p : Txn DB W C R E α) (f : α → Txn DB W C R E β)
    (s : Session W C R) (db : DB) :
    (p.bind f).eval answers s db =
      andThen (p.eval answers s db) answers f := by
  induction p generalizing s db with
  | done value => rfl
  | raise error => rfl
  | stmt writes next ih => exact ih _ _ _ _
  | call request next ih => exact ih _ _ _
  | commit next ih =>
      simp only [bind, eval]
      split
      · exact ih _ _ _
      · exact ih _ _ _

theorem eval_bind_ok {p : Txn DB W C R E α} {f : α → Txn DB W C R E β}
    {s : Session W C R} {db : DB} {value : β}
    (h : ((p.bind f).eval answers s db).outcome = .ok value) :
    ∃ first, (p.eval answers s db).outcome = .ok first ∧
      (p.bind f).eval answers s db =
        (f first).eval answers (p.eval answers s db).session
          (p.eval answers s db).store := by
  rw [eval_bind] at h ⊢
  unfold andThen at h ⊢
  cases hp : (p.eval answers s db).outcome with
  | error error => simp [hp] at h
  | ok first => exact ⟨first, rfl, rfl⟩

theorem eval_attempt (p : Txn DB W C R E α) (s : Session W C R) (db : DB) :
    p.attempt.eval answers s db =
      ⟨.ok (p.eval answers s db).outcome, (p.eval answers s db).session,
        (p.eval answers s db).store⟩ := by
  induction p generalizing s db with
  | done value => rfl
  | raise error => rfl
  | stmt writes next ih => exact ih _ _ _ _
  | call request next ih => exact ih _ _ _
  | commit next ih =>
      simp only [attempt, eval]
      split
      · exact ih _ _ _
      · exact ih _ _ _

/-- The answered calls of a program that runs alone, in the order they are made. -/
def trace (answers : Nat → (request : C) → R request) :
    Txn DB W C R E α → Session W C R → DB → List ((request : C) × R request)
  | done _, _, _ => []
  | raise _, _, _ => []
  | stmt writes next, s, db =>
      (next s.stamp (s.view db)).trace answers
        (s.wrote (writes s.stamp (s.view db))) db
  | call request next, s, db =>
      ⟨request, answers s.ops request⟩ ::
        (next (answers s.ops request)).trace answers
          (s.answered request (answers s.ops request)) db
  | commit next, s, db =>
      if Database.admits db s.pending then
        (next true).trace answers s.committed (applyAll s.pending db)
      else (next false).trace answers s.refused db

def traceThen (ended : Ended DB W C R E α)
    (answers : Nat → (request : C) → R request)
    (f : α → Txn DB W C R E β) : List ((request : C) × R request) :=
  match ended.outcome with
  | .ok value => (f value).trace answers ended.session ended.store
  | .error _ => []

theorem trace_bind (p : Txn DB W C R E α) (f : α → Txn DB W C R E β)
    (s : Session W C R) (db : DB) :
    (p.bind f).trace answers s db =
      p.trace answers s db ++ traceThen (p.eval answers s db) answers f := by
  induction p generalizing s db with
  | done value => rfl
  | raise error => rfl
  | stmt writes next ih => exact ih _ _ _ _
  | call request next ih => exact congrArg (List.cons _) (ih _ _ _)
  | commit next ih =>
      simp only [bind, eval, trace]
      split
      · exact ih _ _ _
      · exact ih _ _ _

theorem eval_commitOr_bind (error : E) (f : Unit → Txn DB W C R E β)
    {s : Session W C R} {db : DB} (h : Database.admits db s.pending = true) :
    ((commitOr error).bind f).eval answers s db =
      (f ()).eval answers s.committed (applyAll s.pending db) := by
  simp [commitOr, bind, eval, h]

theorem trace_commitOr_bind (error : E) (f : Unit → Txn DB W C R E β)
    {s : Session W C R} {db : DB} (h : Database.admits db s.pending = true) :
    ((commitOr error).bind f).trace answers s db =
      (f ()).trace answers s.committed (applyAll s.pending db) := by
  simp [commitOr, bind, trace, h]

theorem eval_of_silent (answers : Nat → (request : C) → R request)
    {p : Txn DB W C R E α} (h : p.Within (fun _ _ => False) fun _ => False) {s : Session W C R}
    (hpending : s.pending = []) (db : DB) :
    (p.eval answers s db).store = db ∧
      (p.eval answers s db).session.pending = [] ∧ p.trace answers s db = [] := by
  induction p generalizing s with
  | done value => exact ⟨rfl, hpending, rfl⟩
  | raise error => exact ⟨rfl, hpending, rfl⟩
  | stmt writes next ih =>
      have hempty : writes s.stamp (s.view db) = [] :=
        List.eq_nil_iff_forall_not_mem.mpr (h.1 _ _)
      exact ih _ _ (h.2 _ _) (by simp [hempty, hpending])
  | call request next ih => exact h.1.elim
  | commit next ih =>
      rw [eval, trace, hpending, applyAll_nil]
      split
      · exact ih _ (h true) rfl
      · exact ih _ (h false) rfl

theorem store_eval_of_only {P : W → Prop} {p : Txn DB W C R E α}
    (h : p.Only P) (s : Session W C R) (db : DB) :
    (p.eval answers s db).store = db := by
  induction p generalizing s with
  | done value => rfl
  | raise error => rfl
  | stmt writes next ih => exact ih _ _ (h.2 _ _) _
  | call request next ih => exact ih _ (h _) _
  | commit next ih => exact h.elim

theorem store_eval_of_within {P : W → Prop} {K : C → Prop} {p : Txn DB W C R E α}
    (h : p.Within (fun _ => P) K) {I : DB → Prop}
    (hkeeps : ∀ write, P write → ∀ db, I db → I (Database.apply write db))
    {s : Session W C R} {db : DB} (hview : I (s.view db)) (hdb : I db) :
    I (p.eval answers s db).store := by
  have hall : ∀ writes, (∀ write ∈ writes, P write) → ∀ db, I db →
      I (applyAll writes db) := by
    intro writes
    induction writes with
    | nil => exact fun _ _ h => h
    | cons write writes ih =>
        intro hwrites db hdb
        obtain ⟨hwrite, hwrites⟩ := List.forall_mem_cons.mp hwrites
        exact ih hwrites _ (hkeeps write hwrite db hdb)
  induction p generalizing s db with
  | done value => exact hdb
  | raise error => exact hdb
  | stmt writes next ih =>
      refine ih _ _ (h.2 _ _) ?_ hdb
      rw [Session.view_wrote]
      exact hall _ (h.1 _ _) _ hview
  | call request next ih => exact ih _ (h.2 _) hview hdb
  | commit next ih =>
      rw [eval]
      split
      · exact ih _ (h true) hview hview
      · exact ih _ (h false) hdb hdb

/-- The rule of `Sys.store_run_of_wp` for a program that runs alone. -/
theorem store_eval_of_wp {I : DB → Prop} {ready : Session W C R → Prop}
    (hcommit : ∀ db (s : Session W C R), I db → ready s →
      Database.admits db s.pending = true → I (applyAll s.pending db))
    {p : Txn DB W C R E α} {Q : Except E α → Session W C R → Prop}
    {s : Session W C R} {db : DB} (hdb : I db) (hwp : wp (.finding I) ready p Q s) :
    I (p.eval answers s db).store := by
  induction p generalizing s db with
  | done value => exact hdb
  | raise error => exact hdb
  | stmt writes next ih => exact ih _ _ hdb (hwp db hdb)
  | call request next ih => exact ih _ hdb (hwp _ trivial)
  | commit next ih =>
      obtain ⟨hready, haccepted, hrefused⟩ := hwp
      rw [eval]
      split
      · next hadmits => exact ih true (hcommit db s hdb hready hadmits) haccepted
      · exact ih false hdb (hrefused trivial)

theorem eval_of_wp {P : W → Prop} {p : Txn DB W C R E α} (h : p.Only P)
    {ready : Session W C R → Prop} {Q : Except E α → Session W C R → Prop}
    {s : Session W C R} {db : DB}
    (hwp : wp ⟨fun db' _ _ => db' = db, fun _ _ => True, True⟩ ready p Q s) :
    Q (p.eval answers s db).outcome (p.eval answers s db).session := by
  induction p generalizing s with
  | done value => exact hwp
  | raise error => exact hwp
  | stmt writes next ih => exact ih _ _ (h.2 _ _) (hwp db rfl)
  | call request next ih => exact ih _ (h _) (hwp _ trivial)
  | commit next ih => exact h.elim

/--
The rule for sequences of programs that run alone: the first part returns in a
session that satisfies its postcondition, and the second goes on from there.
-/
theorem eval_bind_of_wp {P : W → Prop} {p : Txn DB W C R E α} (hp : p.Only P)
    {ready : Session W C R → Prop} {Q : Except E α → Session W C R → Prop}
    {f : α → Txn DB W C R E β} {s : Session W C R} {db : DB} {value : β}
    (hwp : wp ⟨fun db' _ _ => db' = db, fun _ _ => True, True⟩ ready p Q s)
    (h : ((p.bind f).eval answers s db).outcome = .ok value) :
    ∃ first s', (p.eval answers s db).outcome = .ok first ∧ Q (.ok first) s' ∧
      (p.bind f).eval answers s db = (f first).eval answers s' db := by
  obtain ⟨first, hfirst, heq⟩ := eval_bind_ok h
  have hpost : Q (p.eval answers s db).outcome (p.eval answers s db).session :=
    eval_of_wp hp hwp
  rw [hfirst] at hpost
  rw [store_eval_of_only hp] at heq
  exact ⟨first, _, hfirst, hpost, heq⟩

end Txn

namespace Sys

variable {DB W C : Type} {R : C → Type} {E α : Type} [Database DB W]

def EndsAlone (oracle : Oracle C R) (sys : Sys DB W C R E α) (i : Nat)
    (ended : Ended DB W C R E α) : Prop :=
  ∃ steps, (sys.run oracle (List.replicate steps i)).store = ended.store ∧
    (sys.run oracle (List.replicate steps i)).Finished i ended.outcome ∧
    ((sys.run oracle (List.replicate steps i)).workers i).session =
      ended.session ∧
    ∀ j, j ≠ i →
      (sys.run oracle (List.replicate steps i)).workers j = sys.workers j

theorem endsAlone_step {oracle : Oracle C R} {sys : Sys DB W C R E α} {i : Nat}
    {ended : Ended DB W C R E α}
    (h : EndsAlone oracle (sys.step oracle i) i ended) :
    EndsAlone oracle sys i ended := by
  obtain ⟨steps, hstore, hfinished, hsession, hothers⟩ := h
  refine ⟨steps + 1, hstore, hfinished, hsession, fun j hj => ?_⟩
  rw [List.replicate_succ, run_cons, hothers j hj, workers_step_of_ne _ _ hj]

/-- Enough steps of one worker run its program to the end. -/
theorem endsAlone (oracle : Oracle C R) (sys : Sys DB W C R E α) (i : Nat) :
    EndsAlone oracle sys i ((sys.workers i).code.eval (oracle i)
      (sys.workers i).session sys.store) := by
  generalize hcode : (sys.workers i).code = code
  -- the induction is on the program that is left
  induction code generalizing sys with
  | done value => exact ⟨0, rfl, hcode, rfl, fun _ _ => rfl⟩
  | raise error => exact ⟨0, rfl, hcode, rfl, fun _ _ => rfl⟩
  | stmt writes next ih =>
      have h := ih (sys.workers i).session.stamp
        ((sys.workers i).session.view sys.store) (sys.step oracle i)
        (by simp [step, hcode])
      exact endsAlone_step (by simpa [step, hcode, Txn.eval] using h)
  | call request next ih =>
      have h := ih (oracle i (sys.workers i).session.ops request)
        (sys.step oracle i) (by simp [step, hcode])
      exact endsAlone_step (by simpa [step, hcode, Txn.eval] using h)
  | commit next ih =>
      rw [Txn.eval]
      split
      · next hadmits =>
        have h := ih true (sys.step oracle i) (by simp [step, hcode, hadmits])
        exact endsAlone_step (by simpa [step, hcode, hadmits] using h)
      · next hadmits =>
        have h := ih false (sys.step oracle i) (by simp [step, hcode, hadmits])
        exact endsAlone_step (by simpa [step, hcode, hadmits] using h)

def alone (oracle : Oracle C R) (programs : Nat → Txn DB W C R E α) (i : Nat)
    (store : DB) : Ended DB W C R E α :=
  (programs i).eval (oracle i) (.start i) store

def serialStore (oracle : Oracle C R) (programs : Nat → Txn DB W C R E α)
    (store : DB) (order : List Nat) : DB :=
  order.foldl (fun current i => (alone oracle programs i current).store) store

@[simp] theorem serialStore_nil (oracle : Oracle C R)
    (programs : Nat → Txn DB W C R E α) (store : DB) :
    serialStore oracle programs store [] = store := rfl

theorem serialStore_concat (oracle : Oracle C R)
    (programs : Nat → Txn DB W C R E α) (store : DB) (order : List Nat) (i : Nat) :
    serialStore oracle programs store (order ++ [i]) =
      (alone oracle programs i (serialStore oracle programs store order)).store :=
  List.foldl_append ..

def serialOutcome (oracle : Oracle C R) (programs : Nat → Txn DB W C R E α)
    (store : DB) (before : List Nat) (i : Nat) : Except E α :=
  (alone oracle programs i (serialStore oracle programs store before)).outcome

/-- Some schedule runs the workers one after another. -/
theorem exists_serial_schedule (oracle : Oracle C R)
    (programs : Nat → Txn DB W C R E α) (store : DB) (order : List Nat)
    (hnodup : order.Nodup) :
    ∃ schedule,
      ((start store programs).run oracle schedule).store =
          serialStore oracle programs store order ∧
        (∀ before i after, order = before ++ i :: after →
          ((start store programs).run oracle schedule).Finished i
            (serialOutcome oracle programs store before i)) ∧
        ∀ j ∉ order, ((start store programs).run oracle schedule).workers j =
          ⟨programs j, .start j⟩ := by
  induction order using List.reverseRecOn with
  | nil => exact ⟨[], rfl, by simp, fun _ _ => rfl⟩
  | append_singleton order i ih =>
      obtain ⟨hnodup, -, hdisjoint⟩ := List.nodup_append.mp hnodup
      obtain ⟨schedule, hstore, houtcomes, hothers⟩ := ih hnodup
      have hi : i ∉ order := fun hmem => hdisjoint i hmem i (.head _) rfl
      obtain ⟨steps, hstore', hfinished, -, hothers'⟩ :=
        endsAlone oracle ((start store programs).run oracle schedule) i
      rw [hothers i hi, hstore] at hstore' hfinished
      refine ⟨schedule ++ List.replicate steps i, ?_, ?_, ?_⟩
      · rw [run_append, hstore', serialStore_concat]
        rfl
      · intro before j after h
        rw [run_append]
        obtain ⟨rfl, rfl, rfl⟩ | ⟨rest, rfl, horder⟩ :=
          append_singleton_eq_append_cons.mp h
        · exact hfinished
        · have hj : j ≠ i := by
            rintro rfl
            exact hi (by rw [horder]; simp)
          rw [Finished, hothers' j hj]
          exact houtcomes before j rest horder
      · intro j hj
        rw [List.mem_append, List.mem_singleton, not_or] at hj
        rw [run_append, hothers' j hj.2, hothers j hj.1]

end Sys

end RealEstateTracker.Foundation
