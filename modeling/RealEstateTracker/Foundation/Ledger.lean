import RealEstateTracker.Foundation.Footprint
import RealEstateTracker.Foundation.Interleaving
import Mathlib.Algebra.Order.Group.Multiset

/-!
# Ledgers

A table that is only appended to holds what it held at the start and what the
sessions posted to it, each row once, whatever the order of the commits.  What a
session posts is what it had drafted when it committed.
-/

namespace RealEstateTracker.Foundation

variable {DB W C : Type} {R : C → Type} {E α ρ : Type}

namespace Session

/-- The rows of the writes that are still pending. -/
def drafted (rows : W → List ρ) (s : Session W C R) : List ρ := s.pending.flatMap rows

/-- The rows of the batches that were committed. -/
def posted (rows : W → List ρ) (s : Session W C R) : List ρ :=
  s.history.flatten.flatMap rows

section Fields

variable (rows : W → List ρ) (s : Session W C R)

@[simp] theorem drafted_wrote (writes : List W) :
    (s.wrote writes).drafted rows = s.drafted rows ++ writes.flatMap rows :=
  List.flatMap_append

@[simp] theorem drafted_answered (request : C) (answer : R request) :
    (s.answered request answer).drafted rows = s.drafted rows := rfl

@[simp] theorem drafted_start (txn : Nat) :
    (start txn : Session W C R).drafted rows = [] := rfl

@[simp] theorem posted_wrote (writes : List W) :
    (s.wrote writes).posted rows = s.posted rows := rfl

@[simp] theorem posted_answered (request : C) (answer : R request) :
    (s.answered request answer).posted rows = s.posted rows := rfl

@[simp] theorem posted_committed :
    s.committed.posted rows = s.posted rows ++ s.drafted rows := by
  simp [posted, drafted]

@[simp] theorem posted_refused : s.refused.posted rows = s.posted rows := rfl

@[simp] theorem posted_start (txn : Nat) :
    (start txn : Session W C R).posted rows = [] := rfl

end Fields

end Session

/-- Each write appends its rows to the table. -/
structure Appended (DB W ρ : Type) [Database DB W] where
  table : DB → List ρ
  rows : W → List ρ
  table_apply : ∀ write db, table (Database.apply write db) = table db ++ rows write

namespace Appended

variable [Database DB W] (appended : Appended DB W ρ)

theorem table_applyAll (writes : List W) (db : DB) :
    appended.table (applyAll writes db) =
      appended.table db ++ writes.flatMap appended.rows := by
  induction writes generalizing db with
  | nil => simp
  | cons write writes ih =>
      rw [applyAll_cons, ih, appended.table_apply, List.flatMap_cons, List.append_assoc]

variable {oracle : Oracle C R}

/-- Only a commit posts anything, and what it posts goes to the table. -/
theorem table_step (oracle : Oracle C R) (sys : Sys DB W C R E α) (i : Nat) :
    ∃ added, appended.table (sys.step oracle i).store = appended.table sys.store ++ added ∧
      ((sys.step oracle i).workers i).session.posted appended.rows =
        (sys.workers i).session.posted appended.rows ++ added := by
  generalize hstep : sys.step oracle i = sys'
  cases Sys.stepped hstep with
  | accepted =>
      refine ⟨(sys.workers i).session.drafted appended.rows, ?_, by simp⟩
      exact appended.table_applyAll _ _
  | returned => exact ⟨[], by simp, by simp⟩
  | raised => exact ⟨[], by simp, by simp⟩
  | stmt => exact ⟨[], by simp, by simp⟩
  | call => exact ⟨[], by simp, by simp⟩
  | refused => exact ⟨[], by simp, by simp⟩

theorem step_of_finished {sys : Sys DB W C R E α} {i : Nat} {outcome : Except E α}
    (h : sys.Finished i outcome) : sys.step oracle i = sys := by
  unfold Sys.Finished at h
  cases outcome <;> simp [Sys.step, h, Txn.ofExcept]

/--
The ledger balances: in every state of every interleaving the rows of the table are
those of the first state and those that the sessions posted.
-/
theorem table_run (store : DB) (programs : Nat → Txn DB W C R E α) {workers : List Nat}
    (hnodup : workers.Nodup)
    (hidle : ∀ i, i ∉ workers → ∃ outcome, (Sys.start store programs).Finished i outcome)
    (schedule : List Nat) :
    (appended.table ((Sys.start store programs).run oracle schedule).store).Perm
      (appended.table store ++ workers.flatMap fun i =>
        (((Sys.start store programs).run oracle schedule).workers i).session.posted
          appended.rows) := by
  induction schedule using List.reverseRecOn with
  | nil =>
      have hnone : (workers.flatMap fun i => (((Sys.start store programs).run oracle
          []).workers i).session.posted appended.rows) = [] :=
        List.flatMap_eq_nil_iff.mpr fun i _ => Session.posted_start appended.rows i
      rw [hnone, List.append_nil]
      rfl
  | append_singleton schedule i ih =>
      rw [Sys.run_concat]
      by_cases hi : i ∈ workers
      swap
      · obtain ⟨outcome, hfinished⟩ := hidle i hi
        have hstill : ((Sys.start store programs).run oracle schedule).Finished i outcome := by
          rw [Sys.Finished, Sys.workers_run_of_finished oracle hfinished]
          exact hfinished
        rw [step_of_finished hstill]
        exact ih
      clear hidle
      obtain ⟨before, after, rfl⟩ := List.append_of_mem hi
      generalize (Sys.start store programs).run oracle schedule = sys at ih ⊢
      obtain ⟨added, htable, hposted⟩ := appended.table_step oracle sys i
      obtain ⟨-, hnodup', hdisjoint⟩ := List.nodup_append.mp hnodup
      have hbefore : ∀ j ∈ before, (sys.step oracle i).workers j = sys.workers j :=
        fun j hj => Sys.workers_step_of_ne oracle sys (hdisjoint j hj i (.head _))
      have hafter : ∀ j ∈ after, (sys.step oracle i).workers j = sys.workers j := by
        intro j hj
        refine Sys.workers_step_of_ne oracle sys ?_
        rintro rfl
        exact (List.nodup_cons.mp hnodup').1 hj
      have hothers : ∀ others : List Nat,
          (∀ j ∈ others, (sys.step oracle i).workers j = sys.workers j) →
            (others.flatMap fun j =>
              ((sys.step oracle i).workers j).session.posted appended.rows) =
            others.flatMap fun j => (sys.workers j).session.posted appended.rows :=
        fun others h => List.flatMap_congr fun j hj => by rw [h j hj]
      rw [List.flatMap_append, List.flatMap_cons] at ih ⊢
      rw [hothers before hbefore, hothers after hafter, htable, hposted]
      rw [← Multiset.coe_eq_coe] at ih ⊢
      simp only [← Multiset.coe_add] at ih ⊢
      rw [ih]
      abel

end Appended

namespace Sys

variable [Database DB W] {oracle : Oracle C R}

/-- What every committed write preserves holds at the end. -/
theorem store_run_of_history {I : DB → Prop} {P : W → Prop}
    (happly : ∀ write db, P write → I db → I (Database.apply write db))
    {sys : Sys DB W C R E α} (hstart : I sys.store) (schedule : List Nat)
    (hhistory : ∀ i, ∀ batch ∈ ((sys.run oracle schedule).workers i).session.history,
      ∀ write ∈ batch, P write) : I (sys.run oracle schedule).store := by
  have hall : ∀ (writes : List W) db, (∀ write ∈ writes, P write) → I db →
      I (applyAll writes db) := by
    intro writes
    induction writes with
    | nil => exact fun _ _ h => h
    | cons write writes ih =>
        intro db hwrites h
        obtain ⟨hwrite, hwrites⟩ := List.forall_mem_cons.mp hwrites
        exact ih _ hwrites (happly write db hwrite h)
  induction schedule using List.reverseRecOn with
  | nil => exact hstart
  | append_singleton schedule i ih =>
      rw [run_concat] at hhistory ⊢
      have hstore := ih fun j batch hbatch => hhistory j batch
        ((history_step oracle _ i j).subset hbatch)
      generalize hstep : (sys.run oracle schedule).step oracle i = sys' at hhistory ⊢
      cases stepped hstep with
      | accepted =>
          refine hall _ _ (fun write hwrite => ?_) hstore
          exact hhistory i _ (by simp) write hwrite
      | _ => exact hstore

/-- A worker that commits at its end has committed nothing, or it has ended with all
that it wrote committed. -/
theorem committed_last {store : DB} {programs : Nat → Txn DB W C R E α}
    (hprograms : ∀ i, (programs i).CommitsLast) (schedule : List Nat) (i : Nat) :
    let sys := (start store programs).run oracle schedule
    (sys.workers i).session.history = [] ∧ (sys.workers i).code.CommitsLast ∨
      (sys.workers i).session.pending = [] ∧ ∃ value, sys.Finished i (.ok value) := by
  induction schedule using List.reverseRecOn with
  | nil => exact .inl ⟨rfl, hprograms i⟩
  | append_singleton schedule j ih =>
      rw [run_concat]
      generalize (start store programs).run oracle schedule = sys at ih ⊢
      by_cases hij : i = j
      · subst hij
        rcases ih with ⟨hhistory, hlast⟩ | ⟨hpending, value, hfinished⟩
        · generalize hstep : sys.step oracle i = sys'
          cases stepped hstep with
          | returned => exact .inl ⟨hhistory, hlast⟩
          | raised => exact .inl ⟨hhistory, hlast⟩
          | stmt writes next hcode =>
              rw [hcode] at hlast
              exact .inl (by simpa using ⟨hhistory, hlast _ _⟩)
          | call request next hcode =>
              rw [hcode] at hlast
              exact .inl (by simpa using ⟨hhistory, hlast _⟩)
          | accepted next hcode =>
              rw [hcode] at hlast
              obtain ⟨value, error, hvalue, -⟩ := hlast
              exact .inr ⟨by simp, value, by simpa [Finished, Txn.ofExcept] using hvalue⟩
          | refused next hcode =>
              rw [hcode] at hlast
              obtain ⟨value, error, -, herror⟩ := hlast
              exact .inl (by simpa [herror, Txn.CommitsLast] using hhistory)
        · rw [Appended.step_of_finished hfinished]
          exact .inr ⟨hpending, value, hfinished⟩
      · simpa only [Finished, workers_step_of_ne oracle sys hij] using ih

end Sys

end RealEstateTracker.Foundation
