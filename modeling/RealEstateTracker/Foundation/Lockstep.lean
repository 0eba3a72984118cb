import RealEstateTracker.Foundation.SerialRun

/-!
# Two runs in lockstep

Programs that make the same choices over aligned stores end alike, although the
identifiers that they draw differ.
-/

namespace RealEstateTracker.Foundation

/-- When two stores look alike to a program, and two batches of writes keep them so. -/
structure Alignment (DB W : Type) [Database DB W] where
  stores : DB → DB → Prop
  writes : List W → List W → Prop
  nil : writes [] []
  append : ∀ first first' second second', writes first first' →
    writes second second' → writes (first ++ second) (first' ++ second')
  apply : ∀ db db' batch batch', stores db db' → writes batch batch' →
    stores (applyAll batch db) (applyAll batch' db')

/-- Two outcomes with related values, or with the same exception. -/
def Agree {E α β : Type} (same : α → β → Prop) : Except E α → Except E β → Prop
  | .ok value, .ok value' => same value value'
  | .error error, .error error' => error = error'
  | _, _ => False

theorem eq_of_agree {E α : Type} {outcome outcome' : Except E α}
    (h : Agree (· = ·) outcome outcome') : outcome = outcome' := by
  cases outcome <;> cases outcome' <;>
    first
    | exact congrArg _ h
    | exact h.elim

namespace Txn

variable {DB W C : Type} {R : C → Type} {E α α' β β' γ : Type} [Database DB W]
  {aligned : Alignment DB W}

/-- The programs take the same steps over aligned stores; none calls or commits. -/
def Lockstep (aligned : Alignment DB W) (same : α → α' → Prop) :
    Txn DB W C R E α → Txn DB W C R E α' → Prop
  | done value, done value' => same value value'
  | raise error, raise error' => error = error'
  | stmt writes next, stmt writes' next' =>
      ∀ stamp stamp' db db', aligned.stores db db' →
        aligned.writes (writes stamp db) (writes' stamp' db') ∧
          Lockstep aligned same (next stamp db) (next' stamp' db')
  | _, _ => False

section Rules

variable {same : α → α' → Prop} {same' : β → β' → Prop}

theorem lockstep_ofExcept (outcome : Except E α) :
    Lockstep aligned (· = ·) (ofExcept outcome : Txn DB W C R E α)
      (ofExcept outcome) := by
  cases outcome <;> rfl

theorem lockstep_query {read : DB → α}
    (h : ∀ db db', aligned.stores db db' → read db = read db') :
    Lockstep aligned (· = ·) (query read : Txn DB W C R E α) (query read) :=
  fun _ _ db db' hdb => ⟨aligned.nil, h db db' hdb⟩

theorem lockstep_exec {writes writes' : Stamp → DB → List W}
    (h : ∀ stamp stamp' db db', aligned.stores db db' →
      aligned.writes (writes stamp db) (writes' stamp' db')) :
    Lockstep aligned (· = ·) (exec writes : Txn DB W C R E Unit) (exec writes') :=
  fun stamp stamp' db db' hdb => ⟨h stamp stamp' db db' hdb, rfl⟩

theorem lockstep_bind {p : Txn DB W C R E α} {p' : Txn DB W C R E α'}
    {f : α → Txn DB W C R E β} {f' : α' → Txn DB W C R E β'}
    (hp : Lockstep aligned same p p')
    (hf : ∀ value value', same value value' →
      Lockstep aligned same' (f value) (f' value')) :
    Lockstep aligned same' (p.bind f) (p'.bind f') := by
  induction p generalizing p' with
  | done value =>
      cases p' with
      | done value' => exact hf _ _ hp
      | _ => exact hp.elim
  | raise error =>
      cases p' with
      | raise error' => exact hp
      | _ => exact hp.elim
  | stmt writes next ih =>
      cases p' with
      | stmt writes' next' =>
          intro stamp stamp' db db' hdb
          obtain ⟨hwrites, hnext⟩ := hp stamp stamp' db db' hdb
          exact ⟨hwrites, ih _ _ hnext⟩
      | _ => exact hp.elim
  | call request next ih => exact hp.elim
  | commit next ih => exact hp.elim

theorem lockstep_foldEach {items : List γ} {acc : α} {acc' : α'}
    {body : α → γ → Txn DB W C R E α} {body' : α' → γ → Txn DB W C R E α'}
    (hacc : same acc acc')
    (hbody : ∀ acc acc' item, same acc acc' →
      Lockstep aligned same (body acc item) (body' acc' item)) :
    Lockstep aligned same (foldEach items acc body) (foldEach items acc' body') := by
  induction items generalizing acc acc' with
  | nil => exact hacc
  | cons item rest ih =>
      exact lockstep_bind (hbody _ _ item hacc) fun _ _ hacc => ih hacc

theorem lockstep_forEach {items : List γ} {body body' : γ → Txn DB W C R E Unit}
    (hbody : ∀ item, Lockstep aligned (· = ·) (body item) (body' item)) :
    Lockstep aligned (· = ·) (forEach items body) (forEach items body') := by
  induction items with
  | nil => rfl
  | cons item rest ih => exact lockstep_bind (hbody item) fun _ _ _ => ih

end Rules

/-- Programs in lockstep end alike, and make aligned writes. -/
theorem eval_of_lockstep {same : α → α' → Prop}
    {answers answers' : Nat → (request : C) → R request}
    {p : Txn DB W C R E α} {p' : Txn DB W C R E α'} (h : Lockstep aligned same p p')
    {s s' : Session W C R} {db db' : DB} (hview : aligned.stores (s.view db) (s'.view db')) :
    Agree same (p.eval answers s db).outcome (p'.eval answers' s' db').outcome ∧
      ∃ batch batch', (p.eval answers s db).session.pending = s.pending ++ batch ∧
        (p'.eval answers' s' db').session.pending = s'.pending ++ batch' ∧
        aligned.writes batch batch' := by
  induction p generalizing p' s s' with
  | done value =>
      cases p' with
      | done value' =>
          exact ⟨h, [], [], (List.append_nil _).symm, (List.append_nil _).symm, aligned.nil⟩
      | _ => exact h.elim
  | raise error =>
      cases p' with
      | raise error' =>
          exact ⟨h, [], [], (List.append_nil _).symm, (List.append_nil _).symm, aligned.nil⟩
      | _ => exact h.elim
  | stmt writes next ih =>
      cases p' with
      | stmt writes' next' =>
          obtain ⟨hwrites, hnext⟩ := h s.stamp s'.stamp _ _ hview
          have hview' := aligned.apply _ _ _ _ hview hwrites
          rw [← Session.view_wrote, ← Session.view_wrote] at hview'
          obtain ⟨hagree, batch, batch', hpending, hpending', hbatch⟩ :=
            ih _ _ hnext hview'
          refine ⟨hagree, _, _, ?_, ?_, aligned.append _ _ _ _ hwrites hbatch⟩
          · rw [← List.append_assoc]
            exact hpending
          · rw [← List.append_assoc]
            exact hpending'
      | _ => exact h.elim
  | call request next ih => exact h.elim
  | commit next ih => exact h.elim

end Txn

end RealEstateTracker.Foundation
