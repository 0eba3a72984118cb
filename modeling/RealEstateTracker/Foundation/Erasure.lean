import RealEstateTracker.Foundation.Interleaving

/-!
# Runs without one of the workers

`Unaware hide p` says that program `p` behaves alike over a database and over
what `hide` leaves of it.  When the other workers are unaware of all that one
worker commits, a run without that worker takes them through the same states.
-/

namespace RealEstateTracker.Foundation

namespace Txn

variable {DB W C : Type} {R : C → Type} {E α β : Type} {hide : DB → DB}

def Unaware (hide : DB → DB) : Txn DB W C R E α → Prop
  | done _ => True
  | raise _ => True
  | stmt writes next =>
      ∀ stamp db, writes stamp (hide db) = writes stamp db ∧
        next stamp (hide db) = next stamp db ∧ (next stamp db).Unaware hide
  | call _ next => ∀ answer, (next answer).Unaware hide
  | commit next => ∀ accepted, (next accepted).Unaware hide

section Rules

@[simp] theorem unaware_done (value : α) :
    (done value : Txn DB W C R E α).Unaware hide := trivial

@[simp] theorem unaware_raise (error : E) :
    (raise error : Txn DB W C R E α).Unaware hide := trivial

@[simp] theorem unaware_ofExcept (outcome : Except E α) :
    (ofExcept outcome : Txn DB W C R E α).Unaware hide := by
  cases outcome <;> trivial

theorem unaware_query {read : DB → α} (h : ∀ db, read (hide db) = read db) :
    (query read : Txn DB W C R E α).Unaware hide :=
  fun _ db => ⟨rfl, congrArg done (h db), trivial⟩

theorem unaware_exec {writes : Stamp → DB → List W}
    (h : ∀ stamp db, writes stamp (hide db) = writes stamp db) :
    (exec writes : Txn DB W C R E Unit).Unaware hide :=
  fun stamp db => ⟨h stamp db, rfl, trivial⟩

theorem unaware_commitOr (error : E) :
    (commitOr error : Txn DB W C R E Unit).Unaware hide := fun accepted => by
  cases accepted <;> trivial

theorem unaware_bind {p : Txn DB W C R E α} {f : α → Txn DB W C R E β}
    (hp : p.Unaware hide) (hf : ∀ value, (f value).Unaware hide) :
    (p.bind f).Unaware hide := by
  induction p with
  | done value => exact hf value
  | raise error => trivial
  | stmt writes next ih =>
      intro stamp db
      obtain ⟨hwrites, hnext, hrest⟩ := hp stamp db
      exact ⟨hwrites, congrArg (fun q => q.bind f) hnext, ih stamp db hrest⟩
  | call request next ih => exact fun answer => ih answer (hp answer)
  | commit next ih => exact fun accepted => ih accepted (hp accepted)

theorem unaware_attempt {p : Txn DB W C R E α} (hp : p.Unaware hide) :
    p.attempt.Unaware hide := by
  induction p with
  | done value => trivial
  | raise error => trivial
  | stmt writes next ih =>
      intro stamp db
      obtain ⟨hwrites, hnext, hrest⟩ := hp stamp db
      exact ⟨hwrites, congrArg attempt hnext, ih stamp db hrest⟩
  | call request next ih => exact fun answer => ih answer (hp answer)
  | commit next ih => exact fun accepted => ih accepted (hp accepted)

theorem unaware_forEach {items : List α} {body : α → Txn DB W C R E Unit}
    (h : ∀ item, (body item).Unaware hide) : (forEach items body).Unaware hide := by
  induction items with
  | nil => trivial
  | cons item rest ih => exact unaware_bind (h item) fun _ => ih

theorem unaware_foldEach {items : List α} {acc : β}
    {body : β → α → Txn DB W C R E β}
    (h : ∀ acc item, (body acc item).Unaware hide) :
    (foldEach items acc body).Unaware hide := by
  induction items generalizing acc with
  | nil => trivial
  | cons item rest ih => exact unaware_bind (h acc item) fun _ => ih

end Rules

end Txn

namespace Sys

variable {DB W C : Type} {R : C → Type} {E α : Type} [Database DB W]

/--
How a store relates to the one of the run without worker `k`: both look alike,
a commit of another worker has the same effect on both, and a commit of worker
`k` leaves no trace in the second.
-/
structure Masks (hide : DB → DB) (masked : DB → DB → Prop) (k : Nat)
    (others own : Session W C R → Prop) : Prop where
  alike : ∀ db db' (writes : List W), masked db db' →
    hide (applyAll writes db) = hide (applyAll writes db')
  other : ∀ db db' (s : Session W C R), masked db db' → s.txn ≠ k → others s →
    Database.admits db s.pending = Database.admits db' s.pending ∧
      masked (applyAll s.pending db) (applyAll s.pending db')
  own : ∀ db db' (s : Session W C R), masked db db' → own s →
    masked (applyAll s.pending db) db'

def Committing (sys : Sys DB W C R E α) (i : Nat) : Prop :=
  ∃ next, (sys.workers i).code = .commit next

structure Alike (hide : DB → DB) (masked : DB → DB → Prop) (k : Nat)
    (sys sys' : Sys DB W C R E α) : Prop where
  store : masked sys.store sys'.store
  workers : ∀ j, j ≠ k → sys'.workers j = sys.workers j
  unaware : ∀ j, j ≠ k → (sys.workers j).code.Unaware hide

section Simulation

variable {hide : DB → DB} {masked : DB → DB → Prop} {k : Nat}
  {others own : Session W C R → Prop} {oracle : Oracle C R}
  {sys sys' : Sys DB W C R E α}

omit [Database DB W] in
theorem Alike.setWorker (h : Alike hide masked k sys sys') {j : Nat}
    {worker : Worker DB W C R E α} (hworker : worker.code.Unaware hide) :
    Alike hide masked k (sys.setWorker j worker) (sys'.setWorker j worker) where
  store := h.store
  workers i hi := by
    by_cases hij : i = j
    · rw [hij, workers_setWorker_self, workers_setWorker_self]
    · rw [workers_setWorker_of_ne _ _ hij, workers_setWorker_of_ne _ _ hij,
        h.workers i hi]
  unaware i hi := by
    by_cases hij : i = j
    · rw [hij, workers_setWorker_self]
      exact hworker
    · rw [workers_setWorker_of_ne _ _ hij]
      exact h.unaware i hi

omit [Database DB W] in
theorem Alike.withStore (h : Alike hide masked k sys sys') {db db' : DB}
    {log log' : List (Nat × ((request : C) × R request))} (hdb : masked db db') :
    Alike hide masked k { sys with store := db, log := log }
      { sys' with store := db', log := log' } :=
  ⟨hdb, h.workers, h.unaware⟩

theorem Alike.step_other (hmasks : Masks hide masked k others own)
    (h : Alike hide masked k sys sys') {j : Nat} (hj : j ≠ k)
    (htxn : (sys.workers j).session.txn = j)
    (hothers : Committing sys j → others (sys.workers j).session) :
    Alike hide masked k (sys.step oracle j) (sys'.step oracle j) := by
  have hworker := h.workers j hj
  have hunaware := h.unaware j hj
  cases hcode : (sys.workers j).code with
  | done value => simpa [step, hcode, hworker] using h
  | raise error => simpa [step, hcode, hworker] using h
  | stmt writes next =>
      rw [hcode] at hunaware
      have hview := hmasks.alike _ _ (sys.workers j).session.pending h.store
      -- both views are alike, so the statement does the same over both
      obtain ⟨hwrites, hnext, hrest⟩ := hunaware (sys.workers j).session.stamp
        ((sys.workers j).session.view sys.store)
      obtain ⟨hwrites', hnext', -⟩ := hunaware (sys.workers j).session.stamp
        ((sys.workers j).session.view sys'.store)
      rw [Session.view, hview] at hwrites hnext
      have hsame := hwrites'.symm.trans hwrites
      have hsame' := hnext'.symm.trans hnext
      simp only [step, hcode, hworker]
      rw [hsame, hsame']
      exact h.setWorker hrest
  | call request next =>
      rw [hcode] at hunaware
      simp only [step, hcode, hworker]
      exact (h.setWorker (hunaware _)).withStore h.store
  | commit next =>
      rw [hcode] at hunaware
      obtain ⟨hadmits, happly⟩ := hmasks.other _ _ _ h.store
        (by rw [htxn]; exact hj) (hothers ⟨next, hcode⟩)
      simp only [step, hcode, hworker, ← hadmits]
      split
      · exact (h.setWorker (hunaware true)).withStore happly
      · exact h.setWorker (hunaware false)

theorem Alike.step_own (hmasks : Masks hide masked k others own)
    (h : Alike hide masked k sys sys')
    (hown : Committing sys k →
      Database.admits sys.store (sys.workers k).session.pending = true →
        own (sys.workers k).session) :
    Alike hide masked k (sys.step oracle k) sys' := by
  have hothers : ∀ j, j ≠ k → (sys.step oracle k).workers j = sys.workers j :=
    fun j hj => workers_step_of_ne oracle sys hj
  refine ⟨?_, fun j hj => (h.workers j hj).trans (hothers j hj).symm,
    fun j hj => by rw [hothers j hj]; exact h.unaware j hj⟩
  generalize hstep : sys.step oracle k = sys₁
  cases stepped hstep with
  | returned => exact h.store
  | raised => exact h.store
  | stmt => exact h.store
  | call => exact h.store
  | accepted next hcode hadmits =>
      exact hmasks.own _ _ _ h.store (hown ⟨next, hcode⟩ hadmits)
  | refused => exact h.store

/--
The run without worker `k`.  If the other workers only commit what `others`
allows and worker `k` what `own` allows, the other workers come through the
same states in both runs.
-/
theorem alike_filter (hmasks : Masks hide masked k others own) {store : DB}
    {programs : Nat → Txn DB W C R E α} (hstore : masked store store)
    (hunaware : ∀ j, j ≠ k → (programs j).Unaware hide) {schedule : List Nat}
    (hothers : ∀ before j after, schedule = before ++ j :: after → j ≠ k →
      Committing ((start store programs).run oracle before) j →
        others (((start store programs).run oracle before).workers j).session)
    (hown : ∀ before after, schedule = before ++ k :: after →
      Committing ((start store programs).run oracle before) k →
        Database.admits ((start store programs).run oracle before).store
            (((start store programs).run oracle before).workers k).session.pending
          = true →
        own (((start store programs).run oracle before).workers k).session) :
    Alike hide masked k ((start store programs).run oracle schedule)
      ((start store programs).run oracle (schedule.filter (· ≠ k))) := by
  induction schedule using List.reverseRecOn with
  | nil => exact ⟨hstore, fun _ _ => rfl, hunaware⟩
  | append_singleton schedule j ih =>
      have hprefix := ih
        (fun before i after h => hothers before i (after ++ [j]) (by simp [h]))
        fun before after h => hown before (after ++ [j]) (by simp [h])
      rw [List.filter_append, run_concat]
      by_cases hj : j = k
      · subst hj
        have hdropped : [j].filter (· ≠ j) = [] := by simp
        rw [hdropped, List.append_nil]
        exact hprefix.step_own hmasks (hown schedule [] rfl)
      · have hkept : [j].filter (· ≠ k) = [j] := by simp [hj]
        rw [hkept, run_concat]
        exact hprefix.step_other hmasks hj (txn_run oracle store programs _ j)
          (hothers schedule j [] rfl hj)

end Simulation

end Sys

end RealEstateTracker.Foundation
