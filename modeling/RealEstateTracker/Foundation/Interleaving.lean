import RealEstateTracker.Foundation.Footprint

/-!
# Interleavings of transaction programs

Any number of workers, one session each, share a committed store.  A schedule
lists which worker performs its next operation; an oracle answers the calls.
Quantifying over both covers every interleaving and every behaviour of the
outside world.
-/

namespace RealEstateTracker.Foundation

theorem append_singleton_eq_append_cons {α : Type} {items before after : List α}
    {last item : α} : items ++ [last] = before ++ item :: after ↔
      (before = items ∧ item = last ∧ after = []) ∨
        ∃ rest, after = rest ++ [last] ∧ items = before ++ item :: rest := by
  constructor
  · intro h
    obtain rfl | ⟨rest, end', rfl⟩ := after.eq_nil_or_concat
    · obtain ⟨rfl, heq⟩ := List.append_inj' h rfl
      exact .inl ⟨rfl, (List.singleton_inj.mp heq).symm, rfl⟩
    · rw [List.concat_eq_append, ← List.cons_append, ← List.append_assoc] at h
      obtain ⟨rfl, heq⟩ := List.append_inj' h rfl
      obtain rfl := List.singleton_inj.mp heq
      exact .inr ⟨rest, List.concat_eq_append, rfl⟩
  · rintro (⟨rfl, rfl, rfl⟩ | ⟨rest, rfl, rfl⟩)
    · rfl
    · simp

structure Worker (DB W C : Type) (R : C → Type) (E α : Type) where
  code : Txn DB W C R E α
  session : Session W C R

/-- `log` lists the answered calls of all workers in the order they happened. -/
structure Sys (DB W C : Type) (R : C → Type) (E α : Type) where
  store : DB
  workers : Nat → Worker DB W C R E α
  log : List (Nat × ((request : C) × R request))

/-- The answer to the call that a worker makes as its operation number `op`. -/
abbrev Oracle (C : Type) (R : C → Type) :=
  Nat → Nat → (request : C) → R request

namespace Sys

variable {DB W C : Type} {R : C → Type} {E α : Type}

def start (store : DB) (programs : Nat → Txn DB W C R E α) :
    Sys DB W C R E α :=
  ⟨store, fun i => ⟨programs i, .start i⟩, []⟩

/-- The same for workers whose sessions carry other numbers. -/
def startAs (names : Nat → Nat) (store : DB)
    (programs : Nat → Txn DB W C R E α) : Sys DB W C R E α :=
  ⟨store, fun i => ⟨programs i, .start (names i)⟩, []⟩

def setWorker (sys : Sys DB W C R E α) (i : Nat)
    (worker : Worker DB W C R E α) : Sys DB W C R E α :=
  { sys with workers := Function.update sys.workers i worker }

@[simp] theorem store_setWorker (sys : Sys DB W C R E α) (i : Nat)
    (worker : Worker DB W C R E α) :
    (sys.setWorker i worker).store = sys.store := rfl

@[simp] theorem log_setWorker (sys : Sys DB W C R E α) (i : Nat)
    (worker : Worker DB W C R E α) :
    (sys.setWorker i worker).log = sys.log := rfl

@[simp] theorem workers_setWorker_self (sys : Sys DB W C R E α) (i : Nat)
    (worker : Worker DB W C R E α) :
    (sys.setWorker i worker).workers i = worker :=
  Function.update_self ..

theorem workers_setWorker_of_ne (sys : Sys DB W C R E α) {i j : Nat}
    (worker : Worker DB W C R E α) (h : j ≠ i) :
    (sys.setWorker i worker).workers j = sys.workers j :=
  Function.update_of_ne h ..

theorem forall_setWorker {P : Worker DB W C R E α → Prop}
    {sys : Sys DB W C R E α} {i : Nat} {worker : Worker DB W C R E α}
    (hworker : P worker) (h : ∀ j, P (sys.workers j)) (j : Nat) :
    P ((sys.setWorker i worker).workers j) := by
  by_cases hij : j = i
  · rw [hij, workers_setWorker_self]
    exact hworker
  · rw [workers_setWorker_of_ne _ _ hij]
    exact h j

variable [Database DB W]

/-- Worker `i` performs its next operation; a finished worker does nothing. -/
def step (oracle : Oracle C R) (sys : Sys DB W C R E α) (i : Nat) :
    Sys DB W C R E α :=
  let session := (sys.workers i).session
  match (sys.workers i).code with
  | .done _ => sys
  | .raise _ => sys
  | .stmt writes next =>
      let view := session.view sys.store
      sys.setWorker i
        ⟨next session.stamp view, session.wrote (writes session.stamp view)⟩
  | .call request next =>
      let answer := oracle i session.ops request
      { sys.setWorker i ⟨next answer, session.answered request answer⟩ with
        log := sys.log ++ [(i, ⟨request, answer⟩)] }
  | .commit next =>
      if Database.admits sys.store session.pending then
        { sys.setWorker i ⟨next true, session.committed⟩ with
          store := applyAll session.pending sys.store }
      else sys.setWorker i ⟨next false, session.refused⟩

def run (oracle : Oracle C R) (sys : Sys DB W C R E α)
    (schedule : List Nat) : Sys DB W C R E α :=
  schedule.foldl (step oracle) sys

@[simp] theorem run_nil (oracle : Oracle C R) (sys : Sys DB W C R E α) :
    sys.run oracle [] = sys := rfl

@[simp] theorem run_cons (oracle : Oracle C R) (sys : Sys DB W C R E α)
    (i : Nat) (schedule : List Nat) :
    sys.run oracle (i :: schedule) =
      (sys.step oracle i).run oracle schedule := rfl

theorem run_append (oracle : Oracle C R) (sys : Sys DB W C R E α)
    (first second : List Nat) :
    sys.run oracle (first ++ second) =
      (sys.run oracle first).run oracle second :=
  List.foldl_append ..

theorem run_concat (oracle : Oracle C R) (sys : Sys DB W C R E α)
    (schedule : List Nat) (i : Nat) :
    sys.run oracle (schedule ++ [i]) =
      (sys.run oracle schedule).step oracle i :=
  run_append ..

/-! ## What one step can do -/

/-- Everything that a step of worker `i` from `sys` to `sys'` may be. -/
inductive Stepped (oracle : Oracle C R) (sys : Sys DB W C R E α) (i : Nat) :
    Sys DB W C R E α → Prop
  | returned (value : α) (hcode : (sys.workers i).code = .done value) :
      Stepped oracle sys i sys
  | raised (error : E) (hcode : (sys.workers i).code = .raise error) :
      Stepped oracle sys i sys
  | stmt (writes : Stamp → DB → List W)
      (next : Stamp → DB → Txn DB W C R E α)
      (hcode : (sys.workers i).code = .stmt writes next) :
      Stepped oracle sys i
        (sys.setWorker i
          ⟨next (sys.workers i).session.stamp
              ((sys.workers i).session.view sys.store),
            (sys.workers i).session.wrote
              (writes (sys.workers i).session.stamp
                ((sys.workers i).session.view sys.store))⟩)
  | call (request : C) (next : R request → Txn DB W C R E α)
      (hcode : (sys.workers i).code = .call request next) :
      Stepped oracle sys i
        { sys.setWorker i
            ⟨next (oracle i (sys.workers i).session.ops request),
              (sys.workers i).session.answered request
                (oracle i (sys.workers i).session.ops request)⟩ with
          log := sys.log ++
            [(i, ⟨request, oracle i (sys.workers i).session.ops request⟩)] }
  | accepted (next : Bool → Txn DB W C R E α)
      (hcode : (sys.workers i).code = .commit next)
      (hadmits :
        Database.admits sys.store (sys.workers i).session.pending = true) :
      Stepped oracle sys i
        { sys.setWorker i ⟨next true, (sys.workers i).session.committed⟩ with
          store := applyAll (sys.workers i).session.pending sys.store }
  | refused (next : Bool → Txn DB W C R E α)
      (hcode : (sys.workers i).code = .commit next)
      (hadmits :
        Database.admits sys.store (sys.workers i).session.pending = false) :
      Stepped oracle sys i
        (sys.setWorker i ⟨next false, (sys.workers i).session.refused⟩)

theorem stepped {oracle : Oracle C R} {sys sys' : Sys DB W C R E α}
    {i : Nat} (hstep : sys.step oracle i = sys') :
    Stepped oracle sys i sys' := by
  subst hstep
  unfold step
  dsimp only
  split
  next value hcode => exact .returned value hcode
  next error hcode => exact .raised error hcode
  next writes next hcode => exact .stmt writes next hcode
  next request next hcode => exact .call request next hcode
  next next hcode =>
    split
    next hadmits => exact .accepted next hcode hadmits
    next hadmits => exact .refused next hcode (by simpa using hadmits)

theorem workers_step_of_ne (oracle : Oracle C R) (sys : Sys DB W C R E α)
    {i j : Nat} (h : j ≠ i) :
    (sys.step oracle i).workers j = sys.workers j := by
  generalize hstep : sys.step oracle i = sys'
  cases stepped hstep with
  | returned => rfl
  | raised => rfl
  | stmt => exact workers_setWorker_of_ne _ _ h
  | call => exact workers_setWorker_of_ne _ _ h
  | accepted => exact workers_setWorker_of_ne _ _ h
  | refused => exact workers_setWorker_of_ne _ _ h

theorem txn_step (oracle : Oracle C R) (sys : Sys DB W C R E α) (i j : Nat) :
    ((sys.step oracle i).workers j).session.txn =
      (sys.workers j).session.txn := by
  by_cases h : j = i
  · subst h
    generalize hstep : sys.step oracle j = sys'
    cases stepped hstep <;> simp
  · rw [workers_step_of_ne oracle sys h]

theorem ops_step (oracle : Oracle C R) (sys : Sys DB W C R E α) (i j : Nat) :
    (sys.workers j).session.ops ≤ ((sys.step oracle i).workers j).session.ops := by
  by_cases h : j = i
  · subst h
    generalize hstep : sys.step oracle j = sys'
    cases stepped hstep <;> simp
  · rw [workers_step_of_ne oracle sys h]

theorem txn_run (oracle : Oracle C R) (store : DB)
    (programs : Nat → Txn DB W C R E α) (schedule : List Nat) (i : Nat) :
    (((start store programs).run oracle schedule).workers i).session.txn =
      i := by
  induction schedule using List.reverseRecOn with
  | nil => rfl
  | append_singleton schedule j ih => rw [run_concat, txn_step, ih]

/-- A condition on the steps of a run, one after the other. -/
def Along (P : Sys DB W C R E α → Nat → Prop) (oracle : Oracle C R) :
    Sys DB W C R E α → List Nat → Prop
  | _, [] => True
  | sys, i :: schedule => P sys i ∧ Along P oracle (sys.step oracle i) schedule

theorem along_iff {P : Sys DB W C R E α → Nat → Prop} {oracle : Oracle C R}
    {sys : Sys DB W C R E α} {schedule : List Nat} :
    Along P oracle sys schedule ↔ ∀ before i after, schedule = before ++ i :: after →
      P (sys.run oracle before) i := by
  induction schedule generalizing sys with
  | nil => simp [Along]
  | cons j schedule ih =>
      rw [Along, ih]
      constructor
      · rintro ⟨hfirst, hrest⟩ before i after h
        cases before with
        | nil =>
            obtain ⟨rfl, rfl⟩ := List.cons.inj h
            exact hfirst
        | cons k before =>
            obtain ⟨rfl, hafter⟩ := List.cons.inj h
            exact hrest before i after hafter
      · intro h
        exact ⟨h [] j schedule rfl, fun before i after heq =>
          h (j :: before) i after (congrArg (j :: ·) heq)⟩

/-! ## What a run keeps -/

def Finished (sys : Sys DB W C R E α) (i : Nat) (outcome : Except E α) : Prop :=
  (sys.workers i).code = .ofExcept outcome

theorem workers_step_of_finished (oracle : Oracle C R) {sys : Sys DB W C R E α}
    {i : Nat} {outcome : Except E α} (h : sys.Finished i outcome) (j : Nat) :
    (sys.step oracle j).workers i = sys.workers i := by
  by_cases hij : i = j
  · subst hij
    unfold Finished at h
    cases outcome <;> simp [step, h, Txn.ofExcept]
  · exact workers_step_of_ne oracle sys hij

theorem workers_run_of_finished (oracle : Oracle C R) {sys : Sys DB W C R E α}
    {i : Nat} {outcome : Except E α} (h : sys.Finished i outcome)
    (schedule : List Nat) : (sys.run oracle schedule).workers i = sys.workers i := by
  induction schedule using List.reverseRecOn with
  | nil => rfl
  | append_singleton schedule j ih =>
      have hfinished : (sys.run oracle schedule).Finished i outcome := by
        rw [Finished, ih]
        exact h
      rw [run_concat, workers_step_of_finished oracle hfinished, ih]

/-- Committed batches are never taken back. -/
theorem history_step (oracle : Oracle C R) (sys : Sys DB W C R E α) (i j : Nat) :
    (sys.workers j).session.history <+:
      ((sys.step oracle i).workers j).session.history := by
  by_cases hij : j = i
  · subst hij
    generalize hstep : sys.step oracle j = sys'
    cases stepped hstep <;> simp
  · rw [workers_step_of_ne oracle sys hij]

theorem history_run (oracle : Oracle C R) (sys : Sys DB W C R E α)
    (schedule : List Nat) (j : Nat) :
    (sys.workers j).session.history <+:
      ((sys.run oracle schedule).workers j).session.history := by
  induction schedule using List.reverseRecOn with
  | nil => exact List.prefix_rfl
  | append_singleton schedule i ih =>
      rw [run_concat]
      exact ih.trans (history_step oracle _ i j)

theorem within_step {P : DB → W → Prop} {K : C → Prop} (oracle : Oracle C R)
    {sys : Sys DB W C R E α} {j : Nat} (h : (sys.workers j).code.Within P K)
    (i : Nat) : ((sys.step oracle i).workers j).code.Within P K := by
  by_cases hij : j = i
  · subst hij
    generalize hstep : sys.step oracle j = sys'
    cases stepped hstep with
    | returned => exact h
    | raised => exact h
    | stmt writes next hcode =>
        rw [hcode] at h
        simpa using h.2 _ _
    | call request next hcode =>
        rw [hcode] at h
        simpa using h.2 _
    | accepted next hcode =>
        rw [hcode] at h
        simpa using h true
    | refused next hcode =>
        rw [hcode] at h
        simpa using h false
  · rwa [workers_step_of_ne oracle sys hij]

theorem within_run {P : DB → W → Prop} {K : C → Prop} (oracle : Oracle C R)
    {sys : Sys DB W C R E α} {j : Nat} (h : (sys.workers j).code.Within P K)
    (schedule : List Nat) :
    ((sys.run oracle schedule).workers j).code.Within P K := by
  induction schedule using List.reverseRecOn with
  | nil => exact h
  | append_singleton schedule i ih =>
      rw [run_concat]
      exact within_step oracle ih i

theorem pending_step {P : W → Prop} {K : C → Prop} {oracle : Oracle C R}
    {sys : Sys DB W C R E α}
    (hcode : ∀ j, (sys.workers j).code.Within (fun _ => P) K)
    (h : ∀ j, ∀ write ∈ (sys.workers j).session.pending, P write) (i j : Nat) :
    ∀ write ∈ ((sys.step oracle i).workers j).session.pending, P write := by
  by_cases hij : j = i
  · subst hij
    have hj := hcode j
    generalize hstep : sys.step oracle j = sys'
    cases stepped hstep with
    | returned => exact h j
    | raised => exact h j
    | stmt writes next hstmt =>
        rw [hstmt] at hj
        simpa using List.forall_mem_append.mpr ⟨h j, hj.1 _ _⟩
    | call => simpa using h j
    | accepted => simp
    | refused => simp
  · rw [workers_step_of_ne oracle sys hij]
    exact h j

theorem store_run {P : W → Prop} {K : C → Prop} {oracle : Oracle C R}
    {I : DB → Prop} (happly : ∀ write db, P write → I db →
      I (Database.apply write db))
    {store : DB} {programs : Nat → Txn DB W C R E α}
    (hcode : ∀ i, (programs i).Within (fun _ => P) K) (hstart : I store)
    (schedule : List Nat) :
    I ((start store programs).run oracle schedule).store ∧
      ∀ j, I ((((start store programs).run oracle schedule).workers j).session.view
        ((start store programs).run oracle schedule).store) := by
  have hall : ∀ (writes : List W) db, (∀ write ∈ writes, P write) → I db →
      I (applyAll writes db) := by
    intro writes
    induction writes with
    | nil => exact fun _ _ h => h
    | cons write writes ih =>
        intro db hwrites h
        obtain ⟨hwrite, hwrites⟩ := List.forall_mem_cons.mp hwrites
        exact ih _ hwrites (happly write db hwrite h)
  suffices h : I ((start store programs).run oracle schedule).store ∧
      ∀ j, ∀ write ∈ (((start store programs).run oracle schedule).workers
        j).session.pending, P write from
    ⟨h.1, fun j => hall _ _ (h.2 j) h.1⟩
  induction schedule using List.reverseRecOn with
  | nil => exact ⟨hstart, fun j write hwrite => by simp [start] at hwrite⟩
  | append_singleton schedule i ih =>
      obtain ⟨hstore, hpending⟩ := ih
      rw [run_concat]
      refine ⟨?_, pending_step
        (fun j => within_run oracle (hcode j) schedule) hpending i⟩
      generalize hstep : ((start store programs).run oracle schedule).step oracle i =
        sys'
      cases stepped hstep with
      | accepted => exact hall _ _ (hpending i) hstore
      | _ => exact hstore

/-! ## Programs keep their weakest precondition -/

def Meets (rely : Rely DB C R) (oracle : Oracle C R)
    (sys : Sys DB W C R E α) (i : Nat) : Prop :=
  rely.store sys.store (sys.workers i).session.txn
      (sys.workers i).session.since ∧
    match (sys.workers i).code with
    | .call request _ =>
        rely.answers request (oracle i (sys.workers i).session.ops request)
    | .commit _ =>
        Database.admits sys.store (sys.workers i).session.pending = false →
          rely.refuses
    | _ => True

def Holds (rely : Rely DB C R) (ready : Session W C R → Prop)
    (Q : Except E α → Session W C R → Prop)
    (worker : Worker DB W C R E α) : Prop :=
  worker.code.wp rely ready Q worker.session

theorem holds_step {rely : Rely DB C R} {ready : Session W C R → Prop}
    {Q : Except E α → Session W C R → Prop} {oracle : Oracle C R}
    {sys : Sys DB W C R E α} {i : Nat}
    (h : Holds rely ready Q (sys.workers i))
    (hmeets : sys.Meets rely oracle i) :
    Holds rely ready Q ((sys.step oracle i).workers i) := by
  obtain ⟨hstore, hnext⟩ := hmeets
  unfold Holds at h
  generalize hstep : sys.step oracle i = sys'
  cases stepped hstep with
  | returned value hcode => exact h
  | raised error hcode => exact h
  | stmt writes next hcode =>
      rw [hcode] at h
      simpa [Holds] using h sys.store hstore
  | call request next hcode =>
      rw [hcode] at h hnext
      simpa [Holds] using h _ hnext
  | accepted next hcode hadmits =>
      rw [hcode] at h
      simpa [Holds] using h.2.1
  | refused next hcode hadmits =>
      rw [hcode] at h hnext
      simpa [Holds] using h.2.2 (hnext hadmits)

theorem ready_of_holds {rely : Rely DB C R}
    {ready : Session W C R → Prop}
    {Q : Except E α → Session W C R → Prop}
    {worker : Worker DB W C R E α} {next : Bool → Txn DB W C R E α}
    (h : Holds rely ready Q worker) (hcode : worker.code = .commit next) :
    ready worker.session := by
  unfold Holds at h
  rw [hcode] at h
  exact h.1

/-! ## The invariant rule -/

/--
What makes `known`, the part of the rely about committed data, survive every
step: a session may learn nothing by an operation that commits nothing, its
own commit renews what it knows, and so does the commit of another session.
-/
structure Stable (known : DB → Nat → Nat → Prop)
    (ready : Session W C R → Prop) : Prop where
  own : ∀ db (s : Session W C R), known db s.txn s.since → ready s →
    Database.admits db s.pending = true →
      known (applyAll s.pending db) s.txn (s.ops + 1)
  refused : ∀ db (s : Session W C R), known db s.txn s.since → ready s →
    known db s.txn (s.ops + 1)
  other : ∀ db (s : Session W C R) txn since, txn ≠ s.txn →
    known db s.txn s.since → ready s → Database.admits db s.pending = true →
      known db txn since → known (applyAll s.pending db) txn since

/--
The invariant rule.  When each program satisfies its weakest precondition and
`known` is stable, every state of every schedule satisfies `known` for every
session, and every worker still satisfies its weakest precondition.
-/
theorem invariant_run {known : DB → Nat → Nat → Prop}
    {answers : Nat → (request : C) → R request → Prop}
    {ready : Session W C R → Prop}
    {Q : Nat → Except E α → Session W C R → Prop}
    {oracle : Oracle C R} {store : DB}
    {programs : Nat → Txn DB W C R E α}
    (hstable : Stable (W := W) (C := C) (R := R) known ready)
    (hknown : ∀ i, known store i 0)
    (hanswers : ∀ i op request, answers i request (oracle i op request))
    (hprograms : ∀ i,
      (programs i).wp ⟨known, answers i, True⟩ ready (Q i) (.start i))
    (schedule : List Nat) :
    (∀ i, known ((start store programs).run oracle schedule).store i
        (((start store programs).run oracle schedule).workers i).session.since) ∧
      ∀ i, Holds ⟨known, answers i, True⟩ ready (Q i)
        (((start store programs).run oracle schedule).workers i) := by
  induction schedule using List.reverseRecOn with
  | nil => exact ⟨hknown, hprograms⟩
  | append_singleton schedule j ih =>
      obtain ⟨hknown', hholds⟩ := ih
      rw [run_concat]
      generalize hsys : (start store programs).run oracle schedule = sys at *
      have htxn : ∀ i, (sys.workers i).session.txn = i := fun i => by
        rw [← hsys, txn_run]
      have hmeets : sys.Meets ⟨known, answers j, True⟩ oracle j := by
        refine ⟨by rw [htxn]; exact hknown' j, ?_⟩
        split
        · exact hanswers ..
        · exact fun _ => trivial
        · trivial
      constructor
      · intro i
        by_cases hij : i = j
        · -- the worker that stepped: only a commit moves its `since`
          subst hij
          have hi := hknown' i
          have hrefused := hstable.refused sys.store (sys.workers i).session
          rw [htxn] at hrefused
          generalize hstep : sys.step oracle i = sys'
          cases stepped hstep with
          | returned => exact hi
          | raised => exact hi
          | stmt => simpa using hi
          | call => simpa using hi
          | accepted next hcode hadmits =>
              have hown := hstable.own sys.store (sys.workers i).session
                (by rw [htxn]; exact hi) (ready_of_holds (hholds i) hcode)
                hadmits
              rw [htxn] at hown
              simpa using hown
          | refused next hcode hadmits =>
              simpa using hrefused hi (ready_of_holds (hholds i) hcode)
        · rw [workers_step_of_ne oracle sys hij]
          have hi := hknown' i
          generalize hstep : sys.step oracle j = sys'
          cases stepped hstep with
          | returned => exact hi
          | raised => exact hi
          | stmt => exact hi
          | call => exact hi
          | accepted next hcode hadmits =>
              exact hstable.other sys.store (sys.workers j).session i _
                (by rw [htxn]; exact hij) (by rw [htxn]; exact hknown' j)
                (ready_of_holds (hholds j) hcode) hadmits hi
          | refused => exact hi
      · intro i
        by_cases hij : i = j
        · subst hij
          exact holds_step (hholds i) hmeets
        · rw [workers_step_of_ne oracle sys hij]
          exact hholds i

/--
The rule for an invariant of the committed data alone: each program, as long as
it finds the invariant, commits only what keeps it.
-/
theorem store_run_of_wp {I : DB → Prop} {ready : Session W C R → Prop}
    {Q : Nat → Except E α → Session W C R → Prop} {oracle : Oracle C R}
    {sys : Sys DB W C R E α}
    (hcommit : ∀ db (s : Session W C R), I db → ready s →
      Database.admits db s.pending = true → I (applyAll s.pending db))
    (hstart : I sys.store)
    (hworkers : ∀ i, Holds (.finding I) ready (Q i) (sys.workers i))
    (schedule : List Nat) :
    I (sys.run oracle schedule).store ∧
      ∀ i, Holds (.finding I) ready (Q i) ((sys.run oracle schedule).workers i) := by
  induction schedule using List.reverseRecOn with
  | nil => exact ⟨hstart, hworkers⟩
  | append_singleton schedule j ih =>
      obtain ⟨hstore, hholds⟩ := ih
      rw [run_concat]
      generalize sys.run oracle schedule = sys at *
      have hmeets : sys.Meets (.finding I) oracle j := by
        refine ⟨hstore, ?_⟩
        split
        · trivial
        · exact fun _ => trivial
        · trivial
      refine ⟨?_, fun i => ?_⟩
      · generalize hstep : sys.step oracle j = sys'
        cases stepped hstep with
        | accepted next hcode hadmits =>
            exact hcommit _ _ hstore (ready_of_holds (hholds j) hcode) hadmits
        | _ => exact hstore
      · by_cases hij : i = j
        · subst hij
          exact holds_step (hholds i) hmeets
        · rw [workers_step_of_ne oracle sys hij]
          exact hholds i

end Sys

end RealEstateTracker.Foundation
