import RealEstateTracker.Foundation.Interleaving
import RealEstateTracker.Foundation.Sharing

/-!
# The run that one worker sees

What a worker does depends on the others only through the committed data that it finds at
each of its operations.  `Txn.runIn` runs a program alone in such surroundings, and in a
run of all workers each has done what it does alone in the surroundings that it met.
-/

namespace RealEstateTracker.Foundation

/-- The committed data at each operation of a session, and the answers to its calls. -/
structure Surroundings (DB C : Type) (R : C → Type) where
  found : Nat → DB
  answer : Nat → (request : C) → R request

variable {DB W C : Type} {R : C → Type} {E α β : Type} [Database DB W]

/-- Each operation finds data that is related to that of the operations before it. -/
def Surroundings.Monotone (env : Surroundings DB C R) (grows : DB → DB → Prop) : Prop :=
  ∀ n m, n ≤ m → grows (env.found n) (env.found m)

namespace Txn

/-- The outcome of a program, and the session in which it ends. -/
def runIn (env : Surroundings DB C R) :
    Txn DB W C R E α → Session W C R → Except E α × Session W C R
  | done value, s => (.ok value, s)
  | raise error, s => (.error error, s)
  | stmt writes next, s =>
      let view := s.view (env.found s.ops)
      (next s.stamp view).runIn env (s.wrote (writes s.stamp view))
  | call request next, s =>
      let answer := env.answer s.ops request
      (next answer).runIn env (s.answered request answer)
  | commit next, s =>
      if Database.admits (env.found s.ops) s.pending then (next true).runIn env s.committed
      else (next false).runIn env s.refused

/-- The calls of a program, each with the number of its operation. -/
def callsIn (env : Surroundings DB C R) :
    Txn DB W C R E α → Session W C R → List (Nat × ((request : C) × R request))
  | done _, _ => []
  | raise _, _ => []
  | stmt writes next, s =>
      let view := s.view (env.found s.ops)
      (next s.stamp view).callsIn env (s.wrote (writes s.stamp view))
  | call request next, s =>
      let answer := env.answer s.ops request
      (s.ops, ⟨request, answer⟩) :: (next answer).callsIn env (s.answered request answer)
  | commit next, s =>
      if Database.admits (env.found s.ops) s.pending then (next true).callsIn env s.committed
      else (next false).callsIn env s.refused

/-- The database accepts every commit of the program. -/
def Accepted (env : Surroundings DB C R) : Txn DB W C R E α → Session W C R → Prop
  | done _, _ => True
  | raise _, _ => True
  | stmt writes next, s =>
      let view := s.view (env.found s.ops)
      (next s.stamp view).Accepted env (s.wrote (writes s.stamp view))
  | call request next, s =>
      let answer := env.answer s.ops request
      (next answer).Accepted env (s.answered request answer)
  | commit next, s => Database.admits (env.found s.ops) s.pending = true ∧
      (next true).Accepted env s.committed

variable {env env' : Surroundings DB C R} {s s' : Session W C R}

/-! ## Sequencing -/

def runThen (env : Surroundings DB C R) (f : α → Txn DB W C R E β) :
    Except E α × Session W C R → Except E β × Session W C R
  | (.ok value, s) => (f value).runIn env s
  | (.error error, s) => (.error error, s)

def callsThen (env : Surroundings DB C R) (f : α → Txn DB W C R E β) :
    Except E α × Session W C R → List (Nat × ((request : C) × R request))
  | (.ok value, s) => (f value).callsIn env s
  | (.error _, _) => []

theorem runIn_bind (p : Txn DB W C R E α) (f : α → Txn DB W C R E β)
    (s : Session W C R) : (p.bind f).runIn env s = runThen env f (p.runIn env s) := by
  induction p generalizing s with
  | done value => rfl
  | raise error => rfl
  | stmt writes next ih => exact ih _ _ _
  | call request next ih => exact ih _ _
  | commit next ih =>
      simp only [bind, runIn]
      split
      · exact ih _ _
      · exact ih _ _

theorem callsIn_bind (p : Txn DB W C R E α) (f : α → Txn DB W C R E β)
    (s : Session W C R) : (p.bind f).callsIn env s =
      p.callsIn env s ++ callsThen env f (p.runIn env s) := by
  induction p generalizing s with
  | done value => rfl
  | raise error => rfl
  | stmt writes next ih => exact ih _ _ _
  | call request next ih => exact congrArg (List.cons _) (ih _ _)
  | commit next ih =>
      simp only [bind, runIn, callsIn]
      split
      · exact ih _ _
      · exact ih _ _

theorem runIn_bind_of_ok {p : Txn DB W C R E α} {value : α}
    (h : p.runIn env s = (.ok value, s')) (f : α → Txn DB W C R E β) :
    (p.bind f).runIn env s = (f value).runIn env s' := by
  rw [runIn_bind, h]
  rfl

theorem runIn_bind_eq_ok {p : Txn DB W C R E α} {f : α → Txn DB W C R E β} {value : β}
    (h : (p.bind f).runIn env s = (.ok value, s')) :
    ∃ first s₁, p.runIn env s = (.ok first, s₁) ∧
      (f first).runIn env s₁ = (.ok value, s') := by
  rw [runIn_bind] at h
  generalize p.runIn env s = ended at h ⊢
  obtain ⟨outcome, s₁⟩ := ended
  cases outcome with
  | ok first => exact ⟨first, s₁, rfl, h⟩
  | error error => cases h

theorem runIn_ofExcept_bind_eq_ok {outcome : Except E α} {f : α → Txn DB W C R E β}
    {value : β} (h : ((ofExcept outcome).bind f).runIn env s = (.ok value, s')) :
    ∃ first, outcome = .ok first ∧ (f first).runIn env s = (.ok value, s') := by
  cases outcome with
  | ok first => exact ⟨first, rfl, h⟩
  | error error => cases h

/-- A call of a program in two parts comes from the first part, or from the second. -/
theorem mem_callsIn_bind {p : Txn DB W C R E α} {f : α → Txn DB W C R E β}
    {call : Nat × ((request : C) × R request)} (h : call ∈ (p.bind f).callsIn env s) :
    call ∈ p.callsIn env s ∨ ∃ value s', p.runIn env s = (.ok value, s') ∧
      call ∈ (f value).callsIn env s' := by
  rw [callsIn_bind] at h
  refine (List.mem_append.mp h).imp_right fun h => ?_
  generalize p.runIn env s = ended at h ⊢
  obtain ⟨outcome, s'⟩ := ended
  cases outcome with
  | ok value => exact ⟨value, s', rfl, h⟩
  | error error => cases h

theorem runIn_attempt (p : Txn DB W C R E α) (s : Session W C R) :
    p.attempt.runIn env s = (.ok (p.runIn env s).1, (p.runIn env s).2) := by
  induction p generalizing s with
  | done value => rfl
  | raise error => rfl
  | stmt writes next ih => exact ih _ _ _
  | call request next ih => exact ih _ _
  | commit next ih =>
      simp only [attempt, runIn]
      split
      · exact ih _ _
      · exact ih _ _

theorem runIn_attempt_of_eq {p : Txn DB W C R E α} {outcome : Except E α}
    (h : p.runIn env s = (outcome, s')) : p.attempt.runIn env s = (.ok outcome, s') := by
  rw [runIn_attempt, h]

theorem callsIn_attempt (p : Txn DB W C R E α) (s : Session W C R) :
    p.attempt.callsIn env s = p.callsIn env s := by
  induction p generalizing s with
  | done value => rfl
  | raise error => rfl
  | stmt writes next ih => exact ih _ _ _
  | call request next ih => exact congrArg (List.cons _) (ih _ _)
  | commit next ih =>
      simp only [attempt, callsIn]
      split
      · exact ih _ _
      · exact ih _ _

@[simp] theorem runIn_ofExcept (outcome : Except E α) (s : Session W C R) :
    (ofExcept outcome : Txn DB W C R E α).runIn env s = (outcome, s) := by
  cases outcome <;> rfl

@[simp] theorem callsIn_ofExcept (outcome : Except E α) (s : Session W C R) :
    (ofExcept outcome : Txn DB W C R E α).callsIn env s = [] := by
  cases outcome <;> rfl

def Returns (env : Surroundings DB C R) (p : Txn DB W C R E α) (s : Session W C R) :
    Prop :=
  ∃ value, (p.runIn env s).1 = .ok value

@[simp] theorem returns_done (value : α) :
    Returns env (done value : Txn DB W C R E α) s := ⟨value, rfl⟩

theorem returns_iff {p : Txn DB W C R E α} :
    Returns env p s ↔ ∃ value s', p.runIn env s = (.ok value, s') := by
  constructor
  · rintro ⟨value, h⟩
    exact ⟨value, _, Prod.ext h rfl⟩
  · rintro ⟨value, s', h⟩
    exact ⟨value, congrArg Prod.fst h⟩

@[simp] theorem returns_ofExcept {outcome : Except E α} :
    Returns env (ofExcept outcome : Txn DB W C R E α) s ↔ ∃ value, outcome = .ok value := by
  rw [Returns, runIn_ofExcept]

theorem returns_bind {p : Txn DB W C R E α} {f : α → Txn DB W C R E β} :
    Returns env (p.bind f) s ↔
      ∃ value s', p.runIn env s = (.ok value, s') ∧ Returns env (f value) s' := by
  constructor
  · intro h
    obtain ⟨value, s', hvalue⟩ := returns_iff.mp h
    obtain ⟨first, s₁, hp, hf⟩ := runIn_bind_eq_ok hvalue
    exact ⟨first, s₁, hp, returns_iff.mpr ⟨value, s', hf⟩⟩
  · rintro ⟨value, s', hp, hf⟩
    rwa [Returns, runIn_bind_of_ok hp]

theorem returns_ofExcept_bind {outcome : Except E α} {f : α → Txn DB W C R E β} :
    Returns env ((ofExcept outcome : Txn DB W C R E α).bind f) s ↔
      ∃ value, outcome = .ok value ∧ Returns env (f value) s := by
  rw [returns_bind, runIn_ofExcept]
  constructor
  · rintro ⟨value, s', heq, hreturns⟩
    obtain ⟨rfl, rfl⟩ := Prod.mk.inj heq
    exact ⟨value, rfl, hreturns⟩
  · rintro ⟨value, rfl, hreturns⟩
    exact ⟨value, s, rfl, hreturns⟩

theorem returns_bind_iff_of_returns {p : Txn DB W C R E α} {f : α → Txn DB W C R E β}
    (hf : ∀ value s, Returns env (f value) s) :
    Returns env (p.bind f) s ↔ Returns env p s := by
  rw [returns_bind, returns_iff]
  exact exists_congr fun value => exists_congr fun s' => and_iff_left (hf value s')

theorem returns_forEach {items : List α} {body : α → Txn DB W C R E Unit}
    (h : ∀ item ∈ items, ∀ s, Returns env (body item) s) :
    Returns env (forEach items body) s := by
  induction items generalizing s with
  | nil => exact returns_done ()
  | cons item items ih =>
      obtain ⟨hitem, hitems⟩ := List.forall_mem_cons.mp h
      obtain ⟨value, s', hvalue⟩ := returns_iff.mp (hitem s)
      exact returns_bind.mpr ⟨value, s', hvalue, ih hitems⟩

/-! ## Calls that decide whether a program returns -/

/-- The program returns exactly if the answer to each of its calls is as it should be. -/
def Hinges (env : Surroundings DB C R) (good : (request : C) → R request → Prop)
    (p : Txn DB W C R E α) (s : Session W C R) : Prop :=
  Returns env p s ↔ ∀ call ∈ p.callsIn env s, good call.2.1 call.2.2

section Hinges

variable {good : (request : C) → R request → Prop}

theorem hinges_done (value : α) : Hinges env good (done value : Txn DB W C R E α) s :=
  iff_of_true (returns_done value) (List.forall_mem_nil _)

theorem hinges_exec (writes : Stamp → DB → List W) :
    Hinges env good (exec writes : Txn DB W C R E Unit) s :=
  iff_of_true ⟨(), rfl⟩ (List.forall_mem_nil _)

theorem hinges_query (read : DB → α) :
    Hinges env good (query read : Txn DB W C R E α) s :=
  iff_of_true ⟨_, rfl⟩ (List.forall_mem_nil _)

theorem hinges_bind {p : Txn DB W C R E α} {f : α → Txn DB W C R E β}
    (hp : Hinges env good p s)
    (hf : ∀ value s', p.runIn env s = (.ok value, s') → Hinges env good (f value) s') :
    Hinges env good (p.bind f) s := by
  rw [Hinges, callsIn_bind, List.forall_mem_append, ← show _ ↔ _ from hp, returns_bind]
  constructor
  · rintro ⟨value, s', hvalue, hreturns⟩
    rw [hvalue]
    exact ⟨returns_iff.mpr ⟨value, s', hvalue⟩, (hf value s' hvalue).mp hreturns⟩
  · rintro ⟨hreturns, hcalls⟩
    obtain ⟨value, s', hvalue⟩ := returns_iff.mp hreturns
    rw [hvalue] at hcalls
    exact ⟨value, s', hvalue, (hf value s' hvalue).mpr hcalls⟩

theorem hinges_foldEach {items : List α} {acc : β} {body : β → α → Txn DB W C R E β}
    (h : ∀ acc, ∀ item ∈ items, ∀ s, Hinges env good (body acc item) s) :
    Hinges env good (foldEach items acc body) s := by
  induction items generalizing acc s with
  | nil => exact hinges_done acc
  | cons item items ih =>
      refine hinges_bind (h acc item (.head _) s) fun value s' _ => ih fun acc item hitem => ?_
      exact h acc item (.tail _ hitem)

end Hinges

/-! ## Accepted commits -/

theorem accepted_bind_of_only {P : W → Prop} {p : Txn DB W C R E α} (h : p.Only P)
    (f : α → Txn DB W C R E β) (s : Session W C R) : Accepted env (p.bind f) s ↔
      ∀ value s', p.runIn env s = (.ok value, s') → Accepted env (f value) s' := by
  induction p generalizing s with
  | done value =>
      constructor
      · intro hf value' s' heq
        obtain ⟨hvalue, rfl⟩ := Prod.mk.inj heq
        exact Except.ok.inj hvalue ▸ hf
      · exact fun hf => hf value s rfl
  | raise error => exact ⟨fun _ value s' heq => (by cases heq), fun _ => trivial⟩
  | stmt writes next ih => exact ih _ _ (h.2 _ _) _
  | call request next ih => exact ih _ (h _) _
  | commit next ih => exact h.elim

/-- A commit that must not be refused. -/
theorem returns_commitOr {error : E} {value : α} : Returns env
    ((commitOr error : Txn DB W C R E Unit).bind fun _ => done value) s ↔
      Database.admits (env.found s.ops) s.pending = true := by
  simp only [Returns, commitOr, bind, runIn]
  cases Database.admits (env.found s.ops) s.pending <;> simp [runIn]

theorem accepted_commitOr {error : E} {value : α} : Accepted env
    ((commitOr error : Txn DB W C R E Unit).bind fun _ => done value) s ↔
      Database.admits (env.found s.ops) s.pending = true := by
  simp [commitOr, bind, Accepted]

/-! ## Loops -/

/-- The loop comes to `item` with the accumulator `acc'` in session `s'`. -/
def Round (env : Surroundings DB C R) (items : List α) (acc : β)
    (body : β → α → Txn DB W C R E β) (s : Session W C R) (item : α) (acc' : β)
    (s' : Session W C R) : Prop :=
  ∃ before after, items = before ++ item :: after ∧
    (foldEach before acc body).runIn env s = (.ok acc', s')

section Loops

variable {items : List α} {acc : β} {body : β → α → Txn DB W C R E β}

omit [Database DB W] in
theorem foldEach_append (first second : List α) (acc : β) :
    foldEach (first ++ second) acc body =
      (foldEach first acc body).bind fun acc => foldEach second acc body := by
  induction first generalizing acc with
  | nil => rfl
  | cons item first ih =>
      simp only [List.cons_append, foldEach, bind_assoc, ih]

theorem Round.cons {item first : α} {acc₁ acc' : β} {s₁ : Session W C R}
    (hfirst : (body acc first).runIn env s = (.ok acc₁, s₁))
    (h : Round env items acc₁ body s₁ item acc' s') :
    Round env (first :: items) acc body s item acc' s' := by
  obtain ⟨before, after, rfl, hbefore⟩ := h
  refine ⟨first :: before, after, rfl, ?_⟩
  rw [foldEach, runIn_bind_of_ok hfirst, hbefore]

theorem Round.mem {item : α} {acc' : β}
    (h : Round env items acc body s item acc' s') : item ∈ items := by
  obtain ⟨before, after, rfl, -⟩ := h
  exact List.mem_append_right _ (.head _)

/-- A loop that returns has come to each of its items. -/
theorem exists_round (h : Returns env (foldEach items acc body) s) {item : α}
    (hitem : item ∈ items) : ∃ acc' s', Round env items acc body s item acc' s' := by
  obtain ⟨before, after, rfl⟩ := List.append_of_mem hitem
  rw [foldEach_append] at h
  obtain ⟨acc', s', hbefore, -⟩ := returns_bind.mp h
  exact ⟨acc', s', before, after, rfl, hbefore⟩

/-- A loop returns if every round that it comes to does. -/
theorem returns_foldEach : Returns env (foldEach items acc body) s ↔
    ∀ item acc' s', Round env items acc body s item acc' s' →
      Returns env (body acc' item) s' := by
  constructor
  · rintro h item acc' s' ⟨before, after, rfl, hbefore⟩
    rw [foldEach_append, Returns, runIn_bind_of_ok hbefore, ← Returns] at h
    obtain ⟨value, s₁, hitem, -⟩ := returns_bind.mp h
    exact returns_iff.mpr ⟨value, s₁, hitem⟩
  · intro h
    induction items generalizing acc s with
    | nil => exact returns_done acc
    | cons first items ih =>
        obtain ⟨acc₁, s₁, hfirst⟩ := returns_iff.mp (h first acc s ⟨[], items, rfl, rfl⟩)
        exact returns_bind.mpr ⟨acc₁, s₁, hfirst,
          ih fun item acc' s' hround => h item acc' s' (hround.cons hfirst)⟩

/-- What every round keeps, the loop keeps. -/
theorem kept_of_foldEach {I : Session W C R → Prop}
    (hkeep : ∀ item ∈ items, ∀ acc s acc' s',
      (body acc item).runIn env s = (.ok acc', s') → I s → I s')
    {result : β} (h : (foldEach items acc body).runIn env s = (.ok result, s')) (hs : I s) :
    I s' := by
  induction items generalizing acc s with
  | nil =>
      obtain ⟨-, rfl⟩ := Prod.mk.inj h
      exact hs
  | cons first items ih =>
      obtain ⟨acc₁, s₁, hfirst, hrest⟩ := runIn_bind_eq_ok h
      exact ih (fun item hitem => hkeep item (.tail _ hitem)) hrest
        (hkeep first (.head _) _ _ _ _ hfirst hs)

/-- What the round of an item makes present, and no round takes away, is there in the end. -/
theorem present_of_foldEach (Present : α → Session W C R → Prop)
    (hhit : ∀ item ∈ items, ∀ acc s acc' s',
      (body acc item).runIn env s = (.ok acc', s') → Present item s')
    (hkeep : ∀ other, ∀ item ∈ items, ∀ acc s acc' s',
      (body acc item).runIn env s = (.ok acc', s') → Present other s → Present other s')
    {result : β} (h : (foldEach items acc body).runIn env s = (.ok result, s')) :
    ∀ item ∈ items, Present item s' := by
  induction items generalizing acc s with
  | nil => exact List.forall_mem_nil _
  | cons first items ih =>
      obtain ⟨acc₁, s₁, hfirst, hrest⟩ := runIn_bind_eq_ok h
      refine List.forall_mem_cons.mpr ⟨?_, ih (fun item hitem => hhit item (.tail _ hitem))
        (fun other item hitem => hkeep other item (.tail _ hitem)) hrest⟩
      exact kept_of_foldEach (fun item hitem => hkeep first item (.tail _ hitem)) hrest
        (hhit first (.head _) _ _ _ _ hfirst)

theorem mem_callsIn_foldEach {call : Nat × ((request : C) × R request)}
    (h : call ∈ (foldEach items acc body).callsIn env s) :
    ∃ item acc' s', Round env items acc body s item acc' s' ∧
      call ∈ (body acc' item).callsIn env s' := by
  induction items generalizing acc s with
  | nil => cases h
  | cons first items ih =>
      rcases mem_callsIn_bind h with hcall | ⟨acc₁, s₁, hfirst, hcall⟩
      · exact ⟨first, acc, s, ⟨[], items, rfl, rfl⟩, hcall⟩
      · obtain ⟨item, acc', s', hround, hcall⟩ := ih hcall
        exact ⟨item, acc', s', hround.cons hfirst, hcall⟩

end Loops

/-! ## What a session keeps -/

theorem history_runIn (p : Txn DB W C R E α) (s : Session W C R) :
    s.history <+: (p.runIn env s).2.history := by
  induction p generalizing s with
  | done value => exact List.prefix_rfl
  | raise error => exact List.prefix_rfl
  | stmt writes next ih => exact ih _ _ (s.wrote _)
  | call request next ih => exact ih _ (s.answered request _)
  | commit next ih =>
      simp only [runIn]
      split
      · exact (List.prefix_append _ _).trans (ih true s.committed)
      · exact ih false s.refused

section Only

variable {P : W → Prop} {p : Txn DB W C R E α}

theorem history_runIn_of_only (h : p.Only P) (s : Session W C R) :
    (p.runIn env s).2.history = s.history := by
  induction p generalizing s with
  | done value => rfl
  | raise error => rfl
  | stmt writes next ih => exact ih _ _ (h.2 _ _) (s.wrote _)
  | call request next ih => exact ih _ (h _) (s.answered request _)
  | commit next ih => exact h.elim

theorem pending_runIn_of_only (h : p.Only P) (s : Session W C R) :
    ∃ writes, (p.runIn env s).2.pending = s.pending ++ writes ∧ ∀ write ∈ writes, P write := by
  induction p generalizing s with
  | done value => exact ⟨[], (List.append_nil _).symm, List.forall_mem_nil _⟩
  | raise error => exact ⟨[], (List.append_nil _).symm, List.forall_mem_nil _⟩
  | stmt writes next ih =>
      obtain ⟨rest, hrest, hall⟩ := ih s.stamp (s.view (env.found s.ops)) (h.2 _ _)
        (s.wrote (writes s.stamp (s.view (env.found s.ops))))
      refine ⟨_, hrest.trans (List.append_assoc ..), List.forall_mem_append.mpr
        ⟨h.1 _ _, hall⟩⟩
  | call request next ih => exact ih _ (h _) (s.answered request _)
  | commit next ih => exact h.elim

end Only

end Txn

/-- The session committed the write, or it is going to. -/
def Session.Wrote (s : Session W C R) (write : W) : Prop :=
  write ∈ s.pending ∨ ∃ batch ∈ s.history, write ∈ batch

/-- Nothing is forgotten before a commit is refused. -/
theorem Session.Wrote.runIn {env : Surroundings DB C R} {s : Session W C R} {write : W}
    (h : s.Wrote write) {P : W → Prop} {p : Txn DB W C R E α} (hp : p.Only P) :
    (p.runIn env s).2.Wrote write := by
  rcases h with hpending | hhistory
  · obtain ⟨writes, hwrites, -⟩ : ∃ writes, (p.runIn env s).2.pending =
        s.pending ++ writes ∧ ∀ write ∈ writes, P write := Txn.pending_runIn_of_only hp s
    exact .inl (hwrites ▸ List.mem_append_left _ hpending)
  · have hsame : (p.runIn env s).2.history = s.history := Txn.history_runIn_of_only hp s
    exact .inr (hsame ▸ hhistory)

namespace Txn

variable {env env' : Surroundings DB C R} {s s' : Session W C R}

theorem wrote_runIn_of_within {P : W → Prop} {K : C → Prop} {p : Txn DB W C R E α}
    (h : p.Within (fun _ => P) K) {write : W} (hwrote : (p.runIn env s).2.Wrote write) :
    s.Wrote write ∨ P write := by
  induction p generalizing s with
  | done value => exact .inl hwrote
  | raise error => exact .inl hwrote
  | stmt writes next ih =>
      rcases ih _ _ (h.2 _ _) hwrote with (hpending | hhistory) | hwrite
      · rcases List.mem_append.mp hpending with hpending | hnew
        · exact .inl (.inl hpending)
        · exact .inr (h.1 _ _ write hnew)
      · exact .inl (.inr hhistory)
      · exact .inr hwrite
  | call request next ih =>
      exact ih (env.answer s.ops request) (h.2 _) (s := s.answered request _) hwrote
  | commit next ih =>
      simp only [runIn] at hwrote
      split at hwrote
      · rcases ih true (h true) hwrote with (hpending | ⟨batch, hbatch, hwrite⟩) | hwrite
        · cases hpending
        · rcases List.mem_append.mp hbatch with hbatch | hbatch
          · exact .inl (.inr ⟨batch, hbatch, hwrite⟩)
          · rw [List.mem_singleton.mp hbatch] at hwrite
            exact .inl (.inl hwrite)
        · exact .inr hwrite
      · rcases ih false (h false) hwrote with (hpending | hhistory) | hwrite
        · cases hpending
        · exact .inl (.inr hhistory)
        · exact .inr hwrite

theorem wrote_of_within {P : W → Prop} {K : C → Prop} {p : Txn DB W C R E α}
    (h : p.Within (fun _ => P) K) {outcome : Except E α} (hrun : p.runIn env s = (outcome, s'))
    {write : W} (hwrote : s'.Wrote write) : s.Wrote write ∨ P write :=
  wrote_runIn_of_within h (by rwa [hrun])

/-- What a program in two parts wrote, one of the parts wrote. -/
theorem wrote_runIn_bind {p : Txn DB W C R E α} {f : α → Txn DB W C R E β} {write : W}
    (hwrote : ((p.bind f).runIn env s).2.Wrote write) :
    (p.runIn env s).2.Wrote write ∨ ∃ value s', p.runIn env s = (.ok value, s') ∧
      ((f value).runIn env s').2.Wrote write := by
  rw [runIn_bind] at hwrote
  generalize p.runIn env s = ended at hwrote ⊢
  obtain ⟨outcome, s'⟩ := ended
  cases outcome with
  | ok value => exact .inr ⟨value, s', rfl, hwrote⟩
  | error error => exact .inl hwrote

theorem callsIn_of_within {P : DB → W → Prop} {K : C → Prop} {p : Txn DB W C R E α}
    (h : p.Within P K) : ∀ call ∈ p.callsIn env s, K call.2.1 := by
  induction p generalizing s with
  | done value => exact List.forall_mem_nil _
  | raise error => exact List.forall_mem_nil _
  | stmt writes next ih => exact ih _ _ (h.2 _ _)
  | call request next ih => exact List.forall_mem_cons.mpr ⟨h.1, ih _ (h.2 _)⟩
  | commit next ih =>
      simp only [callsIn]
      split
      · exact ih true (h true)
      · exact ih false (h false)

theorem forall_callsIn {good : (request : C) → R request → Prop}
    (h : ∀ n request, good request (env.answer n request)) {p : Txn DB W C R E α} :
    ∀ call ∈ p.callsIn env s, good call.2.1 call.2.2 := by
  induction p generalizing s with
  | done value => exact List.forall_mem_nil _
  | raise error => exact List.forall_mem_nil _
  | stmt writes next ih => exact ih _ _
  | call request next ih => exact List.forall_mem_cons.mpr ⟨h _ _, ih _⟩
  | commit next ih =>
      simp only [callsIn]
      split
      · exact ih true
      · exact ih false

/-- What a weakest precondition promises, in surroundings as the program relies on. -/
theorem runIn_of_wp {rely : Rely DB C R} {ready : Session W C R → Prop}
    (hstore : ∀ n txn since, rely.store (env.found n) txn since)
    (hanswers : ∀ n request, rely.answers request (env.answer n request))
    (hrefuses : rely.refuses) {p : Txn DB W C R E α}
    {Q : Except E α → Session W C R → Prop} (h : p.wp rely ready Q s) :
    Q (p.runIn env s).1 (p.runIn env s).2 := by
  induction p generalizing s with
  | done value => exact h
  | raise error => exact h
  | stmt writes next ih => exact ih _ _ (h _ (hstore ..))
  | call request next ih => exact ih _ (h _ (hanswers ..))
  | commit next ih =>
      simp only [runIn]
      split
      · exact ih true h.2.1
      · exact ih false (h.2.2 hrefuses)

theorem runIn_congr {p : Txn DB W C R E α} (hanswer : env.answer = env'.answer)
    (hfound : ∀ n, s.ops ≤ n → env.found n = env'.found n) :
    p.runIn env s = p.runIn env' s ∧ p.callsIn env s = p.callsIn env' s := by
  induction p generalizing s with
  | done value => exact ⟨rfl, rfl⟩
  | raise error => exact ⟨rfl, rfl⟩
  | stmt writes next ih =>
      simp only [runIn, callsIn, hfound s.ops le_rfl]
      exact ih _ _ fun n hn => hfound n (Nat.le_of_succ_le hn)
  | call request next ih =>
      simp only [runIn, callsIn, hanswer]
      obtain ⟨hrun, hcalls⟩ := ih (env'.answer s.ops request)
        (s := s.answered request (env'.answer s.ops request))
        fun n hn => hfound n (Nat.le_of_succ_le hn)
      exact ⟨hrun, congrArg (List.cons _) hcalls⟩
  | commit next ih =>
      simp only [runIn, callsIn, hfound s.ops le_rfl]
      split
      · exact ih true fun n hn => hfound n (Nat.le_of_succ_le hn)
      · exact ih false fun n hn => hfound n (Nat.le_of_succ_le hn)

end Txn

/-! ## What a worker meets in a run -/

namespace Sys

variable {oracle : Oracle C R} {sys : Sys DB W C R E α} {schedule : List Nat} {i : Nat}

/-- The committed data when worker `i` takes its step number `n`. -/
def foundBy (oracle : Oracle C R) (i n : Nat) : Sys DB W C R E α → List Nat → DB
  | sys, [] => sys.store
  | sys, j :: schedule =>
      if j = i ∧ (sys.workers i).session.ops = n then sys.store
      else foundBy oracle i n (sys.step oracle j) schedule

def surroundings (oracle : Oracle C R) (sys : Sys DB W C R E α) (schedule : List Nat)
    (i : Nat) : Surroundings DB C R where
  found n := foundBy oracle i n sys schedule
  answer := oracle i

theorem exists_foundBy (oracle : Oracle C R) (i n : Nat) (sys : Sys DB W C R E α)
    (schedule : List Nat) : ∃ before, before <+: schedule ∧
      foundBy oracle i n sys schedule = (sys.run oracle before).store := by
  induction schedule generalizing sys with
  | nil => exact ⟨[], List.prefix_rfl, rfl⟩
  | cons j schedule ih =>
      rw [foundBy]
      split
      · exact ⟨[], List.nil_prefix, rfl⟩
      · obtain ⟨before, hbefore, hfound⟩ := ih (sys.step oracle j)
        exact ⟨j :: before, (List.prefix_cons_inj j).mpr hbefore, hfound⟩

theorem foundBy_cons_of_lt {j n : Nat}
    (h : j = i → (sys.workers i).session.ops < n) :
    foundBy oracle i n sys (j :: schedule) =
      foundBy oracle i n (sys.step oracle j) schedule := by
  rw [foundBy, if_neg]
  rintro ⟨hij, hops⟩
  exact absurd hops (h hij).ne

/-- A step of the worker itself is the first operation of what it has still to do. -/
theorem runIn_step_self {env : Surroundings DB C R} (hanswer : env.answer = oracle i)
    (hfound : env.found (sys.workers i).session.ops = sys.store) :
    (sys.workers i).code.runIn env (sys.workers i).session =
      ((sys.step oracle i).workers i).code.runIn env
        ((sys.step oracle i).workers i).session ∧
    ∀ call, ((i, call) ∈ sys.log ∨
        ∃ op, (op, call) ∈ (sys.workers i).code.callsIn env (sys.workers i).session) ↔
      ((i, call) ∈ (sys.step oracle i).log ∨ ∃ op, (op, call) ∈
        ((sys.step oracle i).workers i).code.callsIn env
          ((sys.step oracle i).workers i).session) := by
  generalize hstep : sys.step oracle i = sys'
  cases stepped hstep with
  | returned value hcode => exact ⟨rfl, fun _ => Iff.rfl⟩
  | raised error hcode => exact ⟨rfl, fun _ => Iff.rfl⟩
  | stmt writes next hcode => simp [hcode, Txn.runIn, Txn.callsIn, hfound]
  | call request next hcode =>
      refine ⟨by simp [hcode, Txn.runIn, hanswer], fun call => ?_⟩
      simp only [hcode, Txn.callsIn, hanswer, workers_setWorker_self, List.mem_append,
        List.mem_cons, Prod.mk.injEq, List.not_mem_nil, or_false, true_and, or_assoc,
        exists_or, exists_eq_left]
  | accepted next hcode hadmits => simp [hcode, Txn.runIn, Txn.callsIn, hfound, hadmits]
  | refused next hcode hadmits => simp [hcode, Txn.runIn, Txn.callsIn, hfound, hadmits]

theorem ops_lt_or_finished (oracle : Oracle C R) (sys : Sys DB W C R E α) (i : Nat) :
    (sys.workers i).session.ops < ((sys.step oracle i).workers i).session.ops ∨
      ∃ outcome, (sys.step oracle i).Finished i outcome := by
  generalize hstep : sys.step oracle i = sys'
  cases stepped hstep with
  | returned value hcode => exact .inr ⟨.ok value, hcode⟩
  | raised error hcode => exact .inr ⟨.error error, hcode⟩
  | _ => exact .inl (by simp)

theorem ops_step_le (oracle : Oracle C R) (sys : Sys DB W C R E α) (i : Nat) :
    ((sys.step oracle i).workers i).session.ops ≤ (sys.workers i).session.ops + 1 := by
  generalize hstep : sys.step oracle i = sys'
  cases stepped hstep <;> simp

/-- What is left of a worker meets the same in the rest of the run. -/
theorem runIn_rest (oracle : Oracle C R) (sys : Sys DB W C R E α) (j : Nat)
    (schedule : List Nat) (i : Nat) :
    let worker := (sys.step oracle j).workers i
    let env := sys.surroundings oracle (j :: schedule) i
    let env' := (sys.step oracle j).surroundings oracle schedule i
    worker.code.runIn env worker.session = worker.code.runIn env' worker.session ∧
      worker.code.callsIn env worker.session = worker.code.callsIn env' worker.session := by
  intro worker env env'
  by_cases hij : j = i
  · subst hij
    rcases ops_lt_or_finished oracle sys j with hops | ⟨outcome, hfinished⟩
    · exact Txn.runIn_congr rfl fun n hn => foundBy_cons_of_lt fun _ => hops.trans_le hn
    · have hcode : worker.code = .ofExcept outcome := hfinished
      simp only [hcode, Txn.runIn_ofExcept, Txn.callsIn_ofExcept, and_self]
  · exact Txn.runIn_congr rfl fun n _ => foundBy_cons_of_lt fun h => absurd h hij

/-- What the worker has still to do, seen before and after a step of the run. -/
theorem runIn_step (oracle : Oracle C R) (sys : Sys DB W C R E α) (j : Nat)
    (schedule : List Nat) (i : Nat) :
    (sys.workers i).code.runIn (sys.surroundings oracle (j :: schedule) i)
        (sys.workers i).session =
      ((sys.step oracle j).workers i).code.runIn
        ((sys.step oracle j).surroundings oracle schedule i)
        ((sys.step oracle j).workers i).session ∧
    ∀ call, ((i, call) ∈ sys.log ∨ ∃ op, (op, call) ∈ (sys.workers i).code.callsIn
        (sys.surroundings oracle (j :: schedule) i) (sys.workers i).session) ↔
      ((i, call) ∈ (sys.step oracle j).log ∨
        ∃ op, (op, call) ∈ ((sys.step oracle j).workers i).code.callsIn
          ((sys.step oracle j).surroundings oracle schedule i)
          ((sys.step oracle j).workers i).session) := by
  obtain ⟨hrest, hcallsRest⟩ := runIn_rest oracle sys j schedule i
  rw [← hrest, ← hcallsRest]
  by_cases hij : j = i
  · subst hij
    exact runIn_step_self rfl (by simp [surroundings, foundBy])
  · rw [workers_step_of_ne oracle sys (Ne.symm hij)]
    refine ⟨rfl, fun call => or_congr_left ?_⟩
    generalize hstep : sys.step oracle j = sys'
    cases stepped hstep with
    | call request next hcode => simp [Ne.symm hij]
    | _ => exact Iff.rfl

/-- A worker does in the run of all what it does alone in its surroundings. -/
theorem runIn_run (oracle : Oracle C R) (sys : Sys DB W C R E α) (schedule : List Nat)
    (i : Nat) :
    let worker := (sys.run oracle schedule).workers i
    let rest := (sys.run oracle schedule).surroundings oracle [] i
    (sys.workers i).code.runIn (sys.surroundings oracle schedule i)
        (sys.workers i).session = worker.code.runIn rest worker.session ∧
    ∀ call, ((i, call) ∈ sys.log ∨ ∃ op, (op, call) ∈ (sys.workers i).code.callsIn
        (sys.surroundings oracle schedule i) (sys.workers i).session) ↔
      ((i, call) ∈ (sys.run oracle schedule).log ∨
        ∃ op, (op, call) ∈ worker.code.callsIn rest worker.session) := by
  induction schedule generalizing sys with
  | nil => exact ⟨rfl, fun _ => Iff.rfl⟩
  | cons j schedule ih =>
      obtain ⟨hstep, hcalls⟩ := runIn_step oracle sys j schedule i
      obtain ⟨hrun, hlog⟩ := ih (sys.step oracle j)
      exact ⟨hstep.trans hrun, fun call => (hcalls call).trans (hlog call)⟩

/-! ## Workers from their start -/

section Programs

variable {store : DB} {programs : Nat → Txn DB W C R E α}

/-- What worker `i` meets in the run from `store`. -/
abbrev meets (oracle : Oracle C R) (store : DB) (programs : Nat → Txn DB W C R E α)
    (schedule : List Nat) (i : Nat) : Surroundings DB C R :=
  (start store programs).surroundings oracle schedule i

theorem runIn_of_finished {outcome : Except E α}
    (h : ((start store programs).run oracle schedule).Finished i outcome) :
    (programs i).runIn (meets oracle store programs schedule i) (.start i) =
      (outcome, (((start store programs).run oracle schedule).workers i).session) := by
  refine (runIn_run oracle (start store programs) schedule i).1.trans ?_
  rw [show _ = Txn.ofExcept outcome from h, Txn.runIn_ofExcept]

theorem mem_log_iff_of_finished {outcome : Except E α}
    (h : ((start store programs).run oracle schedule).Finished i outcome)
    (call : (request : C) × R request) :
    (i, call) ∈ ((start store programs).run oracle schedule).log ↔
      ∃ op, (op, call) ∈ (programs i).callsIn (meets oracle store programs schedule i)
        (.start i) := by
  have hcalls := (runIn_run oracle (start store programs) schedule i).2 call
  rw [show _ = Txn.ofExcept outcome from h, Txn.callsIn_ofExcept] at hcalls
  simp only [List.not_mem_nil, exists_false, or_false] at hcalls
  exact hcalls.symm.trans (or_iff_right List.not_mem_nil)

theorem mem_callsIn_of_mem_log {call : (request : C) × R request}
    (h : (i, call) ∈ ((start store programs).run oracle schedule).log) :
    ∃ op, (op, call) ∈ (programs i).callsIn (meets oracle store programs schedule i)
      (.start i) := by
  have hcalls := (runIn_run oracle (start store programs) schedule i).2 call
  exact (hcalls.mpr (.inl h)).resolve_left List.not_mem_nil

/-- Whatever the worker has committed, it commits in its surroundings. -/
theorem history_of_run : (((start store programs).run oracle schedule).workers
      i).session.history <+:
    ((programs i).runIn (meets oracle store programs schedule i) (.start i)).2.history := by
  have hrun := (runIn_run oracle (start store programs) schedule i).1
  exact (congrArg (fun ended => ended.2.history) hrun) ▸ Txn.history_runIn _ _

/-- What holds of the committed data in every state of a run holds of what is met. -/
theorem found_of_run {I : DB → Prop}
    (h : ∀ before, before <+: schedule → I ((start store programs).run oracle before).store)
    (i n : Nat) : I ((meets oracle store programs schedule i).found n) := by
  obtain ⟨before, hbefore, hfound⟩ :=
    exists_foundBy oracle i n (start store programs) schedule
  change I (foundBy oracle i n (start store programs) schedule)
  rw [hfound]
  exact h before hbefore

end Programs

/-! ## Data that grows -/

section Growing

variable {grows : DB → DB → Prop} (hrefl : ∀ db, grows db db)
  (htrans : ∀ db db' db'', grows db db' → grows db' db'' → grows db db'')
  (hstep : ∀ (sys : Sys DB W C R E α) i, grows sys.store (sys.step oracle i).store)

include hrefl htrans hstep

theorem grows_run (sys : Sys DB W C R E α) (schedule : List Nat) :
    grows sys.store (sys.run oracle schedule).store := by
  induction schedule generalizing sys with
  | nil => exact hrefl _
  | cons j schedule ih => exact htrans _ _ _ (hstep sys j) (ih _)

theorem grows_foundBy (i n : Nat) (sys : Sys DB W C R E α) (schedule : List Nat) :
    grows sys.store (foundBy oracle i n sys schedule) ∧
      grows (foundBy oracle i n sys schedule) (sys.run oracle schedule).store := by
  induction schedule generalizing sys with
  | nil => exact ⟨hrefl _, hrefl _⟩
  | cons j schedule ih =>
      rw [foundBy]
      split
      · exact ⟨hrefl _, grows_run hrefl htrans hstep sys (j :: schedule)⟩
      · obtain ⟨hbefore, hafter⟩ := ih (sys.step oracle j)
        exact ⟨htrans _ _ _ (hstep sys j) hbefore, hafter⟩

/-- What an operation finds has grown since the operations before it. -/
theorem monotone_surroundings (sys : Sys DB W C R E α) (schedule : List Nat) {i n m : Nat}
    (hops : (sys.workers i).session.ops ≤ n) (hnm : n ≤ m) :
    grows ((sys.surroundings oracle schedule i).found n)
      ((sys.surroundings oracle schedule i).found m) := by
  induction schedule generalizing sys with
  | nil => exact hrefl _
  | cons j schedule ih =>
      by_cases hnow : j = i ∧ (sys.workers i).session.ops = n
      · show grows (foundBy oracle i n sys (j :: schedule)) _
        rw [foundBy, if_pos hnow]
        exact (grows_foundBy hrefl htrans hstep i m sys (j :: schedule)).1
      · have hlt : j = i → (sys.workers i).session.ops < n := fun hij =>
          lt_of_le_of_ne hops fun heq => hnow ⟨hij, heq⟩
        show grows (foundBy oracle i n sys (j :: schedule))
          (foundBy oracle i m sys (j :: schedule))
        rw [foundBy_cons_of_lt hlt, foundBy_cons_of_lt fun hij => (hlt hij).trans_le hnm]
        refine ih (sys.step oracle j) ?_
        by_cases hij : j = i
        · subst hij
          exact (ops_step_le oracle sys j).trans (hlt rfl)
        · rwa [workers_step_of_ne oracle sys (Ne.symm hij)]

end Growing

end Sys

/-! ## Facts of a run -/

/-- Some worker has committed the write. -/
def Sys.Committed (sys : Sys DB W C R E α) (write : W) : Prop :=
  ∃ i, ∃ batch ∈ (sys.workers i).session.history, write ∈ batch

/-- A step commits all that its worker has pending, or nothing. -/
theorem Sys.committed_step (oracle : Oracle C R) (sys : Sys DB W C R E α) (j : Nat) :
    ((sys.step oracle j).store = sys.store ∧
      ∀ write, (sys.step oracle j).Committed write ↔ sys.Committed write) ∨
    ((sys.step oracle j).store = applyAll (sys.workers j).session.pending sys.store ∧
      ∀ write, (sys.step oracle j).Committed write ↔
        sys.Committed write ∨ write ∈ (sys.workers j).session.pending) := by
  have hothers : ∀ i, i ≠ j → ((sys.step oracle j).workers i).session.history =
      (sys.workers i).session.history :=
    fun i hi => by rw [Sys.workers_step_of_ne oracle sys hi]
  have hsame : ((sys.step oracle j).workers j).session.history =
      (sys.workers j).session.history →
        ∀ write, (sys.step oracle j).Committed write ↔ sys.Committed write := by
    intro hown write
    refine exists_congr fun i => ?_
    by_cases hij : i = j
    · rw [hij, hown]
    · rw [hothers i hij]
  have hmore : ((sys.step oracle j).workers j).session.history =
      (sys.workers j).session.history ++ [(sys.workers j).session.pending] →
        ∀ write, (sys.step oracle j).Committed write ↔
          sys.Committed write ∨ write ∈ (sys.workers j).session.pending := by
    intro hown write
    constructor
    · rintro ⟨i, batch, hbatch, hwrite⟩
      by_cases hij : i = j
      · rw [hij, hown] at hbatch
        rcases List.mem_append.mp hbatch with hbatch | hbatch
        · exact .inl ⟨j, batch, hbatch, hwrite⟩
        · exact .inr (List.mem_singleton.mp hbatch ▸ hwrite)
      · rw [hothers i hij] at hbatch
        exact .inl ⟨i, batch, hbatch, hwrite⟩
    · rintro (⟨i, batch, hbatch, hwrite⟩ | hwrite)
      · exact ⟨i, batch, (history_step oracle sys j i).subset hbatch, hwrite⟩
      · exact ⟨j, (sys.workers j).session.pending, by simp [hown], hwrite⟩
  clear hothers
  generalize hstep : sys.step oracle j = sys' at hsame hmore ⊢
  cases stepped hstep with
  | accepted => exact .inr ⟨rfl, hmore (by simp)⟩
  | returned => exact .inl ⟨rfl, hsame rfl⟩
  | raised => exact .inl ⟨rfl, hsame rfl⟩
  | stmt => exact .inl ⟨rfl, hsame (by simp)⟩
  | call => exact .inl ⟨rfl, hsame (by simp)⟩
  | refused => exact .inl ⟨rfl, hsame (by simp)⟩

namespace Facts

variable {facts : Facts DB W} {fact : facts.Fact} {oracle : Oracle C R} {store : DB}
  {programs : Nat → Txn DB W C R E α} {schedule : List Nat}

/-- The facts of the data are those of the start and those of the committed writes. -/
theorem holds_run : facts.holds ((Sys.start store programs).run oracle schedule).store fact ↔
    facts.holds store fact ∨ ∃ write, ((Sys.start store programs).run oracle
      schedule).Committed write ∧ facts.adds write fact := by
  induction schedule using List.reverseRecOn with
  | nil => simp [Sys.start, Sys.Committed]
  | append_singleton schedule j ih =>
      rw [Sys.run_concat]
      generalize (Sys.start store programs).run oracle schedule = sys at *
      rcases Sys.committed_step oracle sys j with ⟨hstore, hsame⟩ | ⟨hstore, hmore⟩
      · simp only [hstore, hsame, ih]
      · simp only [hstore, hmore, holds_applyAll, ih, or_and_right, exists_or, or_assoc]

theorem monotone_meets (i : Nat) :
    (Sys.meets oracle store programs schedule i).Monotone facts.Grows :=
  fun _ _ hnm => Sys.monotone_surroundings (fun _ _ h => h)
    (fun _ _ _ h h' fact hfact => h' fact (h fact hfact))
    (fun sys i => grows_step oracle sys i) _ _ (Nat.zero_le _) hnm

theorem grows_of_met (i n : Nat) : facts.Grows
    ((Sys.meets oracle store programs schedule i).found n)
    ((Sys.start store programs).run oracle schedule).store :=
  (Sys.grows_foundBy (fun _ _ h => h) (fun _ _ _ h h' fact hfact => h' fact (h fact hfact))
    (fun sys i => grows_step oracle sys i) i n _ schedule).2

end Facts

/-! ## Programs of another kind -/

section Via

variable {C' : Type} {R' : C' → Type} {calls : CallMap C R C' R'}

def Surroundings.via (calls : CallMap C R C' R') (env : Surroundings DB C' R') :
    Surroundings DB C R where
  found := env.found
  answer n request := calls.answer request (env.answer n (calls.request request))

namespace Txn

variable {env : Surroundings DB C' R'} {s : Session W C R} {s' : Session W C' R'}

theorem callsIn_via (p : Txn DB W C R E α) (hlike : s.Like s') :
    ∀ call ∈ (p.via calls).callsIn env s', ∃ request answer,
      call.2 = ⟨calls.request request, answer⟩ ∧
        (call.1, ⟨request, calls.answer request answer⟩) ∈ p.callsIn (env.via calls) s := by
  induction p generalizing s s' with
  | done value => exact List.forall_mem_nil _
  | raise error => exact List.forall_mem_nil _
  | stmt writes next ih =>
      simp only [via, callsIn, ← hlike.stamp, ← hlike.view, ← hlike.ops]
      exact ih _ _ (hlike.wrote _)
  | call request next ih =>
      simp only [via, callsIn, ← hlike.ops]
      refine List.forall_mem_cons.mpr ⟨⟨request, _, rfl, .head _⟩, fun call hcall => ?_⟩
      obtain ⟨request', answer, heq, hmem⟩ := ih _ (hlike.answered ..) call hcall
      exact ⟨request', answer, heq, .tail _ hmem⟩
  | commit next ih =>
      have hfound : (env.via calls).found = env.found := rfl
      simp only [via, callsIn, ← hlike.ops, ← hlike.pending, hfound]
      split
      · exact ih true hlike.committed
      · exact ih false hlike.refused

end Txn

end Via

end RealEstateTracker.Foundation
