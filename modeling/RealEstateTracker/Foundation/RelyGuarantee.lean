import RealEstateTracker.Foundation.Footprint
import RealEstateTracker.Foundation.Interleaving

/-!
# Rely and guarantee

A contract says what a session finds when it looks at the committed data, how
that data grows while others commit, and what the session promises of each of
its statements.  `Keeps` is the weakest precondition of a program under a
contract; it remembers the data that was seen last.
-/

namespace RealEstateTracker.Foundation

structure Contract (DB W C : Type) (R : C → Type) where
  finds : Session W C R → DB → Prop
  grows : DB → DB → Prop
  answers : (request : C) → R request → Prop
  promises : Session W C R → DB → List W → Prop
  refl : ∀ db, grows db db
  trans : ∀ db db' db'', grows db db' → grows db' db'' → grows db db''

namespace Txn

variable {DB W C : Type} {R : C → Type} {E α β : Type} [Database DB W]
  {contract : Contract DB W C R}

def Keeps (contract : Contract DB W C R) :
    Txn DB W C R E α → (Except E α → Session W C R → DB → Prop) →
      Session W C R → DB → Prop
  | done value, Q, s, db => Q (.ok value) s db
  | raise error, Q, s, db => Q (.error error) s db
  | stmt writes next, Q, s, db =>
      ∀ db', contract.grows db db' → contract.finds s db' →
        contract.promises s db' (writes s.stamp (s.view db')) ∧
          Keeps contract (next s.stamp (s.view db')) Q
            (s.wrote (writes s.stamp (s.view db'))) db'
  | call request next, Q, s, db =>
      ∀ answer, contract.answers request answer →
        Keeps contract (next answer) Q (s.answered request answer) db
  | commit next, Q, s, db =>
      ∀ db', contract.grows db db' → contract.finds s db' →
        Keeps contract (next true) Q s.committed (applyAll s.pending db') ∧
          Keeps contract (next false) Q s.refused db'

def keptThen (contract : Contract DB W C R) (f : α → Txn DB W C R E β)
    (Q : Except E β → Session W C R → DB → Prop) :
    Except E α → Session W C R → DB → Prop
  | .ok value, s, db => Keeps contract (f value) Q s db
  | .error error, s, db => Q (.error error) s db

def keptOk (P : α → Session W C R → DB → Prop) :
    Except E α → Session W C R → DB → Prop
  | .ok value, s, db => P value s db
  | .error _, _, _ => True

section Rules

variable {Q Q' : Except E α → Session W C R → DB → Prop} {s : Session W C R} {db : DB}

theorem keeps_query (read : DB → α) :
    Keeps contract (query read : Txn DB W C R E α) Q s db ↔
      ∀ db', contract.grows db db' → contract.finds s db' →
        contract.promises s db' [] ∧ Q (.ok (read (s.view db'))) (s.wrote []) db' :=
  Iff.rfl

theorem keeps_mono (p : Txn DB W C R E α)
    (hQ : ∀ outcome s db, Q outcome s db → Q' outcome s db)
    (h : Keeps contract p Q s db) : Keeps contract p Q' s db := by
  induction p generalizing s db with
  | done value => exact hQ _ _ _ h
  | raise error => exact hQ _ _ _ h
  | stmt writes next ih =>
      intro db' hgrows hfinds
      obtain ⟨hpromises, hnext⟩ := h db' hgrows hfinds
      exact ⟨hpromises, ih _ _ hnext⟩
  | call request next ih => exact fun answer ha => ih _ (h answer ha)
  | commit next ih =>
      intro db' hgrows hfinds
      obtain ⟨haccepted, hrefused⟩ := h db' hgrows hfinds
      exact ⟨ih _ haccepted, ih _ hrefused⟩

theorem keeps_bind (p : Txn DB W C R E α) (f : α → Txn DB W C R E β)
    {Q : Except E β → Session W C R → DB → Prop} :
    Keeps contract (p.bind f) Q s db ↔
      Keeps contract p (keptThen contract f Q) s db := by
  induction p generalizing s db with
  | done value => rfl
  | raise error => rfl
  | stmt writes next ih =>
      exact forall_congr' fun _ => imp_congr_right fun _ => imp_congr_right fun _ =>
        and_congr_right fun _ => ih _ _
  | call request next ih =>
      exact forall_congr' fun answer => imp_congr_right fun _ => ih _
  | commit next ih =>
      exact forall_congr' fun _ => imp_congr_right fun _ => imp_congr_right fun _ =>
        and_congr (ih _) (ih _)

theorem keeps_attempt (p : Txn DB W C R E α)
    {Q : Except E (Except E α) → Session W C R → DB → Prop} :
    Keeps contract p.attempt Q s db ↔
      Keeps contract p (fun outcome => Q (.ok outcome)) s db := by
  induction p generalizing s db with
  | done value => rfl
  | raise error => rfl
  | stmt writes next ih =>
      exact forall_congr' fun _ => imp_congr_right fun _ => imp_congr_right fun _ =>
        and_congr_right fun _ => ih _ _
  | call request next ih =>
      exact forall_congr' fun answer => imp_congr_right fun _ => ih _
  | commit next ih =>
      exact forall_congr' fun _ => imp_congr_right fun _ => imp_congr_right fun _ =>
        and_congr (ih _) (ih _)

/-- The rule for sequences that may end with an exception. -/
theorem keeps_ok_bind {p : Txn DB W C R E α} {f : α → Txn DB W C R E β}
    {P : α → Session W C R → DB → Prop} {P' : β → Session W C R → DB → Prop}
    (hp : Keeps contract p (keptOk P) s db)
    (hf : ∀ value s db, P value s db → Keeps contract (f value) (keptOk P') s db) :
    Keeps contract (p.bind f) (keptOk P') s db := by
  refine (keeps_bind _ _).mpr (keeps_mono _ ?_ hp)
  rintro (error | value) s db h
  · trivial
  · exact hf value s db h

/-- The loop rule: `Inv done acc s db` is what holds after the items `done`. -/
theorem keeps_ok_foldEach {items : List α} {acc : β}
    {body : β → α → Txn DB W C R E β}
    (Inv : List α → β → Session W C R → DB → Prop)
    (hbody : ∀ before item after acc s db, items = before ++ item :: after →
      Inv before acc s db → Keeps contract (body acc item)
        (keptOk fun acc s db => Inv (before ++ [item]) acc s db) s db)
    (hstart : Inv [] acc s db) :
    Keeps contract (foldEach items acc body) (keptOk fun acc s db => Inv items acc s db)
      s db := by
  suffices general : ∀ (before after : List α) (acc : β) (s : Session W C R) (db : DB),
      items = before ++ after → Inv before acc s db →
        Keeps contract (foldEach after acc body)
          (keptOk fun acc s db => Inv items acc s db) s db from
    general [] items acc s db rfl hstart
  intro before after
  induction after generalizing before with
  | nil =>
      intro acc s db hitems hinv
      rw [List.append_nil] at hitems
      exact hitems ▸ hinv
  | cons item after ih =>
      intro acc s db hitems hinv
      refine keeps_ok_bind (hbody _ _ _ acc s db hitems hinv) fun acc s db h => ?_
      exact ih (before ++ [item]) acc s db (by simp [hitems]) h

theorem keeps_of_within {P : DB → W → Prop} {K : C → Prop}
    (hpromises : ∀ (s : Session W C R) db writes, contract.finds s db →
      (∀ write ∈ writes, P (s.view db) write) → contract.promises s db writes)
    {p : Txn DB W C R E α} (h : p.Within P K) :
    Keeps contract p (fun _ _ _ => True) s db := by
  induction p generalizing s db with
  | done value => trivial
  | raise error => trivial
  | stmt writes next ih =>
      exact fun db' _ hfinds => ⟨hpromises _ _ _ hfinds (h.1 _ _), ih _ _ (h.2 _ _)⟩
  | call request next ih => exact fun answer _ => ih _ (h.2 answer)
  | commit next ih => exact fun db' _ _ => ⟨ih _ (h true), ih _ (h false)⟩

theorem keeps_of_only {P : W → Prop} {I : Session W C R → DB → Prop}
    (hpromises : ∀ (s : Session W C R) db writes, (∀ write ∈ writes, P write) →
      contract.promises s db writes)
    (hgrows : ∀ s db db', contract.grows db db' → I s db → I s db')
    (hwrote : ∀ (s : Session W C R) db writes, I s db → I (s.wrote writes) db)
    (hanswered : ∀ (s : Session W C R) db request answer, I s db →
      I (s.answered request answer) db)
    {p : Txn DB W C R E α} (h : p.Only P) (hs : I s db) :
    Keeps contract p (fun _ s db => I s db) s db := by
  induction p generalizing s db with
  | done value => exact hs
  | raise error => exact hs
  | stmt writes next ih =>
      intro db' hgrown hfinds
      exact ⟨hpromises _ _ _ (h.1 _ _), ih _ _ (h.2 _ _)
        (hwrote _ _ _ (hgrows _ _ _ hgrown hs))⟩
  | call request next ih =>
      exact fun answer _ => ih _ (h answer) (hanswered _ _ _ _ hs)
  | commit next ih => exact h.elim

end Rules

end Txn

/-! ## Workers that keep a contract -/

namespace Sys

variable {DB W C : Type} {R : C → Type} {E α : Type} [Database DB W]
  {contract : Contract DB W C R} {Q : Except E α → Session W C R → DB → Prop}
  {oracle : Oracle C R} {sys : Sys DB W C R E α} {i j : Nat}

/-- What is left of a worker keeps the contract, whatever was committed since it looked. -/
def Keeping (contract : Contract DB W C R)
    (Q : Except E α → Session W C R → DB → Prop) (worker : Worker DB W C R E α)
    (store : DB) : Prop :=
  ∃ db, contract.grows db store ∧ worker.code.Keeps contract Q worker.session db

theorem Keeping.promises (h : Keeping contract Q (sys.workers i) sys.store)
    (hfinds : contract.finds (sys.workers i).session sys.store)
    {writes : Stamp → DB → List W} {next : Stamp → DB → Txn DB W C R E α}
    (hcode : (sys.workers i).code = .stmt writes next) :
    contract.promises (sys.workers i).session sys.store
      (writes (sys.workers i).session.stamp
        ((sys.workers i).session.view sys.store)) := by
  obtain ⟨db, hgrows, hkeeps⟩ := h
  rw [hcode] at hkeeps
  exact (hkeeps _ hgrows hfinds).1

theorem keeping_step (h : Keeping contract Q (sys.workers i) sys.store)
    (hfinds : contract.finds (sys.workers i).session sys.store)
    (hanswers : ∀ op request, contract.answers request (oracle i op request)) :
    Keeping contract Q ((sys.step oracle i).workers i) (sys.step oracle i).store := by
  obtain ⟨db, hgrows, hkeeps⟩ := h
  generalize hstep : sys.step oracle i = sys'
  cases stepped hstep with
  | returned value hcode => exact ⟨db, hgrows, hkeeps⟩
  | raised error hcode => exact ⟨db, hgrows, hkeeps⟩
  | stmt writes next hcode =>
      rw [hcode] at hkeeps
      exact ⟨sys.store, contract.refl _, by simpa using (hkeeps _ hgrows hfinds).2⟩
  | call request next hcode =>
      rw [hcode] at hkeeps
      exact ⟨db, hgrows, by simpa using hkeeps _ (hanswers _ _)⟩
  | accepted next hcode hadmits =>
      rw [hcode] at hkeeps
      exact ⟨_, contract.refl _, by simpa using (hkeeps _ hgrows hfinds).1⟩
  | refused next hcode hadmits =>
      rw [hcode] at hkeeps
      exact ⟨sys.store, contract.refl _, by simpa using (hkeeps _ hgrows hfinds).2⟩

theorem keeping_step_of_ne (h : Keeping contract Q (sys.workers j) sys.store)
    (hij : j ≠ i) (hgrows : contract.grows sys.store (sys.step oracle i).store) :
    Keeping contract Q ((sys.step oracle i).workers j) (sys.step oracle i).store := by
  obtain ⟨db, hgrows', hkeeps⟩ := h
  rw [workers_step_of_ne oracle sys hij]
  exact ⟨db, contract.trans _ _ _ hgrows' hgrows, hkeeps⟩

/-! ## Runs -/

/--
Why sessions that keep the contract uphold `I` of the committed data: what each has
pending satisfies `J`, so it finds what the contract says; its promises and the commits
of others leave `J` as it is; and it keeps `I` if it is `ready` when it commits.
-/
structure Upholds (contract : Contract DB W C R) (I : DB → Prop) (J : DB → List W → Prop)
    (ready : Session W C R → Prop) : Prop where
  nil : ∀ db, J db []
  finds : ∀ (s : Session W C R) db, I db → J db s.pending → contract.finds s db
  promised : ∀ (s : Session W C R) db writes, J db s.pending →
    contract.promises s db writes → J db (s.pending ++ writes)
  grown : ∀ db db' writes, contract.grows db db' → J db writes → J db' writes
  committed : ∀ (s : Session W C R) db, I db → J db s.pending → ready s →
    Database.admits db s.pending = true →
      I (applyAll s.pending db) ∧ contract.grows db (applyAll s.pending db)

/-- All that a run keeps of such workers; `Q` is how each of them ends. -/
structure Upheld (contract : Contract DB W C R) (I : DB → Prop) (J : DB → List W → Prop)
    (ready : Session W C R → Prop) (Q : Nat → Except E α → Session W C R → DB → Prop)
    (sys : Sys DB W C R E α) : Prop where
  store : I sys.store
  pending : ∀ i, J sys.store (sys.workers i).session.pending
  keeping : ∀ i, Keeping contract (Q i) (sys.workers i) sys.store
  ready : ∀ i, Holds ⟨fun _ _ _ => True, contract.answers, True⟩ ready (fun _ _ => True)
    (sys.workers i)

section Runs

variable {I : DB → Prop} {J : DB → List W → Prop} {ready : Session W C R → Prop}
  {Q : Nat → Except E α → Session W C R → DB → Prop}

theorem upheld_start (hupholds : Upholds contract I J ready) (names : Nat → Nat)
    {store : DB} {programs : Nat → Txn DB W C R E α} (hstore : I store)
    (hkeeps : ∀ i, (programs i).Keeps contract (Q i) (.start (names i)) store)
    (hready : ∀ i, (programs i).wp ⟨fun _ _ _ => True, contract.answers, True⟩ ready
      (fun _ _ => True) (.start (names i))) :
    Upheld contract I J ready Q (startAs names store programs) :=
  ⟨hstore, fun _ => hupholds.nil store, fun i => ⟨store, contract.refl store, hkeeps i⟩,
    hready⟩

theorem upheld_step (hupholds : Upholds contract I J ready)
    (h : Upheld contract I J ready Q sys) (i : Nat)
    (hanswers : ∀ op request, contract.answers request (oracle i op request)) :
    Upheld contract I J ready Q (sys.step oracle i) ∧
      contract.grows sys.store (sys.step oracle i).store := by
  have hfinds := hupholds.finds _ _ h.store (h.pending i)
  have hmeets : sys.Meets ⟨fun _ _ _ => True, contract.answers, True⟩ oracle i := by
    refine ⟨trivial, ?_⟩
    split
    · exact hanswers ..
    · exact fun _ => trivial
    · trivial
  have hstore : I (sys.step oracle i).store ∧
      contract.grows sys.store (sys.step oracle i).store := by
    generalize hstep : sys.step oracle i = sys'
    cases stepped hstep with
    | accepted next hcode hadmits =>
        exact hupholds.committed _ _ h.store (h.pending i)
          (ready_of_holds (h.ready i) hcode) hadmits
    | _ => exact ⟨h.store, contract.refl _⟩
  refine ⟨⟨hstore.1, fun j => ?_, fun j => ?_, fun j => ?_⟩, hstore.2⟩
  · refine hupholds.grown _ _ _ hstore.2 ?_
    by_cases hij : j = i
    · subst hij
      have hkeeping := h.keeping j
      have hpending := h.pending j
      generalize hstep : sys.step oracle j = sys'
      cases stepped hstep with
      | stmt writes next hcode =>
          simpa using hupholds.promised _ _ _ hpending (hkeeping.promises hfinds hcode)
      | accepted => simpa using hupholds.nil sys.store
      | refused => simpa using hupholds.nil sys.store
      | _ => simpa using hpending
    · rw [workers_step_of_ne oracle sys hij]
      exact h.pending j
  · by_cases hij : j = i
    · subst hij
      exact keeping_step (h.keeping j) hfinds hanswers
    · exact keeping_step_of_ne (h.keeping j) hij hstore.2
  · by_cases hij : j = i
    · subst hij
      exact holds_step (h.ready j) hmeets
    · rw [workers_step_of_ne oracle sys hij]
      exact h.ready j

/-- Workers that keep the contract uphold it however they take their steps. -/
theorem upheld_run (hupholds : Upholds contract I J ready)
    (h : Upheld contract I J ready Q sys)
    (hanswers : ∀ i op request, contract.answers request (oracle i op request))
    (schedule : List Nat) : Upheld contract I J ready Q (sys.run oracle schedule) ∧
      contract.grows sys.store (sys.run oracle schedule).store := by
  induction schedule using List.reverseRecOn with
  | nil => exact ⟨h, contract.refl _⟩
  | append_singleton schedule i ih =>
      rw [run_concat]
      obtain ⟨hkept, hgrows⟩ := upheld_step hupholds ih.1 i (hanswers i)
      exact ⟨hkept, contract.trans _ _ _ ih.2 hgrows⟩

end Runs

/-! ## Promises about each write -/

/-- Every write satisfies `P` as long as `I` holds of all that the session sees. -/
def promising (answers : (request : C) → R request → Prop) (I : DB → Prop)
    (P : W → Prop) : Contract DB W C R where
  finds s db := I (s.view db)
  grows _ _ := True
  answers := answers
  promises _ _ writes := ∀ write ∈ writes, P write
  refl _ := trivial
  trans _ _ _ _ _ := trivial

section Promising

variable {answers : (request : C) → R request → Prop} {P : W → Prop} {I : DB → Prop}

theorem applyAll_of_promised (happly : ∀ write db, P write → I db →
    I (Database.apply write db)) {writes : List W} {db : DB}
    (hwrites : ∀ write ∈ writes, P write) (h : I db) : I (applyAll writes db) := by
  induction writes generalizing db with
  | nil => exact h
  | cons write writes ih =>
      obtain ⟨hwrite, hwrites⟩ := List.forall_mem_cons.mp hwrites
      exact ih hwrites (happly write db hwrite h)

theorem upholds_promising (happly : ∀ write db, P write → I db →
    I (Database.apply write db)) : Upholds (promising (R := R) answers I P) I
      (fun _ writes => ∀ write ∈ writes, P write) fun _ => True where
  nil _ _ hwrite := absurd hwrite List.not_mem_nil
  finds _ _ hdb hpending := applyAll_of_promised happly hpending hdb
  promised _ _ _ hpending hwrites := List.forall_mem_append.mpr ⟨hpending, hwrites⟩
  grown _ _ _ _ h := h
  committed _ _ hdb hpending _ _ := ⟨applyAll_of_promised happly hpending hdb, trivial⟩

/-- What such writes preserve holds of the committed data and of what each session sees. -/
theorem view_run_of_promising
    (happly : ∀ write db, P write → I db → I (Database.apply write db))
    (hanswers : ∀ i op request, answers request (oracle i op request)) {store : DB}
    {programs : Nat → Txn DB W C R E α}
    (hprograms : ∀ i, (programs i).Keeps (promising answers I P) (fun _ _ _ => True)
      (.start i) store)
    (hstart : I store) (schedule : List Nat) :
    I ((start store programs).run oracle schedule).store ∧
      ∀ j, I ((((start store programs).run oracle schedule).workers j).session.view
        ((start store programs).run oracle schedule).store) := by
  have hupheld := (upheld_run (upholds_promising happly) (upheld_start
    (upholds_promising happly) id hstart hprograms fun _ => Txn.wp_true _) hanswers schedule).1
  exact ⟨hupheld.store, fun j =>
    applyAll_of_promised happly (hupheld.pending j) hupheld.store⟩

end Promising

end Sys

end RealEstateTracker.Foundation
