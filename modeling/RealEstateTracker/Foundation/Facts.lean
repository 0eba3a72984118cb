import RealEstateTracker.Foundation.RelyGuarantee

/-!
# Facts that stay

Writes add facts to the data and none takes a fact away, so what a session has seen
or is about to add remains true whatever others commit.  Some writes are safe only
where certain facts are known: references to what is there already.
-/

namespace RealEstateTracker.Foundation

structure Facts (DB W : Type) [Database DB W] where
  Fact : Type
  holds : DB → Fact → Prop
  adds : W → Fact → Prop
  holds_apply : ∀ write db fact,
    holds (Database.apply write db) fact ↔ holds db fact ∨ adds write fact

/--
`found` is what safe writes preserve by themselves, so that a session sees it even in
a view that holds writes of its own.
-/
structure GuardedFacts (DB W : Type) [Database DB W] extends Facts DB W where
  safe : (Fact → Prop) → W → Prop
  found : DB → Prop
  safe_mono : ∀ known known' write, (∀ fact, known fact → known' fact) →
    safe known write → safe known' write
  found_apply : ∀ write db, safe (holds db) write → found db →
    found (Database.apply write db)

namespace Facts

variable {DB W C : Type} {R : C → Type} {E α : Type} [Database DB W] (facts : Facts DB W)

theorem holds_applyAll {facts : Facts DB W} {writes : List W} {db : DB} (fact : facts.Fact) :
    facts.holds (applyAll writes db) fact ↔
      facts.holds db fact ∨ ∃ write ∈ writes, facts.adds write fact := by
  induction writes generalizing db with
  | nil => simp
  | cons write writes ih =>
      rw [applyAll_cons, ih, facts.holds_apply, List.exists_mem_cons_iff, or_assoc]

/-! ## What a session knows -/

def Known (s : Session W C R) (db : DB) (fact : facts.Fact) : Prop :=
  facts.holds db fact ∨ ∃ write ∈ s.pending, facts.adds write fact

def Grows (db db' : DB) : Prop := ∀ fact, facts.holds db fact → facts.holds db' fact

section Sessions

variable {facts} {s : Session W C R} {db db' : DB} {fact : facts.Fact}

theorem known_iff : facts.Known s db fact ↔ facts.holds (s.view db) fact :=
  (holds_applyAll fact).symm

theorem Known.grows (h : facts.Known s db fact) (hgrows : facts.Grows db db') :
    facts.Known s db' fact :=
  h.imp_left (hgrows fact)

theorem Known.wrote (h : facts.Known s db fact) (writes : List W) :
    facts.Known (s.wrote writes) db fact := by
  refine h.imp_right ?_
  rintro ⟨write, hwrite, hadds⟩
  exact ⟨write, by simp [hwrite], hadds⟩

theorem known_of_wrote {writes : List W} {write : W} (hwrite : write ∈ writes)
    (hadds : facts.adds write fact) : facts.Known (s.wrote writes) db fact :=
  .inr ⟨write, by simp [hwrite], hadds⟩

theorem grows_step (oracle : Oracle C R) (sys : Sys DB W C R E α) (i : Nat) :
    facts.Grows sys.store (sys.step oracle i).store := by
  intro fact hfact
  generalize hstep : sys.step oracle i = sys'
  cases Sys.stepped hstep with
  | accepted => exact (holds_applyAll fact).mpr (.inl hfact)
  | _ => exact hfact

end Sessions

end Facts

/-! ## Safe writes -/

namespace GuardedFacts

variable {DB W C : Type} {R : C → Type} {E α : Type} [Database DB W]
  (facts : GuardedFacts DB W)

/-- Each of the writes is safe when it comes, given what the earlier ones add. -/
def SafeAll (known : facts.Fact → Prop) : List W → Prop
  | [] => True
  | write :: writes => facts.safe known write ∧
      SafeAll (fun fact => known fact ∨ facts.adds write fact) writes

section Batches

variable {facts} {known known' : facts.Fact → Prop} {writes writes' : List W} {db : DB}

theorem SafeAll.mono (h : facts.SafeAll known writes)
    (hknown : ∀ fact, known fact → known' fact) : facts.SafeAll known' writes := by
  induction writes generalizing known known' with
  | nil => trivial
  | cons write writes ih =>
      exact ⟨facts.safe_mono _ _ _ hknown h.1,
        ih h.2 fun fact hfact => hfact.imp_left (hknown fact)⟩

theorem SafeAll.append (h : facts.SafeAll known writes)
    (h' : ∀ write ∈ writes', facts.safe (fun fact => known fact ∨
      ∃ write ∈ writes, facts.adds write fact) write) :
    facts.SafeAll known (writes ++ writes') := by
  induction writes generalizing known with
  | nil =>
      clear h
      have hsafe : ∀ write ∈ writes', facts.safe known write := fun write hwrite =>
        facts.safe_mono _ _ _ (fun fact hfact => by simpa using hfact) (h' write hwrite)
      clear h'
      induction writes' generalizing known with
      | nil => trivial
      | cons write writes' ih =>
          obtain ⟨hfirst, hrest⟩ := List.forall_mem_cons.mp hsafe
          exact ⟨hfirst, ih fun write hwrite =>
            facts.safe_mono _ _ _ (fun _ => .inl) (hrest write hwrite)⟩
  | cons write writes ih =>
      refine ⟨h.1, ih h.2 fun later hlater => facts.safe_mono _ _ _ ?_ (h' later hlater)⟩
      intro fact hfact
      rw [List.exists_mem_cons_iff] at hfact
      exact or_assoc.mpr hfact

/-- In the end all that a write of the batch needed is known. -/
theorem SafeAll.of_mem (h : facts.SafeAll known writes) {write : W}
    (hwrite : write ∈ writes) :
    facts.safe (fun fact => known fact ∨ ∃ write ∈ writes, facts.adds write fact)
      write := by
  induction writes generalizing known with
  | nil => cases hwrite
  | cons first writes ih =>
      rcases List.mem_cons.mp hwrite with rfl | hwrite
      · exact facts.safe_mono _ _ _ (fun _ => .inl) h.1
      · refine facts.safe_mono _ _ _ (fun fact hfact => ?_) (ih h.2 hwrite)
        rw [List.exists_mem_cons_iff]
        exact or_assoc.mp hfact

theorem found_applyAll (h : facts.SafeAll (facts.holds db) writes) (hdb : facts.found db) :
    facts.found (applyAll writes db) := by
  induction writes generalizing db with
  | nil => exact hdb
  | cons write writes ih =>
      exact ih (h.2.mono fun fact => (facts.holds_apply write db fact).mpr)
        (facts.found_apply write db h.1 hdb)

end Batches

/-- A session writes only what is safe with what it knows, and finds what others keep. -/
def contract (answers : (request : C) → R request → Prop) : Contract DB W C R where
  finds s db := facts.found (s.view db)
  grows := facts.Grows
  answers := answers
  promises s db writes := ∀ write ∈ writes, facts.safe (facts.Known s db) write
  refl _ _ h := h
  trans _ _ _ h h' fact hfact := h' fact (h fact hfact)

section Sessions

variable {facts} {answers : (request : C) → R request → Prop} {s : Session W C R}
  {db : DB}

/-- A program that has nothing to do with the facts forgets none of them. -/
theorem keeps_of_only {P : W → Prop} (hP : ∀ known write, P write → facts.safe known write)
    {p : Txn DB W C R E α} (hp : p.Only P) {K : facts.Fact → Prop}
    (h : ∀ fact, K fact → facts.Known s db fact) :
    p.Keeps (facts.contract answers)
      (fun _ s db => ∀ fact, K fact → facts.Known s db fact) s db :=
  Txn.keeps_of_only (I := fun s db => ∀ fact, K fact → facts.Known s db fact)
    (fun _ _ _ hwrites write hwrite => hP _ write (hwrites write hwrite))
    (fun _ _ _ hgrows h fact hfact => (h fact hfact).grows hgrows)
    (fun _ _ writes h fact hfact => (h fact hfact).wrote writes)
    (fun _ _ _ _ h fact hfact => h fact hfact) hp h

end Sessions

/-! ## Runs -/

/--
An invariant `I` of the committed data, which the sessions find, and which a batch of
safe writes keeps if its session is `ready` when it commits.
-/
structure Preserved (I : DB → Prop) (ready : Session W C R → Prop) : Prop where
  found : ∀ db, I db → facts.found db
  commit : ∀ db (s : Session W C R), I db → facts.SafeAll (facts.holds db) s.pending →
    ready s → Database.admits db s.pending = true → I (applyAll s.pending db)

variable {facts} {answers : (request : C) → R request → Prop} {I : DB → Prop}
  {ready : Session W C R → Prop} {oracle : Oracle C R}

theorem upholds (hpreserved : facts.Preserved I ready) :
    Sys.Upholds (facts.contract answers) I
      (fun db writes => facts.SafeAll (facts.holds db) writes) ready where
  nil _ := trivial
  finds _ _ hdb hpending := found_applyAll hpending (hpreserved.found _ hdb)
  promised _ _ _ hpending hwrites := hpending.append hwrites
  grown _ _ _ hgrows h := h.mono hgrows
  committed s db hdb hpending hready hadmits :=
    ⟨hpreserved.commit db s hdb hpending hready hadmits,
      fun fact hfact => (Facts.holds_applyAll fact).mpr (.inl hfact)⟩

/-- Safe writers keep the invariant, however they take their steps. -/
theorem store_run (hpreserved : facts.Preserved I ready) {store : DB}
    {programs : Nat → Txn DB W C R E α} (hstore : I store)
    (hkeeps : ∀ i, (programs i).Keeps (facts.contract answers) (fun _ _ _ => True)
      (.start i) store)
    (hready : ∀ i, (programs i).wp ⟨fun _ _ _ => True, answers, True⟩ ready
      (fun _ _ => True) (.start i))
    (hanswers : ∀ i op request, answers request (oracle i op request))
    (schedule : List Nat) : I ((Sys.start store programs).run oracle schedule).store :=
  (Sys.upheld_run (upholds hpreserved) (Sys.upheld_start (upholds hpreserved) id hstore
    hkeeps hready) hanswers schedule).1.store

end GuardedFacts

end RealEstateTracker.Foundation
