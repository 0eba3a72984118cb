import RealEstateTracker.Foundation.RelyGuarantee

/-!
# Marks that stay

Some writes set a mark in the data and no write takes it away.  A session knows that
the mark is set once the committed data has it or a pending write of its own sets it,
and it goes on knowing it whatever other sessions commit.
-/

namespace RealEstateTracker.Foundation

structure Marking (DB W : Type) [Database DB W] where
  safe : W → Prop
  sets : W → Prop
  placed : DB → Prop
  marked : DB → Prop
  placed_apply : ∀ write db, safe write → placed db → placed (Database.apply write db)
  marked_apply : ∀ write db, safe write → placed db →
    (marked (Database.apply write db) ↔ sets write ∨ marked db)

namespace Marking

variable {DB W C : Type} {R : C → Type} {E α : Type} [Database DB W]
  (marking : Marking DB W)

theorem placed_applyAll {writes : List W} {db : DB}
    (hsafe : ∀ write ∈ writes, marking.safe write) (h : marking.placed db) :
    marking.placed (applyAll writes db) := by
  induction writes generalizing db with
  | nil => exact h
  | cons write writes ih =>
      obtain ⟨hwrite, hwrites⟩ := List.forall_mem_cons.mp hsafe
      exact ih hwrites (marking.placed_apply write db hwrite h)

theorem marked_applyAll {writes : List W} {db : DB}
    (hsafe : ∀ write ∈ writes, marking.safe write) (h : marking.placed db) :
    marking.marked (applyAll writes db) ↔
      (∃ write ∈ writes, marking.sets write) ∨ marking.marked db := by
  induction writes generalizing db with
  | nil => simp [applyAll]
  | cons write writes ih =>
      obtain ⟨hwrite, hwrites⟩ := List.forall_mem_cons.mp hsafe
      rw [applyAll_cons, ih hwrites (marking.placed_apply write db hwrite h),
        marking.marked_apply write db hwrite h, List.exists_mem_cons_iff]
      exact or_left_comm.trans or_assoc.symm

/-- Only safe writes; the mark is found again once it has been seen. -/
def contract (answers : (request : C) → R request → Prop) : Contract DB W C R where
  finds s db := marking.placed db ∧ ∀ write ∈ s.pending, marking.safe write
  grows db db' := marking.marked db → marking.marked db'
  answers := answers
  promises _ _ writes := ∀ write ∈ writes, marking.safe write
  refl _ h := h
  trans _ _ _ hfirst hsecond h := hsecond (hfirst h)

/-! ## What a session knows -/

def Noted (s : Session W C R) (db : DB) : Prop :=
  (∃ write ∈ s.pending, marking.sets write) ∨ marking.marked db

variable {marking} {answers : (request : C) → R request → Prop} {s : Session W C R}
  {db db' : DB}

theorem marked_view_iff (h : (marking.contract answers).finds s db) :
    marking.marked (s.view db) ↔ marking.Noted s db :=
  marking.marked_applyAll h.2 h.1

theorem Noted.grows (h : marking.Noted s db)
    (hgrows : (marking.contract answers).grows db db') : marking.Noted s db' :=
  h.imp_right hgrows

theorem Noted.wrote (h : marking.Noted s db) (writes : List W) :
    marking.Noted (s.wrote writes) db := by
  refine h.imp_left ?_
  rintro ⟨write, hwrite, hsets⟩
  exact ⟨write, by simp [hwrite], hsets⟩

theorem Noted.answered (h : marking.Noted s db) (request : C) (answer : R request) :
    marking.Noted (s.answered request answer) db := h

/-- What a program does to other data changes nothing that its session knows. -/
theorem keeps_of_only {P : W → Prop} (hP : ∀ write, P write → marking.safe write)
    {p : Txn DB W C R E α} (hp : p.Only P) {known : Prop}
    (h : known → marking.Noted s db) :
    p.Keeps (marking.contract answers) (fun _ s db => known → marking.Noted s db) s db :=
  Txn.keeps_of_only (I := fun s db => known → marking.Noted s db)
    (fun _ _ _ hwrites write hwrite => hP write (hwrites write hwrite))
    (fun _ _ _ hgrows h hknown => (h hknown).grows hgrows)
    (fun _ _ writes h hknown => (h hknown).wrote writes)
    (fun _ _ request answer h hknown => (h hknown).answered request answer) hp h

theorem keeps_ok_of_only {P : W → Prop} (hP : ∀ write, P write → marking.safe write)
    {p : Txn DB W C R E α} (hp : p.Only P) {known : Prop}
    (h : known → marking.Noted s db) :
    p.Keeps (marking.contract answers)
      (Txn.keptOk fun _ s db => known → marking.Noted s db) s db := by
  refine Txn.keeps_mono p ?_ (keeps_of_only hP hp h)
  rintro (error | value) s db h
  · trivial
  · exact h

/-! ## Runs -/

variable {oracle : Oracle C R} {sys : Sys DB W C R E α}
  {Q : Nat → Except E α → Session W C R → DB → Prop}

/-- The contract upholds where the mark goes; only safe writes are pending. -/
theorem upholds : Sys.Upholds (C := C) (R := R) (marking.contract answers) marking.placed
    (fun _ writes => ∀ write ∈ writes, marking.safe write) fun _ => True where
  nil _ _ hwrite := absurd hwrite List.not_mem_nil
  finds _ _ hplaced hpending := ⟨hplaced, hpending⟩
  promised _ _ _ hpending hwrites := List.forall_mem_append.mpr ⟨hpending, hwrites⟩
  grown _ _ _ _ h := h
  committed _ _ hplaced hpending _ _ := ⟨marking.placed_applyAll hpending hplaced,
    fun hmarked => (marking.marked_applyAll hpending hplaced).mpr (.inr hmarked)⟩

abbrev KeptBy (marking : Marking DB W) (answers : (request : C) → R request → Prop)
    (Q : Nat → Except E α → Session W C R → DB → Prop) (sys : Sys DB W C R E α) : Prop :=
  Sys.Upheld (marking.contract answers) marking.placed
    (fun _ writes => ∀ write ∈ writes, marking.safe write) (fun _ => True) Q sys

/-- However the workers take their steps, a mark stays and each keeps what it promises. -/
theorem keptBy_run {names : Nat → Nat} {store : DB}
    {programs : Nat → Txn DB W C R E α} (hplaced : marking.placed store)
    (hprograms : ∀ i, (programs i).Keeps (marking.contract answers) (Q i)
      (.start (names i)) store)
    (hanswers : ∀ i op request, answers request (oracle i op request))
    (schedule : List Nat) :
    KeptBy marking answers Q ((Sys.startAs names store programs).run oracle schedule) ∧
      (marking.marked store →
        marking.marked ((Sys.startAs names store programs).run oracle schedule).store) :=
  Sys.upheld_run upholds (Sys.upheld_start upholds names hplaced hprograms
    fun _ => Txn.wp_true _) hanswers schedule

/-- A worker that leaves the mark behind when it ends like this has left it for good. -/
theorem marked_of_finished (h : KeptBy marking answers Q sys) {i : Nat}
    {outcome : Except E α} (hfinished : sys.Finished i outcome)
    (hmarks : ∀ s db, Q i outcome s db → marking.marked db) :
    marking.marked sys.store := by
  obtain ⟨db, hgrows, hkeeps⟩ := h.keeping i
  refine hgrows (hmarks (sys.workers i).session db ?_)
  rw [hfinished] at hkeeps
  cases outcome with
  | ok value => exact hkeeps
  | error error => exact hkeeps

end Marking

end RealEstateTracker.Foundation
