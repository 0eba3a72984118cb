import RealEstateTracker.Foundation.Facts

/-!
# Programs of several kinds on one database

Programs that ask for different things share the committed data.  `via` runs a program
among others whose calls it does not know.  What it keeps by itself it keeps there too,
because no statement sees the calls of its session.
-/

namespace RealEstateTracker.Foundation

/-- How the calls of one kind are written as calls of another, and their answers read. -/
structure CallMap (C : Type) (R : C → Type) (C' : Type) (R' : C' → Type) where
  request : C → C'
  answer : ∀ c, R' (request c) → R c

variable {DB W C C' : Type} {R : C → Type} {R' : C' → Type} {E α β : Type}

/-- Sessions that no statement can tell apart. -/
structure Session.Like (s : Session W C R) (s' : Session W C' R') : Prop where
  txn : s.txn = s'.txn
  ops : s.ops = s'.ops
  since : s.since = s'.since
  pending : s.pending = s'.pending

section Sessions

variable {s : Session W C R} {s' : Session W C' R'}

theorem Session.like_start (txn : Nat) :
    (Session.start txn : Session W C R).Like (Session.start txn : Session W C' R') :=
  ⟨rfl, rfl, rfl, rfl⟩

theorem Session.Like.stamp (h : s.Like s') : s.stamp = s'.stamp := by
  rw [Session.stamp, Session.stamp, h.txn, h.ops]

theorem Session.Like.view [Database DB W] (h : s.Like s') (db : DB) :
    s.view db = s'.view db := by
  rw [Session.view, Session.view, h.pending]

theorem Session.Like.wrote (h : s.Like s') (writes : List W) :
    (s.wrote writes).Like (s'.wrote writes) := by
  obtain ⟨htxn, hops, hsince, hpending⟩ := h
  constructor <;> simp [*]

theorem Session.Like.answered (h : s.Like s') (request : C) (answer : R request)
    (request' : C') (answer' : R' request') :
    (s.answered request answer).Like (s'.answered request' answer') := by
  obtain ⟨htxn, hops, hsince, hpending⟩ := h
  constructor <;> simp [*]

theorem Session.Like.committed (h : s.Like s') : s.committed.Like s'.committed := by
  obtain ⟨htxn, hops, hsince, hpending⟩ := h
  constructor <;> simp [*]

theorem Session.Like.refused (h : s.Like s') : s.refused.Like s'.refused := by
  obtain ⟨htxn, hops, hsince, hpending⟩ := h
  constructor <;> simp [*]

end Sessions

namespace Txn

variable (calls : CallMap C R C' R')

def via : Txn DB W C R E α → Txn DB W C' R' E α
  | done value => done value
  | raise error => raise error
  | stmt writes next => stmt writes fun stamp db => (next stamp db).via
  | call request next =>
      call (calls.request request) fun answer => (next (calls.answer request answer)).via
  | commit next => commit fun accepted => (next accepted).via

variable {calls}

theorem within_via {P : DB → W → Prop} {K : C → Prop} {K' : C' → Prop}
    (hK : ∀ request, K request → K' (calls.request request)) {p : Txn DB W C R E α}
    (h : p.Within P K) : (p.via calls).Within P K' := by
  induction p with
  | done value => trivial
  | raise error => trivial
  | stmt writes next ih => exact ⟨h.1, fun stamp db => ih _ _ (h.2 stamp db)⟩
  | call request next ih => exact ⟨hK request h.1, fun answer => ih _ (h.2 _)⟩
  | commit next ih => exact fun accepted => ih accepted (h accepted)

section Rules

variable [Database DB W] {s : Session W C R} {s' : Session W C' R'} {db : DB}

/-- A contract that is at least as strong among the programs of the other kind. -/
structure Carries (calls : CallMap C R C' R') (contract : Contract DB W C R)
    (contract' : Contract DB W C' R') : Prop where
  grows : ∀ db db', contract'.grows db db' → contract.grows db db'
  finds : ∀ s s' db, Session.Like s s' → contract'.finds s' db → contract.finds s db
  answers : ∀ request answer, contract'.answers (calls.request request) answer →
    contract.answers request (calls.answer request answer)
  promises : ∀ s s' db writes, Session.Like s s' → contract.promises s db writes →
    contract'.promises s' db writes

theorem keeps_via {contract : Contract DB W C R} {contract' : Contract DB W C' R'}
    (hcarries : Carries calls contract contract') {p : Txn DB W C R E α}
    {Q : Except E α → Session W C R → DB → Prop} (hlike : s.Like s')
    (h : p.Keeps contract Q s db) :
    (p.via calls).Keeps contract' (fun outcome s' db => ∃ s, Session.Like s s' ∧
      Q outcome s db) s' db := by
  induction p generalizing s s' db with
  | done value => exact ⟨s, hlike, h⟩
  | raise error => exact ⟨s, hlike, h⟩
  | stmt writes next ih =>
      intro db' hgrows hfinds
      obtain ⟨hpromises, hnext⟩ := h db' (hcarries.grows _ _ hgrows)
        (hcarries.finds _ _ _ hlike hfinds)
      rw [← hlike.stamp, ← hlike.view]
      exact ⟨hcarries.promises _ _ _ _ hlike hpromises, ih _ _ (hlike.wrote _) hnext⟩
  | call request next ih =>
      exact fun answer hanswer => ih _ (hlike.answered ..)
        (h _ (hcarries.answers _ _ hanswer))
  | commit next ih =>
      intro db' hgrows hfinds
      obtain ⟨haccepted, hrefused⟩ := h db' (hcarries.grows _ _ hgrows)
        (hcarries.finds _ _ _ hlike hfinds)
      rw [← hlike.pending]
      exact ⟨ih true hlike.committed haccepted, ih false hlike.refused hrefused⟩

theorem wp_via {rely : Rely DB C R} {rely' : Rely DB C' R'}
    {ready : Session W C R → Prop} {ready' : Session W C' R' → Prop}
    (hstore : ∀ db txn since, rely'.store db txn since → rely.store db txn since)
    (hanswers : ∀ request answer, rely'.answers (calls.request request) answer →
      rely.answers request (calls.answer request answer))
    (hrefuses : rely'.refuses → rely.refuses)
    (hready : ∀ s s', Session.Like s s' → ready s → ready' s') {p : Txn DB W C R E α}
    {Q : Except E α → Session W C R → Prop} (hlike : s.Like s')
    (h : p.wp rely ready Q s) :
    (p.via calls).wp rely' ready' (fun outcome s' => ∃ s, Session.Like s s' ∧
      Q outcome s) s' := by
  induction p generalizing s s' with
  | done value => exact ⟨s, hlike, h⟩
  | raise error => exact ⟨s, hlike, h⟩
  | stmt writes next ih =>
      intro db hdb
      rw [← hlike.stamp, ← hlike.view]
      refine ih _ _ (hlike.wrote _) (h db ?_)
      rw [hlike.txn, hlike.since]
      exact hstore _ _ _ hdb
  | call request next ih =>
      exact fun answer hanswer => ih _ (hlike.answered ..) (h _ (hanswers _ _ hanswer))
  | commit next ih =>
      obtain ⟨hcommits, haccepted, hrefused⟩ := h
      exact ⟨hready _ _ hlike hcommits, ih true hlike.committed haccepted,
        fun hr => ih false hlike.refused (hrefused (hrefuses hr))⟩

end Rules

end Txn

end RealEstateTracker.Foundation
