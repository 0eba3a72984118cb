import Mathlib.Data.List.Basic
import Mathlib.Tactic

/-!
# Transaction programs

Code that talks to a database through one session is a tree of atomic
statements, calls of outside collaborators and commits.  The database type
`DB`, the buffered writes `W`, the calls `C` with their answers `R` and the
exceptions `E` are parameters, so this file knows nothing of the program that
is being verified.

A statement sees the committed data with the session's own pending writes
applied on top, and its own writes stay pending until the next commit.
-/

namespace RealEstateTracker.Foundation

/-- The position of a statement: which session ran it, and as its how-manieth operation. -/
structure Stamp where
  txn : Nat
  op : Nat
  deriving DecidableEq, Repr

/-- What a session may write, and which batches of writes the database accepts. -/
class Database (DB W : Type) where
  apply : W → DB → DB
  admits : DB → List W → Bool

inductive Txn (DB W C : Type) (R : C → Type) (E α : Type) where
  | done (value : α)
  | raise (error : E)
  | stmt (writes : Stamp → DB → List W)
      (next : Stamp → DB → Txn DB W C R E α)
  | call (request : C) (next : R request → Txn DB W C R E α)
  | commit (next : Bool → Txn DB W C R E α)

section Writes

variable {DB W : Type} [Database DB W]

def applyAll (writes : List W) (db : DB) : DB :=
  writes.foldl (fun current write => Database.apply write current) db

@[simp] theorem applyAll_nil (db : DB) :
    applyAll ([] : List W) db = db := rfl

@[simp] theorem applyAll_cons (write : W) (writes : List W) (db : DB) :
    applyAll (write :: writes) db =
      applyAll writes (Database.apply write db) := rfl

theorem applyAll_append (first second : List W) (db : DB) :
    applyAll (first ++ second) db =
      applyAll second (applyAll first db) :=
  List.foldl_append ..

theorem applyAll_frame {γ : Type} (part : DB → γ) {writes : List W}
    (h : ∀ write ∈ writes, ∀ db, part (Database.apply write db) = part db)
    (db : DB) : part (applyAll writes db) = part db := by
  induction writes generalizing db with
  | nil => rfl
  | cons write writes ih =>
      obtain ⟨hwrite, hwrites⟩ := List.forall_mem_cons.mp h
      rw [applyAll_cons, ih hwrites, hwrite]

end Writes

/--
The state of one session.  `pending` holds the writes since the last commit,
`history` the batches already committed.  `since` is the number of operations
at the last commit and `calls` records the answered calls after it; neither is
read by programs.
-/
structure Session (W C : Type) (R : C → Type) where
  txn : Nat
  ops : Nat
  since : Nat
  pending : List W
  calls : List ((request : C) × R request)
  history : List (List W)

namespace Session

variable {DB W C : Type} {R : C → Type}

def start (txn : Nat) : Session W C R := ⟨txn, 0, 0, [], [], []⟩

def stamp (s : Session W C R) : Stamp := ⟨s.txn, s.ops⟩

def view [Database DB W] (s : Session W C R) (db : DB) : DB :=
  applyAll s.pending db

def wrote (s : Session W C R) (writes : List W) : Session W C R :=
  { s with ops := s.ops + 1, pending := s.pending ++ writes }

def answered (s : Session W C R) (request : C) (answer : R request) :
    Session W C R :=
  { s with ops := s.ops + 1, calls := s.calls ++ [⟨request, answer⟩] }

/-- The session after its pending writes became visible to everyone. -/
def committed (s : Session W C R) : Session W C R :=
  { s with
    ops := s.ops + 1
    since := s.ops + 1
    pending := []
    calls := []
    history := s.history ++ [s.pending] }

/-- The session after the database refused its pending writes as a whole. -/
def refused (s : Session W C R) : Session W C R :=
  { s with ops := s.ops + 1, since := s.ops + 1, pending := [], calls := [] }

section Fields

variable (s : Session W C R)

@[simp] theorem txn_wrote (writes : List W) :
    (s.wrote writes).txn = s.txn := rfl

@[simp] theorem txn_answered (request : C) (answer : R request) :
    (s.answered request answer).txn = s.txn := rfl

@[simp] theorem txn_committed : s.committed.txn = s.txn := rfl

@[simp] theorem txn_refused : s.refused.txn = s.txn := rfl

@[simp] theorem since_wrote (writes : List W) :
    (s.wrote writes).since = s.since := rfl

@[simp] theorem since_answered (request : C) (answer : R request) :
    (s.answered request answer).since = s.since := rfl

@[simp] theorem since_committed : s.committed.since = s.ops + 1 := rfl

@[simp] theorem since_refused : s.refused.since = s.ops + 1 := rfl

@[simp] theorem ops_wrote (writes : List W) :
    (s.wrote writes).ops = s.ops + 1 := rfl

@[simp] theorem ops_answered (request : C) (answer : R request) :
    (s.answered request answer).ops = s.ops + 1 := rfl

@[simp] theorem ops_committed : s.committed.ops = s.ops + 1 := rfl

@[simp] theorem ops_refused : s.refused.ops = s.ops + 1 := rfl

@[simp] theorem pending_wrote (writes : List W) :
    (s.wrote writes).pending = s.pending ++ writes := rfl

@[simp] theorem pending_answered (request : C) (answer : R request) :
    (s.answered request answer).pending = s.pending := rfl

@[simp] theorem pending_committed : s.committed.pending = [] := rfl

@[simp] theorem pending_refused : s.refused.pending = [] := rfl

@[simp] theorem calls_wrote (writes : List W) :
    (s.wrote writes).calls = s.calls := rfl

@[simp] theorem calls_answered (request : C) (answer : R request) :
    (s.answered request answer).calls = s.calls ++ [⟨request, answer⟩] := rfl

@[simp] theorem calls_committed : s.committed.calls = [] := rfl

@[simp] theorem calls_refused : s.refused.calls = [] := rfl

@[simp] theorem history_wrote (writes : List W) :
    (s.wrote writes).history = s.history := rfl

@[simp] theorem history_answered (request : C) (answer : R request) :
    (s.answered request answer).history = s.history := rfl

@[simp] theorem history_committed :
    s.committed.history = s.history ++ [s.pending] := rfl

@[simp] theorem history_refused : s.refused.history = s.history := rfl

@[simp] theorem stamp_txn : s.stamp.txn = s.txn := rfl

@[simp] theorem stamp_op : s.stamp.op = s.ops := rfl

end Fields

@[simp] theorem txn_start (txn : Nat) :
    (start txn : Session W C R).txn = txn := rfl

@[simp] theorem pending_start (txn : Nat) :
    (start txn : Session W C R).pending = [] := rfl

@[simp] theorem history_start (txn : Nat) :
    (start txn : Session W C R).history = [] := rfl

@[simp] theorem calls_start (txn : Nat) :
    (start txn : Session W C R).calls = [] := rfl

theorem view_wrote [Database DB W] (s : Session W C R) (writes : List W)
    (db : DB) :
    (s.wrote writes).view db = applyAll writes (s.view db) :=
  applyAll_append ..

@[simp] theorem view_answered [Database DB W] (s : Session W C R)
    (request : C) (answer : R request) (db : DB) :
    (s.answered request answer).view db = s.view db := rfl

end Session

namespace Txn

variable {DB W C : Type} {R : C → Type} {E α β γ : Type}

/-! ## Sequencing -/

def bind : Txn DB W C R E α → (α → Txn DB W C R E β) → Txn DB W C R E β
  | done value, f => f value
  | raise error, _ => raise error
  | stmt writes next, f => stmt writes fun stamp db => (next stamp db).bind f
  | call request next, f => call request fun answer => (next answer).bind f
  | commit next, f => commit fun accepted => (next accepted).bind f

instance : Monad (Txn DB W C R E) where
  pure := done
  bind := bind

@[simp] theorem pure_eq (value : α) :
    (pure value : Txn DB W C R E α) = done value := rfl

@[simp] theorem bind_eq (p : Txn DB W C R E α)
    (f : α → Txn DB W C R E β) : (p >>= f) = p.bind f := rfl

@[simp] theorem done_bind (value : α) (f : α → Txn DB W C R E β) :
    (done value : Txn DB W C R E α).bind f = f value := rfl

@[simp] theorem raise_bind (error : E) (f : α → Txn DB W C R E β) :
    (raise error : Txn DB W C R E α).bind f = raise error := rfl

theorem bind_assoc (p : Txn DB W C R E α) (f : α → Txn DB W C R E β)
    (g : β → Txn DB W C R E γ) :
    (p.bind f).bind g = p.bind fun value => (f value).bind g := by
  induction p with
  | done value => rfl
  | raise error => rfl
  | stmt writes next ih => simp only [bind, ih]
  | call request next ih => simp only [bind, ih]
  | commit next ih => simp only [bind, ih]

/-- Run `p` and hand its exception, if any, to the code after it. -/
def attempt : Txn DB W C R E α → Txn DB W C R E (Except E α)
  | done value => done (.ok value)
  | raise error => done (.error error)
  | stmt writes next => stmt writes fun stamp db => (next stamp db).attempt
  | call request next => call request fun answer => (next answer).attempt
  | commit next => commit fun accepted => (next accepted).attempt

/-- A query: an atomic read of the session's view. -/
def query (read : DB → α) : Txn DB W C R E α :=
  stmt (fun _ _ => []) fun _ db => done (read db)

/-- An atomic statement that writes and returns nothing. -/
def exec (writes : Stamp → DB → List W) : Txn DB W C R E Unit :=
  stmt writes fun _ _ => done ()

def ofExcept : Except E α → Txn DB W C R E α
  | .ok value => done value
  | .error error => raise error

/-- Commit, raising `error` when the database refuses the writes. -/
def commitOr (error : E) : Txn DB W C R E Unit :=
  commit fun accepted => if accepted then done () else raise error

def forEach (items : List α) (body : α → Txn DB W C R E Unit) :
    Txn DB W C R E Unit :=
  match items with
  | [] => done ()
  | item :: rest => (body item).bind fun _ => forEach rest body

/-- A loop over `items` that threads an accumulator. -/
def foldEach (items : List α) (acc : β)
    (body : β → α → Txn DB W C R E β) : Txn DB W C R E β :=
  match items with
  | [] => done acc
  | item :: rest => (body acc item).bind fun acc => foldEach rest acc body

end Txn

end RealEstateTracker.Foundation
