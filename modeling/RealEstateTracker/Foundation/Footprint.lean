import RealEstateTracker.Foundation.WeakestPrecondition

/-!
# Footprints

`Only P p` says that program `p` commits nothing and that every write it makes
satisfies `P`, and `CommitsLast p` that it commits at its end, if at all.
`Within P K p` allows commits: every write satisfies `P` over the data it was made
from, and every call satisfies `K`.  What such writes and calls preserve, the
program preserves, whatever it meets on its way.
-/

namespace RealEstateTracker.Foundation.Txn

variable {DB W C : Type} {R : C → Type} {E α β : Type} {P P' : W → Prop}

def Only (P : W → Prop) : Txn DB W C R E α → Prop
  | done _ => True
  | raise _ => True
  | stmt writes next =>
      (∀ stamp db, ∀ write ∈ writes stamp db, P write) ∧
        ∀ stamp db, (next stamp db).Only P
  | call _ next => ∀ answer, (next answer).Only P
  | commit _ => False

section Rules

@[simp] theorem only_done (value : α) :
    (done value : Txn DB W C R E α).Only P := trivial

@[simp] theorem only_raise (error : E) :
    (raise error : Txn DB W C R E α).Only P := trivial

@[simp] theorem only_ofExcept (outcome : Except E α) :
    (ofExcept outcome : Txn DB W C R E α).Only P := by
  cases outcome <;> trivial

@[simp] theorem only_query (read : DB → α) :
    (query read : Txn DB W C R E α).Only P :=
  ⟨fun _ _ _ h => absurd h List.not_mem_nil, fun _ _ => trivial⟩

theorem only_exec {writes : Stamp → DB → List W}
    (h : ∀ stamp db, ∀ write ∈ writes stamp db, P write) :
    (exec writes : Txn DB W C R E Unit).Only P :=
  ⟨h, fun _ _ => trivial⟩

theorem only_bind {p : Txn DB W C R E α} {f : α → Txn DB W C R E β}
    (hp : p.Only P) (hf : ∀ value, (f value).Only P) : (p.bind f).Only P := by
  induction p with
  | done value => exact hf value
  | raise error => trivial
  | stmt writes next ih => exact ⟨hp.1, fun stamp db => ih _ _ (hp.2 stamp db)⟩
  | call request next ih => exact fun answer => ih _ (hp answer)
  | commit next ih => exact hp.elim

theorem only_attempt {p : Txn DB W C R E α} (hp : p.Only P) :
    p.attempt.Only P := by
  induction p with
  | done value => trivial
  | raise error => trivial
  | stmt writes next ih => exact ⟨hp.1, fun stamp db => ih _ _ (hp.2 stamp db)⟩
  | call request next ih => exact fun answer => ih _ (hp answer)
  | commit next ih => exact hp.elim

theorem only_forEach {items : List α} {body : α → Txn DB W C R E Unit}
    (h : ∀ item ∈ items, (body item).Only P) : (forEach items body).Only P := by
  induction items with
  | nil => trivial
  | cons item rest ih =>
      obtain ⟨hitem, hrest⟩ := List.forall_mem_cons.mp h
      exact only_bind hitem fun _ => ih hrest

theorem only_foldEach {items : List α} {acc : β}
    {body : β → α → Txn DB W C R E β}
    (h : ∀ acc, ∀ item ∈ items, (body acc item).Only P) :
    (foldEach items acc body).Only P := by
  induction items generalizing acc with
  | nil => trivial
  | cons item rest ih =>
      exact only_bind (h acc item (.head _)) fun acc =>
        ih fun acc item hitem => h acc item (.tail _ hitem)

theorem Only.mono {p : Txn DB W C R E α} (h : p.Only P)
    (hP : ∀ write, P write → P' write) : p.Only P' := by
  induction p with
  | done value => trivial
  | raise error => trivial
  | stmt writes next ih =>
      exact ⟨fun stamp db write hwrite => hP _ (h.1 stamp db write hwrite),
        fun stamp db => ih _ _ (h.2 stamp db)⟩
  | call request next ih => exact fun answer => ih _ (h answer)
  | commit next ih => exact h.elim

end Rules

/-- What the writes of a program and the answers it gets preserve holds at its end. -/
theorem wp_of_only [Database DB W] {rely : Rely DB C R}
    {ready : Session W C R → Prop} {I : Session W C R → Prop}
    (hwrote : ∀ (s : Session W C R) writes, (∀ write ∈ writes, P write) →
      I s → I (s.wrote writes))
    (hanswered : ∀ (s : Session W C R) request answer,
      I s → I (s.answered request answer))
    {p : Txn DB W C R E α} (h : p.Only P) {s : Session W C R} (hs : I s) :
    wp rely ready p (fun _ s => I s) s := by
  induction p generalizing s with
  | done value => exact hs
  | raise error => exact hs
  | stmt writes next ih =>
      exact fun db _ => ih _ _ (h.2 _ _) (hwrote s _ (h.1 _ _) hs)
  | call request next ih =>
      exact fun answer _ => ih _ (h answer) (hanswered s request answer hs)
  | commit next ih => exact h.elim

/-! ## Programs that end with their commit -/

def CommitsLast : Txn DB W C R E α → Prop
  | done _ => True
  | raise _ => True
  | stmt _ next => ∀ stamp db, (next stamp db).CommitsLast
  | call _ next => ∀ answer, (next answer).CommitsLast
  | commit next => ∃ value error, next true = done value ∧ next false = raise error

theorem commitsLast_bind_of_only {p : Txn DB W C R E α} (hp : p.Only P)
    {f : α → Txn DB W C R E β} (hf : ∀ value, (f value).CommitsLast) :
    (p.bind f).CommitsLast := by
  induction p with
  | done value => exact hf value
  | raise error => trivial
  | stmt writes next ih => exact fun stamp db => ih _ _ (hp.2 stamp db)
  | call request next ih => exact fun answer => ih _ (hp answer)
  | commit next ih => exact hp.elim

theorem commitsLast_commitOr (error : E) (value : α) :
    ((commitOr error : Txn DB W C R E Unit).bind fun _ => done value).CommitsLast :=
  ⟨value, error, rfl, rfl⟩

/-! ## Programs that commit -/

def Within (P : DB → W → Prop) (K : C → Prop) : Txn DB W C R E α → Prop
  | done _ => True
  | raise _ => True
  | stmt writes next =>
      (∀ stamp db, ∀ write ∈ writes stamp db, P db write) ∧
        ∀ stamp db, (next stamp db).Within P K
  | call request next => K request ∧ ∀ answer, (next answer).Within P K
  | commit next => ∀ accepted, (next accepted).Within P K

section Within

variable {P P' : DB → W → Prop} {K K' : C → Prop}

@[simp] theorem within_done (value : α) :
    (done value : Txn DB W C R E α).Within P K := trivial

@[simp] theorem within_raise (error : E) :
    (raise error : Txn DB W C R E α).Within P K := trivial

@[simp] theorem within_ofExcept (outcome : Except E α) :
    (ofExcept outcome : Txn DB W C R E α).Within P K := by
  cases outcome <;> trivial

@[simp] theorem within_query (read : DB → α) :
    (query read : Txn DB W C R E α).Within P K :=
  ⟨fun _ _ _ h => absurd h List.not_mem_nil, fun _ _ => trivial⟩

@[simp] theorem within_commitOr (error : E) :
    (commitOr error : Txn DB W C R E Unit).Within P K := by
  rintro (_ | _) <;> trivial

theorem within_exec {writes : Stamp → DB → List W}
    (h : ∀ stamp db, ∀ write ∈ writes stamp db, P db write) :
    (exec writes : Txn DB W C R E Unit).Within P K :=
  ⟨h, fun _ _ => trivial⟩

theorem within_bind {p : Txn DB W C R E α} {f : α → Txn DB W C R E β}
    (hp : p.Within P K) (hf : ∀ value, (f value).Within P K) :
    (p.bind f).Within P K := by
  induction p with
  | done value => exact hf value
  | raise error => trivial
  | stmt writes next ih => exact ⟨hp.1, fun stamp db => ih _ _ (hp.2 stamp db)⟩
  | call request next ih => exact ⟨hp.1, fun answer => ih _ (hp.2 answer)⟩
  | commit next ih => exact fun accepted => ih _ (hp accepted)

theorem within_attempt {p : Txn DB W C R E α} (hp : p.Within P K) :
    p.attempt.Within P K := by
  induction p with
  | done value => trivial
  | raise error => trivial
  | stmt writes next ih => exact ⟨hp.1, fun stamp db => ih _ _ (hp.2 stamp db)⟩
  | call request next ih => exact ⟨hp.1, fun answer => ih _ (hp.2 answer)⟩
  | commit next ih => exact fun accepted => ih _ (hp accepted)

theorem within_forEach {items : List α} {body : α → Txn DB W C R E Unit}
    (h : ∀ item ∈ items, (body item).Within P K) :
    (forEach items body).Within P K := by
  induction items with
  | nil => trivial
  | cons item rest ih =>
      obtain ⟨hitem, hrest⟩ := List.forall_mem_cons.mp h
      exact within_bind hitem fun _ => ih hrest

theorem within_foldEach {items : List α} {acc : β}
    {body : β → α → Txn DB W C R E β}
    (h : ∀ acc, ∀ item ∈ items, (body acc item).Within P K) :
    (foldEach items acc body).Within P K := by
  induction items generalizing acc with
  | nil => trivial
  | cons item rest ih =>
      exact within_bind (h acc item (.head _)) fun acc =>
        ih fun acc item hitem => h acc item (.tail _ hitem)

theorem Within.mono {p : Txn DB W C R E α} (h : p.Within P K)
    (hP : ∀ db write, P db write → P' db write)
    (hK : ∀ request, K request → K' request) : p.Within P' K' := by
  induction p with
  | done value => trivial
  | raise error => trivial
  | stmt writes next ih =>
      exact ⟨fun stamp db write hwrite => hP _ _ (h.1 stamp db write hwrite),
        fun stamp db => ih _ _ (h.2 stamp db)⟩
  | call request next ih => exact ⟨hK _ h.1, fun answer => ih _ (h.2 answer)⟩
  | commit next ih => exact fun accepted => ih _ (h accepted)

theorem Only.within {P : W → Prop} {p : Txn DB W C R E α} (h : p.Only P) :
    p.Within (fun _ => P) fun _ => True := by
  induction p with
  | done value => trivial
  | raise error => trivial
  | stmt writes next ih =>
      exact ⟨h.1, fun stamp db => ih _ _ (h.2 stamp db)⟩
  | call request next ih => exact ⟨trivial, fun answer => ih _ (h answer)⟩
  | commit next ih => exact h.elim

/-- What the writes, the calls and the commits of a program preserve holds at its end. -/
theorem wp_of_within [Database DB W] {rely : Rely DB C R}
    {ready : Session W C R → Prop} {I : Session W C R → Prop}
    (hwrote : ∀ (s : Session W C R) db writes, (∀ write ∈ writes, P db write) →
      I s → I (s.wrote writes))
    (hanswered : ∀ (s : Session W C R) request answer, K request → I s →
      I (s.answered request answer))
    (hcommit : ∀ s : Session W C R, I s →
      ready s ∧ I s.committed ∧ I s.refused)
    {p : Txn DB W C R E α} (h : p.Within P K) {s : Session W C R} (hs : I s) :
    wp rely ready p (fun _ s => I s) s := by
  induction p generalizing s with
  | done value => exact hs
  | raise error => exact hs
  | stmt writes next ih =>
      exact fun db _ => ih _ _ (h.2 _ _) (hwrote s _ _ (h.1 _ _) hs)
  | call request next ih =>
      exact fun answer _ => ih _ (h.2 answer) (hanswered s request answer h.1 hs)
  | commit next ih =>
      obtain ⟨hready, hcommitted, hrefused⟩ := hcommit s hs
      exact ⟨hready, ih _ (h true) hcommitted, fun _ => ih _ (h false) hrefused⟩

end Within

end RealEstateTracker.Foundation.Txn
