import RealEstateTracker.Foundation.Transaction

/-!
# Weakest preconditions under interference

`wp rely ready p Q s` says that program `p`, started in session `s`, reaches
only ends that satisfy `Q`, whatever committed data its statements meet within
`rely.store` and whatever answers its calls get within `rely.answers`.  Each
commit must moreover happen in a session that is `ready`: this is what the
program guarantees to the others.
-/

namespace RealEstateTracker.Foundation

/--
What a program may count on.  `store db txn since` is what it knows of the
committed data while session `txn` has not committed since its operation
`since`; `refuses` says whether the database may refuse a commit.
-/
structure Rely (DB C : Type) (R : C → Type) where
  store : DB → Nat → Nat → Prop
  answers : (request : C) → R request → Prop
  refuses : Prop

def Rely.finding {DB C : Type} {R : C → Type} (I : DB → Prop) : Rely DB C R :=
  ⟨fun db _ _ => I db, fun _ _ => True, True⟩

namespace Txn

variable {DB W C : Type} {R : C → Type} {E α β : Type} [Database DB W]
  {rely : Rely DB C R} {ready : Session W C R → Prop}

def wp (rely : Rely DB C R) (ready : Session W C R → Prop) :
    Txn DB W C R E α → (Except E α → Session W C R → Prop) →
      Session W C R → Prop
  | done value, Q, s => Q (.ok value) s
  | raise error, Q, s => Q (.error error) s
  | stmt writes next, Q, s =>
      ∀ db, rely.store db s.txn s.since →
        wp rely ready (next s.stamp (s.view db)) Q
          (s.wrote (writes s.stamp (s.view db)))
  | call request next, Q, s =>
      ∀ answer, rely.answers request answer →
        wp rely ready (next answer) Q (s.answered request answer)
  | commit next, Q, s =>
      ready s ∧ wp rely ready (next true) Q s.committed ∧
        (rely.refuses → wp rely ready (next false) Q s.refused)

def thenPost (f : α → Txn DB W C R E β) (rely : Rely DB C R)
    (ready : Session W C R → Prop)
    (Q : Except E β → Session W C R → Prop) :
    Except E α → Session W C R → Prop
  | .ok value, s => wp rely ready (f value) Q s
  | .error error, s => Q (.error error) s

section Rules

variable {Q Q' : Except E α → Session W C R → Prop} {s : Session W C R}

@[simp] theorem wp_done (value : α) :
    wp rely ready (done value : Txn DB W C R E α) Q s = Q (.ok value) s := rfl

@[simp] theorem wp_raise (error : E) :
    wp rely ready (raise error : Txn DB W C R E α) Q s =
      Q (.error error) s := rfl

@[simp] theorem wp_ofExcept (value : Except E α) :
    wp rely ready (ofExcept value : Txn DB W C R E α) Q s = Q value s := by
  cases value <;> rfl

theorem wp_query (read : DB → α) :
    wp rely ready (query read : Txn DB W C R E α) Q s ↔
      ∀ db, rely.store db s.txn s.since →
        Q (.ok (read (s.view db))) (s.wrote []) := Iff.rfl

theorem wp_exec {Q : Except E Unit → Session W C R → Prop}
    (writes : Stamp → DB → List W) :
    wp rely ready (exec writes : Txn DB W C R E Unit) Q s ↔
      ∀ db, rely.store db s.txn s.since →
        Q (.ok ()) (s.wrote (writes s.stamp (s.view db))) := Iff.rfl

theorem wp_mono (p : Txn DB W C R E α)
    (hQ : ∀ outcome s, Q outcome s → Q' outcome s)
    (h : wp rely ready p Q s) : wp rely ready p Q' s := by
  induction p generalizing s with
  | done value => exact hQ _ _ h
  | raise error => exact hQ _ _ h
  | stmt writes next ih => exact fun db hdb => ih _ _ (h db hdb)
  | call request next ih => exact fun answer ha => ih _ (h answer ha)
  | commit next ih =>
      obtain ⟨hready, haccept, hrefuse⟩ := h
      exact ⟨hready, ih _ haccept, fun hr => ih _ (hrefuse hr)⟩

/-- A program on which nobody counts keeps nothing, so it keeps that. -/
theorem wp_true (p : Txn DB W C R E α) :
    wp rely (fun _ => True) p (fun _ _ => True) s := by
  induction p generalizing s with
  | done value => trivial
  | raise error => trivial
  | stmt writes next ih => exact fun _ _ => ih _ _
  | call request next ih => exact fun answer _ => ih answer
  | commit next ih => exact ⟨trivial, ih true, fun _ => ih false⟩

theorem wp_bind (p : Txn DB W C R E α) (f : α → Txn DB W C R E β)
    {Q : Except E β → Session W C R → Prop} :
    wp rely ready (p.bind f) Q s ↔
      wp rely ready p (thenPost f rely ready Q) s := by
  induction p generalizing s with
  | done value => rfl
  | raise error => rfl
  | stmt writes next ih =>
      exact forall_congr' fun db => imp_congr_right fun _ => ih _ _
  | call request next ih =>
      exact forall_congr' fun answer => imp_congr_right fun _ => ih _
  | commit next ih =>
      exact and_congr_right fun _ =>
        and_congr (ih _) (imp_congr_right fun _ => ih _)

theorem wp_attempt (p : Txn DB W C R E α)
    {Q : Except E (Except E α) → Session W C R → Prop} :
    wp rely ready p.attempt Q s ↔
      wp rely ready p (fun outcome s => Q (.ok outcome) s) s := by
  induction p generalizing s with
  | done value => rfl
  | raise error => rfl
  | stmt writes next ih =>
      exact forall_congr' fun db => imp_congr_right fun _ => ih _ _
  | call request next ih =>
      exact forall_congr' fun answer => imp_congr_right fun _ => ih _
  | commit next ih =>
      exact and_congr_right fun _ =>
        and_congr (ih _) (imp_congr_right fun _ => ih _)

/--
The loop rule.  `Inv done s` is what holds after the items `done`; the body
either keeps it or ends the loop with an exception that the postcondition
accepts.
-/
theorem wp_forEach {items : List α} {body : α → Txn DB W C R E Unit}
    {Q : Except E Unit → Session W C R → Prop}
    (Inv : List α → Session W C R → Prop)
    (hbody : ∀ before item after s, items = before ++ item :: after →
      Inv before s →
      wp rely ready (body item)
        (fun outcome s => match outcome with
          | .ok _ => Inv (before ++ [item]) s
          | .error error => Q (.error error) s) s)
    (hend : ∀ s, Inv items s → Q (.ok ()) s)
    (hstart : Inv [] s) : wp rely ready (forEach items body) Q s := by
  suffices general : ∀ (before after : List α) (s : Session W C R),
      items = before ++ after → Inv before s →
        wp rely ready (forEach after body) Q s from
    general [] items s rfl hstart
  intro before after
  induction after generalizing before with
  | nil =>
      intro s hitems hinv
      simp only [List.append_nil] at hitems
      subst hitems
      exact hend s hinv
  | cons item after ih =>
      intro s hitems hinv
      refine (wp_bind _ _).mpr (wp_mono _ ?_ (hbody _ _ _ s hitems hinv))
      rintro (error | value) s' h
      · exact h
      · exact ih (before ++ [item]) s' (by simp [hitems]) h

theorem wp_foldEach {items : List α} {acc : β}
    {body : β → α → Txn DB W C R E β}
    {Q : Except E β → Session W C R → Prop}
    (Inv : List α → β → Session W C R → Prop)
    (hbody : ∀ before item after acc s, items = before ++ item :: after →
      Inv before acc s →
      wp rely ready (body acc item)
        (fun outcome s => match outcome with
          | .ok acc => Inv (before ++ [item]) acc s
          | .error error => Q (.error error) s) s)
    (hend : ∀ acc s, Inv items acc s → Q (.ok acc) s)
    (hstart : Inv [] acc s) :
    wp rely ready (foldEach items acc body) Q s := by
  suffices general : ∀ (before after : List α) (acc : β) (s : Session W C R),
      items = before ++ after → Inv before acc s →
        wp rely ready (foldEach after acc body) Q s from
    general [] items acc s rfl hstart
  intro before after
  induction after generalizing before with
  | nil =>
      intro acc s hitems hinv
      simp only [List.append_nil] at hitems
      subst hitems
      exact hend acc s hinv
  | cons item after ih =>
      intro acc s hitems hinv
      refine (wp_bind _ _).mpr (wp_mono _ ?_ (hbody _ _ _ acc s hitems hinv))
      rintro (error | value) s' h
      · exact h
      · exact ih (before ++ [item]) value s' (by simp [hitems]) h

/-! ## Normal ends -/

/-- A program that ends with `P`, or else with one of the exceptions `raises`. -/
def ends (raises : E → Prop) (P : α → Session W C R → Prop) :
    Except E α → Session W C R → Prop
  | .ok value, s => P value s
  | .error error, _ => raises error

abbrev onOk (P : α → Session W C R → Prop) :
    Except E α → Session W C R → Prop :=
  ends (fun _ => True) P

section Ends

variable {raises : E → Prop}

theorem wp_ends_bind {p : Txn DB W C R E α} {f : α → Txn DB W C R E β}
    {P : α → Session W C R → Prop} {P' : β → Session W C R → Prop}
    (hp : wp rely ready p (ends raises P) s)
    (hf : ∀ value s, P value s → wp rely ready (f value) (ends raises P') s) :
    wp rely ready (p.bind f) (ends raises P') s := by
  refine (wp_bind _ _).mpr (wp_mono _ ?_ hp)
  rintro (error | value) s' h
  · exact h
  · exact hf value s' h

theorem wp_ends_ofExcept {outcome : Except E α} {P : α → Session W C R → Prop}
    (herror : ∀ error, outcome = .error error → raises error)
    (h : ∀ value, outcome = .ok value → P value s) :
    wp rely ready (ofExcept outcome : Txn DB W C R E α) (ends raises P) s := by
  rw [wp_ofExcept]
  cases outcome with
  | error error => exact herror error rfl
  | ok value => exact h value rfl

theorem wp_onOk_ofExcept {outcome : Except E α} {P : α → Session W C R → Prop}
    (h : ∀ value, outcome = .ok value → P value s) :
    wp rely ready (ofExcept outcome : Txn DB W C R E α) (onOk P) s :=
  wp_ends_ofExcept (fun _ _ => trivial) h

theorem wp_ends_forEach {items : List α} {body : α → Txn DB W C R E Unit}
    {P : Unit → Session W C R → Prop}
    (Inv : List α → Session W C R → Prop)
    (hbody : ∀ before item after s, items = before ++ item :: after →
      Inv before s →
      wp rely ready (body item)
        (ends raises fun _ s => Inv (before ++ [item]) s) s)
    (hend : ∀ s, Inv items s → P () s) (hstart : Inv [] s) :
    wp rely ready (forEach items body) (ends raises P) s := by
  refine wp_forEach Inv (fun before item after s hitems hinv => ?_) hend hstart
  refine wp_mono _ ?_ (hbody before item after s hitems hinv)
  rintro (error | value) s' h
  · exact h
  · exact h

theorem wp_ends_foldEach {items : List α} {acc : β}
    {body : β → α → Txn DB W C R E β} {P : β → Session W C R → Prop}
    (Inv : List α → β → Session W C R → Prop)
    (hbody : ∀ before item after acc s, items = before ++ item :: after →
      Inv before acc s →
      wp rely ready (body acc item)
        (ends raises fun acc s => Inv (before ++ [item]) acc s) s)
    (hend : ∀ acc s, Inv items acc s → P acc s) (hstart : Inv [] acc s) :
    wp rely ready (foldEach items acc body) (ends raises P) s := by
  refine wp_foldEach Inv (fun before item after acc s hitems hinv => ?_) hend
    hstart
  refine wp_mono _ ?_ (hbody before item after acc s hitems hinv)
  rintro (error | value) s' h
  · exact h
  · exact h

end Ends

end Rules

end Txn

end RealEstateTracker.Foundation
