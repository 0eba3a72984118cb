import Mathlib.Tactic

/-!
# Outcomes

Code that may raise returns an `Except`.  These lemmas take a sequence of such
calls apart.
-/

namespace RealEstateTracker.Foundation

variable {ε ε' α β : Type}

def Raises (result : Except ε α) : Prop := ∃ error, result = .error error

@[simp] theorem raises_error (error : ε) :
    Raises (.error error : Except ε α) := ⟨error, rfl⟩

@[simp] theorem not_raises_ok (value : α) :
    ¬Raises (.ok value : Except ε α) := fun ⟨_, h⟩ => by simp at h

@[simp] theorem raises_map (f : α → β) (result : Except ε α) :
    Raises (result.map f) ↔ Raises result := by
  cases result <;> simp [Except.map]

@[simp] theorem raises_mapError (f : ε → ε') (result : Except ε α) :
    Raises (result.mapError f) ↔ Raises result := by
  cases result <;> simp [Except.mapError]

theorem not_raises_iff {result : Except ε α} :
    ¬Raises result ↔ ∃ value, result = .ok value := by
  cases result <;> simp [Raises]

theorem bind_eq_ok {result : Except ε α} {f : α → Except ε β} {value : β} :
    (result >>= f) = .ok value ↔
      ∃ first, result = .ok first ∧ f first = .ok value := by
  cases result <;> simp [bind, Except.bind]

theorem pure_eq_ok {value value' : α} :
    (pure value : Except ε α) = .ok value' ↔ value = value' := by
  simp [pure, Except.pure]

theorem raises_bind {result : Except ε α} {f : α → Except ε β} :
    Raises (result >>= f) ↔
      Raises result ∨ ∃ first, result = .ok first ∧ Raises (f first) := by
  cases result <;> simp [bind, Except.bind]

theorem forall_reached_cons {passes P : α → Prop} {item : α} {items : List α} :
    (∀ before next after, item :: items = before ++ next :: after →
        (∀ b ∈ before, passes b) → P next) ↔
      P item ∧ (passes item → ∀ before next after, items = before ++ next :: after →
        (∀ b ∈ before, passes b) → P next) := by
  constructor
  · intro h
    refine ⟨h [] item items rfl (by simp), fun hitem before next after heq hbefore => ?_⟩
    exact h (item :: before) next after (by rw [heq]; rfl)
      (List.forall_mem_cons.mpr ⟨hitem, hbefore⟩)
  · rintro ⟨hitem, hitems⟩ before next after heq hbefore
    cases before with
    | nil =>
        obtain ⟨rfl, -⟩ := List.cons_eq_cons.mp heq
        exact hitem
    | cons b before =>
        obtain ⟨rfl, hrest⟩ := List.cons_eq_cons.mp heq
        obtain ⟨hb, hbefore⟩ := List.forall_mem_cons.mp hbefore
        exact hitems hb before next after hrest hbefore

theorem map_of_mapM_eq_ok {γ : Type} {f : α → Except ε β} {g : α → γ} {g' : β → γ}
    (hf : ∀ item value, f item = .ok value → g' value = g item) {items : List α}
    {values : List β} (h : items.mapM f = .ok values) : values.map g' = items.map g := by
  induction items generalizing values with
  | nil =>
      obtain rfl := pure_eq_ok.mp h
      rfl
  | cons item items ih =>
      rw [List.mapM_cons] at h
      obtain ⟨value, hvalue, h⟩ := bind_eq_ok.mp h
      obtain ⟨others, hothers, h⟩ := bind_eq_ok.mp h
      obtain rfl := pure_eq_ok.mp h
      rw [List.map_cons, List.map_cons, ih hothers, hf item value hvalue]

theorem mapM_id_eq_ok {results : List (Except ε α)} {values : List α} :
    results.mapM id = .ok values ↔ results = values.map .ok := by
  induction results generalizing values with
  | nil => cases values <;> simp [pure, Except.pure]
  | cons result results ih =>
      rw [List.mapM_cons]
      constructor
      · intro h
        obtain ⟨value, hvalue, h⟩ := bind_eq_ok.mp h
        obtain ⟨rest, hrest, h⟩ := bind_eq_ok.mp h
        obtain rfl := pure_eq_ok.mp h
        rw [List.map_cons, ← ih.mp hrest]
        exact congrArg (· :: results) hvalue
      · intro h
        cases values with
        | nil => simp at h
        | cons value rest =>
            obtain ⟨rfl, hrest⟩ := List.cons.inj h
            rw [ih.mpr hrest]
            rfl

theorem mem_of_mapM_eq_ok {f : α → Except ε β} {items : List α} {values : List β}
    (h : items.mapM f = .ok values) (value : β) :
    value ∈ values ↔ ∃ item ∈ items, f item = .ok value := by
  induction items generalizing values with
  | nil =>
      obtain rfl := pure_eq_ok.mp h
      simp
  | cons item items ih =>
      rw [List.mapM_cons] at h
      obtain ⟨first, hfirst, h⟩ := bind_eq_ok.mp h
      obtain ⟨others, hothers, h⟩ := bind_eq_ok.mp h
      obtain rfl := pure_eq_ok.mp h
      simp only [List.mem_cons, exists_eq_or_imp, ih hothers, hfirst, Except.ok.injEq]
      rw [eq_comm]

theorem raises_mapM {f : α → Except ε β} {items : List α} :
    Raises (items.mapM f) ↔ ∃ item ∈ items, Raises (f item) := by
  induction items with
  | nil => simp [pure, Except.pure]
  | cons item items ih =>
      simp only [List.mapM_cons, raises_bind, List.mem_cons, exists_eq_or_imp, ← ih]
      cases f item with
      | error error => simp
      | ok first => simp [pure, Except.pure]

end RealEstateTracker.Foundation
