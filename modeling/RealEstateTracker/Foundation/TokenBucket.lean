import Mathlib.Algebra.Order.Field.Basic
import Mathlib.Data.List.Chain
import Mathlib.Tactic

/-!
# Token buckets

Tokens flow into a bucket at no more than a constant rate, and every take removes
one.  The takes in any window of time are then bounded by a full bucket and what
flows in while the window lasts.
-/

namespace RealEstateTracker.Foundation

/-- The removal of one token, and what is left in the bucket. -/
structure Take (K : Type) where
  time : K
  level : K

namespace Take

variable {K : Type} [Field K] [LinearOrder K]

/-- Between two takes no more flows in than the rate allows. -/
def Precedes (rate : K) (first second : Take K) : Prop :=
  second.level + 1 ≤ first.level + rate * (second.time - first.time)

structure Fits (capacity : K) (take : Take K) : Prop where
  level_nonneg : 0 ≤ take.level
  level_le : take.level + 1 ≤ capacity

def Within (s t : K) (take : Take K) : Prop := s ≤ take.time ∧ take.time ≤ t

instance (s t : K) : DecidablePred (Within s t) :=
  fun take => inferInstanceAs (Decidable (s ≤ take.time ∧ take.time ≤ t))

variable [IsStrictOrderedRing K] {rate capacity s t : K}

theorem Precedes.trans {x y z : Take K} (h : x.Precedes rate y) (h' : y.Precedes rate z) :
    x.Precedes rate z := by
  unfold Precedes at *
  linarith

instance : Trans (Precedes rate) (Precedes rate) (Precedes rate) := ⟨Precedes.trans⟩

/-- What flows in until `t` pays for the takes after the first one. -/
theorem length_le_of_isChain (hrate : 0 ≤ rate) {x : Take K} {takes : List (Take K)}
    (hchain : (x :: takes).IsChain (Precedes rate))
    (hlevel : ∀ take ∈ x :: takes, 0 ≤ take.level)
    (htime : ∀ take ∈ x :: takes, take.time ≤ t) :
    ((x :: takes).length : K) ≤ x.level + 1 + rate * (t - x.time) := by
  induction takes generalizing x with
  | nil =>
      have hflow : 0 ≤ rate * (t - x.time) :=
        mul_nonneg hrate (sub_nonneg.mpr (htime x (.head _)))
      have hx := hlevel x (.head _)
      rw [List.length_singleton, Nat.cast_one]
      linarith
  | cons y takes ih =>
      obtain ⟨hxy, hchain⟩ := List.isChain_cons_cons.mp hchain
      have hrest := ih hchain (List.forall_mem_cons.mp hlevel).2
        (List.forall_mem_cons.mp htime).2
      have hsplit : rate * (t - x.time) =
          rate * (y.time - x.time) + rate * (t - y.time) := by ring
      unfold Precedes at hxy
      rw [List.length_cons, Nat.cast_succ, hsplit]
      linarith

theorem countP_within_le (hrate : 0 ≤ rate) (hcapacity : 0 ≤ capacity)
    {takes : List (Take K)} (hchain : takes.IsChain (Precedes rate))
    (hfits : ∀ take ∈ takes, take.Fits capacity) (hst : s ≤ t) :
    (takes.countP (Within s t) : K) ≤ capacity + rate * (t - s) := by
  have hwindow : (takes.filter (Within s t)).IsChain (Precedes rate) :=
    (hchain.pairwise.filter _).isChain
  have hmem : ∀ take ∈ takes.filter (Within s t),
      take.Fits capacity ∧ s ≤ take.time ∧ take.time ≤ t := by
    intro take htake
    obtain ⟨htake, hwithin⟩ := List.mem_filter.mp htake
    exact ⟨hfits take htake, of_decide_eq_true hwithin⟩
  rw [List.countP_eq_length_filter]
  generalize takes.filter (Within s t) = window at hwindow hmem
  cases window with
  | nil =>
      have hflow : 0 ≤ rate * (t - s) := mul_nonneg hrate (sub_nonneg.mpr hst)
      rw [List.length_nil, Nat.cast_zero]
      linarith
  | cons x rest =>
      obtain ⟨hx, hsx, -⟩ := hmem x (.head _)
      calc ((x :: rest).length : K)
          ≤ x.level + 1 + rate * (t - x.time) :=
            length_le_of_isChain hrate hwindow
              (fun take htake => (hmem take htake).1.level_nonneg)
              (fun take htake => (hmem take htake).2.2)
        _ ≤ capacity + rate * (t - s) := by
            have hlevel := hx.level_le
            gcongr

end Take

end RealEstateTracker.Foundation
