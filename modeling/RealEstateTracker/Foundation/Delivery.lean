import Mathlib.Data.List.Count
import Mathlib.Tactic

/-!
# Deliveries with a bounded number of attempts

Something that waits to be delivered is attempted until an attempt succeeds or
`limit` attempts have failed.  `Reaches` relates how far it got to the outcomes
of its attempts, where `true` is a success.
-/

namespace RealEstateTracker.Foundation

inductive Stage where
  | waiting
  | delivered
  | abandoned
  deriving DecidableEq, Repr

structure Delivery where
  stage : Stage
  failures : Nat
  deriving DecidableEq, Repr

namespace Delivery

def new : Delivery := ⟨.waiting, 0⟩

def succeed (d : Delivery) : Delivery := { d with stage := .delivered }

def fail (limit : Nat) (d : Delivery) : Delivery where
  stage := if limit ≤ d.failures + 1 then .abandoned else d.stage
  failures := d.failures + 1

inductive Reaches (limit : Nat) : List Bool → Delivery → Prop
  | new : Reaches limit [] new
  | succeed {outcomes : List Bool} {d : Delivery} (h : Reaches limit outcomes d)
      (hwaiting : d.stage = .waiting) :
      Reaches limit (outcomes ++ [true]) d.succeed
  | fail {outcomes : List Bool} {d : Delivery} (h : Reaches limit outcomes d)
      (hwaiting : d.stage = .waiting) :
      Reaches limit (outcomes ++ [false]) (d.fail limit)

variable {limit : Nat} {outcomes : List Bool} {d : Delivery}

namespace Reaches

theorem failures_eq (h : Reaches limit outcomes d) :
    d.failures = outcomes.count false := by
  induction h with
  | new => rfl
  | succeed _ _ ih => simp [Delivery.succeed, ih]
  | fail _ _ ih => simp [Delivery.fail, ih]

theorem successes_eq (h : Reaches limit outcomes d) :
    outcomes.count true = if d.stage = .delivered then 1 else 0 := by
  induction h with
  | new => rfl
  | succeed _ hwaiting ih => simp [Delivery.succeed, ih, hwaiting]
  | @fail outcomes d _ hwaiting ih =>
      rw [hwaiting, if_neg (by decide)] at ih
      by_cases hle : limit ≤ d.failures + 1 <;>
        simp [Delivery.fail, ih, hle, hwaiting]

theorem failures_lt (hlimit : 1 ≤ limit) (h : Reaches limit outcomes d)
    (hwaiting : d.stage = .waiting) : d.failures < limit := by
  induction h with
  | new => exact hlimit
  | succeed => simp [Delivery.succeed] at hwaiting
  | fail =>
      by_contra hle
      simp only [Delivery.fail, not_lt] at hle hwaiting
      rw [if_pos hle] at hwaiting
      cases hwaiting

theorem failures_eq_limit (hlimit : 1 ≤ limit) (h : Reaches limit outcomes d)
    (habandoned : d.stage = .abandoned) : d.failures = limit := by
  cases h with
  | new => cases habandoned
  | succeed => simp [Delivery.succeed] at habandoned
  | fail h hwaiting =>
      have hlt := h.failures_lt hlimit hwaiting
      simp only [Delivery.fail, hwaiting] at habandoned ⊢
      split at habandoned
      · omega
      · cases habandoned

end Reaches

end Delivery

end RealEstateTracker.Foundation
