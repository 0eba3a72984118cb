import Mathlib.Data.List.Basic
import Mathlib.Tactic

/-!
# Streaks of failures

Attempts are reported as they end, and the failures that were reported since the
last success form a streak.  The type of the times is a parameter.
-/

namespace RealEstateTracker.Foundation

inductive Report (T : Type) where
  | success
  | failure (time : T)
  deriving DecidableEq, Repr

variable {T : Type}

def Report.extend (times : List T) : Report T → List T
  | success => []
  | failure time => times ++ [time]

/-- The times of the failures since the last success, the latest one last. -/
def streak (history : List (Report T)) : List T :=
  history.foldl Report.extend []

@[simp] theorem streak_nil : streak ([] : List (Report T)) = [] := rfl

theorem streak_append (first second : List (Report T)) :
    streak (first ++ second) = second.foldl Report.extend (streak first) :=
  List.foldl_append ..

@[simp] theorem streak_concat_success (history : List (Report T)) :
    streak (history ++ [.success]) = [] := streak_append history _

@[simp] theorem streak_concat_failure (history : List (Report T)) (time : T) :
    streak (history ++ [.failure time]) = streak history ++ [time] :=
  streak_append history _

end RealEstateTracker.Foundation
