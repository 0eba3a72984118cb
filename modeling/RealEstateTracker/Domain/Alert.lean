import RealEstateTracker.Domain.Conditions
import RealEstateTracker.Domain.Values
import Mathlib.Data.String.Basic

/-!
# The search alert

The aggregate root.  An alert without a name, a portal or a condition, or one
that runs more than once a minute, cannot be built, and every mutator keeps it
so.
-/

namespace RealEstateTracker.Domain

open Foundation

/--
An identifier.  `uuid4` is the result of the call number `call` within the
operation `op` of session `txn`: different calls draw different identifiers.
-/
inductive Uuid where
  | given (number : Nat)
  | uuid4 (txn op call : Nat)
  deriving DecidableEq, Repr

abbrev AlertId := Uuid
abbrev UserId := Uuid
abbrev MatchId := Uuid
abbrev ChannelId := Uuid
abbrev NotificationId := Uuid

/-- A set of strings, kept in the order that `sorted` gives. -/
structure FrozenSet where
  sorted : List String
  increasing : sorted.Pairwise (· < ·)
  deriving DecidableEq, Repr

namespace FrozenSet

theorem pairwise_ofList (items : List String) :
    (items.dedup.insertionSort (· ≤ ·)).Pairwise (· < ·) := by
  have hle := List.pairwise_insertionSort (· ≤ ·) items.dedup
  have hne : (items.dedup.insertionSort (· ≤ ·)).Nodup :=
    (List.perm_insertionSort (· ≤ ·) items.dedup).nodup_iff.mpr
      (List.nodup_dedup items)
  exact (hle.and hne).imp fun h => lt_of_le_of_ne h.1 h.2

def ofList (items : List String) : FrozenSet :=
  ⟨items.dedup.insertionSort (· ≤ ·), pairwise_ofList items⟩

theorem mem_ofList {items : List String} {s : String} :
    s ∈ (ofList items).sorted ↔ s ∈ items := by
  rw [ofList, (List.perm_insertionSort (· ≤ ·) items.dedup).mem_iff,
    List.mem_dedup]

@[ext] theorem ext {a b : FrozenSet}
    (h : ∀ s, s ∈ a.sorted ↔ s ∈ b.sorted) : a = b := by
  have hnodup : ∀ c : FrozenSet, c.sorted.Nodup := fun c =>
    c.increasing.imp fun hlt => ne_of_lt hlt
  have hperm : a.sorted.Perm b.sorted :=
    (List.perm_ext_iff_of_nodup (hnodup a) (hnodup b)).mpr h
  have heq : a.sorted = b.sorted :=
    hperm.eq_of_pairwise (fun x y _ _ hxy hyx => absurd hxy (lt_asymm hyx))
      a.increasing b.increasing
  cases a
  cases b
  simp_all

theorem sorted_singleton_ne_nil (item : String) : (ofList [item]).sorted ≠ [] :=
  List.ne_nil_of_mem (mem_ofList.2 (List.mem_singleton_self item))

end FrozenSet

def minFrequencySeconds : Int := 60

theorem minFrequencySeconds_le_hour : minFrequencySeconds ≤ 3600 := by
  decide

structure SearchAlert where
  id : AlertId
  userId : UserId
  name : String
  portalSlugs : FrozenSet
  frequencySeconds : Int
  conditions : RuleGroup
  createdAt : DateTime
  updatedAt : DateTime
  isActive : Bool
  lastRunAt : Option DateTime
  named : isBlank name = false
  monitored : portalSlugs.sorted ≠ []
  seldom : minFrequencySeconds ≤ frequencySeconds

namespace SearchAlert

def emptyName : PyError := .invalidAlert "alert name must not be empty"

def noPortal : PyError :=
  .invalidAlert "alert must monitor at least one portal"

def tooFrequent (frequencySeconds : Int) : PyError :=
  .invalidAlert (String.ofList ("frequency must be >= ".toList ++
    Text.ofInt minFrequencySeconds ++ "s, got ".toList ++
    Text.ofInt frequencySeconds))

/-- The constructor; its check for a leaf cannot fail, see `RuleGroup.leafCount_pos`. -/
def new (id : AlertId) (userId : UserId) (name : String)
    (portalSlugs : FrozenSet) (frequencySeconds : Int) (conditions : RuleGroup)
    (createdAt updatedAt : DateTime) (isActive : Bool)
    (lastRunAt : Option DateTime) : Except PyError SearchAlert :=
  if hname : isBlank name = false then
    if hportals : portalSlugs.sorted ≠ [] then
      if hfrequency : minFrequencySeconds ≤ frequencySeconds then
        .ok ⟨id, userId, name, portalSlugs, frequencySeconds, conditions,
          createdAt, updatedAt, isActive, lastRunAt, hname, hportals,
          hfrequency⟩
      else .error (tooFrequent frequencySeconds)
    else .error noPortal
  else .error emptyName

theorem new_self (a : SearchAlert) :
    new a.id a.userId a.name a.portalSlugs a.frequencySeconds a.conditions
      a.createdAt a.updatedAt a.isActive a.lastRunAt = .ok a := by
  rw [new, dif_pos a.named, dif_pos a.monitored, dif_pos a.seldom]

/-- A new alert is active and was never run. -/
def create (id : AlertId) (userId : UserId) (name : String)
    (portalSlugs : FrozenSet) (frequencySeconds : Int) (conditions : RuleGroup)
    (now : DateTime) : Except PyError SearchAlert :=
  new id userId name portalSlugs frequencySeconds conditions now now true none

def rename (a : SearchAlert) (name : String) (now : DateTime) :
    Except PyError SearchAlert :=
  if hname : isBlank name = false then
    .ok { a with name, named := hname, updatedAt := now }
  else .error emptyName

/-- A group has a leaf, so this mutator always succeeds. -/
def replaceConditions (a : SearchAlert) (conditions : RuleGroup)
    (now : DateTime) : SearchAlert :=
  { a with conditions, updatedAt := now }

def setPortals (a : SearchAlert) (portalSlugs : FrozenSet) (now : DateTime) :
    Except PyError SearchAlert :=
  if hportals : portalSlugs.sorted ≠ [] then
    .ok { a with portalSlugs, monitored := hportals, updatedAt := now }
  else .error noPortal

def setFrequency (a : SearchAlert) (frequencySeconds : Int) (now : DateTime) :
    Except PyError SearchAlert :=
  if hfrequency : minFrequencySeconds ≤ frequencySeconds then
    .ok { a with frequencySeconds, seldom := hfrequency, updatedAt := now }
  else .error (tooFrequent frequencySeconds)

def activate (a : SearchAlert) (now : DateTime) : SearchAlert :=
  { a with isActive := true, updatedAt := now }

def deactivate (a : SearchAlert) (now : DateTime) : SearchAlert :=
  { a with isActive := false, updatedAt := now }

def markRun (a : SearchAlert) (now : DateTime) : SearchAlert :=
  { a with lastRunAt := some now }

end SearchAlert

end RealEstateTracker.Domain
