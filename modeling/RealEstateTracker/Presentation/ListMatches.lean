import RealEstateTracker.Foundation.Footprint
import RealEstateTracker.Persistence.NotificationRepositories
import RealEstateTracker.Persistence.SearchRepositories

/-!
# The list of matches

`ListMatches` shows a user the newest matches of all his alerts, each with the
property and with the page where it was found.
-/

namespace RealEstateTracker.Presentation

open Foundation Domain Persistence

/-! ## The query -/

/-- `JOIN … WHERE search_alerts.user_id = …`: the match is of an alert of the user. -/
def OwnedBy (userId : UserId) (db : Store) (found : MatchRow) : Bool :=
  db.alerts.any fun alert => alert.id = found.alertId ∧ alert.userId = userId

/-- `list_recent_for_user`, matches of one time in the order of the table. -/
def listRecentForUser (userId : UserId) (limit : Nat) (db : Store) : List MatchRow :=
  ((db.alertMatches.filter (OwnedBy userId db)).insertionSort
    fun a b => b.matchedAt ≤ a.matchedAt).take limit

/-- What the newest `limit` of some matches are, whatever the order of those of one time. -/
structure Newest (limit : Nat) (owned shown : List MatchRow) : Prop where
  length : shown.length = min limit owned.length
  sorted : shown.Pairwise fun a b => b.matchedAt ≤ a.matchedAt
  owned : ∃ rest, (shown ++ rest).Perm owned ∧
    ∀ found ∈ shown, ∀ other ∈ rest, other.matchedAt ≤ found.matchedAt

theorem newest_take (limit : Nat) (owned : List MatchRow) : Newest limit owned
    ((owned.insertionSort fun a b => b.matchedAt ≤ a.matchedAt).take limit) := by
  let newer (a b : MatchRow) : Prop := b.matchedAt ≤ a.matchedAt
  have hsorted : (owned.insertionSort newer).Pairwise newer :=
    @List.pairwise_insertionSort _ newer _ ⟨fun a b => Int.le_total b.matchedAt a.matchedAt⟩
      ⟨fun _ _ _ hab hbc => Int.le_trans hbc hab⟩ owned
  refine ⟨by simp, hsorted.sublist (List.take_sublist _ _),
    (owned.insertionSort newer).drop limit, ?_, ?_⟩
  · rw [List.take_append_drop]
    exact List.perm_insertionSort _ _
  · rw [← List.take_append_drop limit (owned.insertionSort newer)] at hsorted
    exact (List.pairwise_append.mp hsorted).2.2

/-! ## The use case -/

structure MatchView where
  found : MatchRow
  property : Option Property
  listingUrl : Option String

variable [PythonRuntime] [PersistenceRuntime] {C : Type} {R : C → Type}

def viewMatch (found : MatchRow) : Txn Store Write C R PyError MatchView := do
  let loaded ← Txn.query (PropertyRepository.get found.propertyId)
  let prop ← Txn.ofExcept loaded
  let url ← Txn.query (PortalListingRepository.getUrlForProperty found.propertyId)
  return ⟨found, prop, url⟩

def listMatches (userId : UserId) (limit : Nat) :
    Txn Store Write C R PyError (List MatchView) := do
  let found ← Txn.query (listRecentForUser userId limit)
  Txn.foldEach found [] fun views found => do
    let view ← viewMatch found
    return views ++ [view]

end RealEstateTracker.Presentation
