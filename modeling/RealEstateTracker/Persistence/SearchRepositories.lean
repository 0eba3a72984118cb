import RealEstateTracker.Persistence.PropertyRepository

/-!
# Portals, listings, cached searches and executions

The repositories that a search writes to besides properties.  A portal row is
created by the first row that refers to it.
-/

namespace RealEstateTracker.Persistence

open Foundation Domain

/-- `get_or_create_portal`. -/
def portalWrites (slug : String) (db : Store) : List Write :=
  if db.portals.contains slug then [] else [.insertPortal slug]

/-! ## Portal listings -/

namespace PortalListingRepository

def find (portalSlug externalId : String) (db : Store) : Option ListingRow :=
  db.listings.find? fun row =>
    row.portalSlug = portalSlug ∧ row.externalId = externalId

def findUnchangedPropertyId (portalSlug externalId contentHash : String)
    (db : Store) : Option PropertyId :=
  match find portalSlug externalId db with
  | some row => if row.contentHash = contentHash then some row.propertyId else none
  | none => none

def upsertWrites (listing : RawListing) (propertyId : PropertyId)
    (contentHash : String) (stamp : Stamp) (db : Store) : List Write :=
  let row : ListingRow :=
    { id := Uuid.drawn stamp 0
      portalSlug := listing.portalSlug
      propertyId
      externalId := listing.externalId
      url := listing.url
      rawPayload := listing.raw
      contentHash
      scrapedAt := listing.scrapedAt }
  match find listing.portalSlug listing.externalId db with
  | some existing => [.updateListing existing row]
  | none => portalWrites listing.portalSlug db ++ [.insertListing row]

def getUrlForProperty (propertyId : PropertyId) (db : Store) : Option String :=
  (db.listings.find? (·.propertyId = propertyId)).map (·.url)

end PortalListingRepository

/-! ## Cached searches -/

namespace SearchCacheRepository

def find (signature : String) (db : Store) : Option CacheRow :=
  db.caches.find? (·.querySignature = signature)

/-- The cached identifiers, unless they expired. -/
def get (signature : String) (now : DateTime) (db : Store) :
    Option (List PropertyId) :=
  match find signature db with
  | none => none
  | some row => if row.expiresAt ≤ now then none else some row.propertyIds

def putWrites (signature portalSlug : String) (propertyIds : List PropertyId)
    (fetchedAt : DateTime) (ttlSeconds : Int) (db : Store) : List Write :=
  let row : CacheRow :=
    { querySignature := signature
      portalSlug
      propertyIds
      fetchedAt
      expiresAt := fetchedAt + ttlSeconds * 1000000 }
  match find signature db with
  | some _ => [.updateCache row]
  | none => portalWrites portalSlug db ++ [.insertCache row]

end SearchCacheRepository

/-! ## Executions -/

namespace SearchExecutionRepository

structure Attempt where
  portalSlug : String
  querySignature : String
  status : ExecutionStatus
  listingsFound : Nat
  listingsNew : Nat
  normalizationIssues : Nat
  error : Option String
  startedAt : DateTime
  finishedAt : DateTime
  deriving DecidableEq, Repr

def row (attempt : Attempt) (stamp : Stamp) : ExecutionRow where
  id := Uuid.drawn stamp 0
  portalSlug := attempt.portalSlug
  querySignature := attempt.querySignature
  status := attempt.status
  listingsFound := attempt.listingsFound
  listingsNew := attempt.listingsNew
  normalizationIssues := attempt.normalizationIssues
  error := attempt.error
  startedAt := attempt.startedAt
  finishedAt := attempt.finishedAt

def recordWrites (attempt : Attempt) (stamp : Stamp) (db : Store) : List Write :=
  portalWrites attempt.portalSlug db ++ [.insertExecution (row attempt stamp)]

theorem recordWrites_of_mem {attempt : Attempt} {db : Store}
    (h : attempt.portalSlug ∈ db.portals) (stamp : Stamp) :
    recordWrites attempt stamp db = [.insertExecution (row attempt stamp)] := by
  rw [recordWrites, portalWrites, if_pos (List.contains_iff_mem.mpr h)]
  rfl

end SearchExecutionRepository

end RealEstateTracker.Persistence
