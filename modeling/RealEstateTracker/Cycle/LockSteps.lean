import RealEstateTracker.Cycle.RunAlertCycle
import RealEstateTracker.Foundation.Locking

/-!
# The locks of a worker

The same worker once more, reduced to what makes workers wait: the locks it
takes and the statements of its session.  What the tables answer is a parameter,
since it decides which statements follow but depends on the other workers.

The database has one write lock.  A transaction takes it when it first flushes a
write, and keeps it until it ends; a query flushes what is pending before it runs.
-/

namespace RealEstateTracker.Cycle

open Foundation Foundation.Locking Domain Application Persistence

inductive CycleLock where
  | portalSemaphore (portalSlug : String)
  | signatureLock (signature : String)
  | alertMutationLock
  | databaseLock
  deriving DecidableEq, Repr

def RunAlertCycle.capacity (cycle : RunAlertCycle) : CycleLock → Nat
  | .portalSemaphore portalSlug => cycle.maxConcurrencyForPortal portalSlug
  | .signatureLock _ | .alertMutationLock | .databaseLock => 1

inductive LockStep where
  | acquire (lock : CycleLock)
  | release (lock : CycleLock)
  /-- A query; it flushes first. -/
  | select
  /-- A row is added or changed, in the session only. -/
  | write
  | flush
  | commit
  deriving DecidableEq, Repr

/-! ## The write lock of a session -/

/-- Whether writes are pending, and whether the session has the write lock. -/
structure LockSession where
  pending : Bool
  writing : Bool
  deriving DecidableEq, Repr

namespace LockSession

def idle : LockSession := ⟨false, false⟩

def flushed (s : LockSession) : LockSession := ⟨false, s.pending || s.writing⟩

def flushOps (s : LockSession) : List (LockOp CycleLock) :=
  if s.pending && !s.writing then [.acquire .databaseLock] else []

def endOps (s : LockSession) : List (LockOp CycleLock) :=
  if s.writing then [.release .databaseLock] else []

def after (s : LockSession) : List LockStep → LockSession
  | [] => s
  | .write :: rest => after { s with pending := true } rest
  | .select :: rest | .flush :: rest => after s.flushed rest
  | _ :: rest => after s rest

/-- The lock operations of a worker; the unit of work rolls back when it is left. -/
def lockOps (s : LockSession) : List LockStep → List (LockOp CycleLock)
  | [] => s.endOps
  | .acquire lock :: rest => .acquire lock :: s.lockOps rest
  | .release lock :: rest => .release lock :: s.lockOps rest
  | .write :: rest => lockOps { s with pending := true } rest
  | .select :: rest | .flush :: rest => s.flushOps ++ s.flushed.lockOps rest
  | .commit :: rest => s.flushOps ++ s.flushed.endOps ++ idle.lockOps rest

end LockSession

/-! ## Statements of the repositories -/

namespace LockSteps

def getOrCreatePortal (known : Bool) : List LockStep :=
  .select :: if known then [] else [.write, .flush]

/-- `Session.get` asks nothing for a row that the session has at hand. -/
def sessionGet (loaded : Bool) : List LockStep :=
  if loaded then [] else [.select]

/-- `Session.merge` flushes, and then loads without flushing. -/
def merge : List LockStep := [.flush, .write]

def addProperty (loaded priceChanged : Bool) : List LockStep :=
  sessionGet loaded ++ merge ++ [.flush] ++
    if priceChanged then [.write] else []

def find (portalKnown : Bool) : List LockStep :=
  .select :: if portalKnown then [.select] else []

def upsert (portalKnown listed : Bool) : List LockStep :=
  find portalKnown ++
    if portalKnown && listed then [.write]
    else getOrCreatePortal portalKnown ++ [.write]

def putCache (loaded cached portalKnown : Bool) : List LockStep :=
  sessionGet loaded ++
    if cached then [.write] else getOrCreatePortal portalKnown ++ [.write]

def record (portalKnown : Bool) : List LockStep :=
  getOrCreatePortal portalKnown ++ [.write]

def addIfNew (isNew : Bool) : List LockStep :=
  .select :: if isNew then [.write] else []

def listEnabledForUser : List LockStep := [.select]

def enqueue (isNew : Bool) : List LockStep :=
  .select :: if isNew then [.write] else []

/-! ## What the tables answer -/

structure StoredVisit where
  loaded : Bool
  priceChanged : Bool
  portalKnown : Bool
  listed : Bool
  deriving DecidableEq, Repr

/-- `stored` is `none` for a listing that was not normalized to a property. -/
structure ListingVisit where
  portalKnown : Bool
  unchanged : Bool
  stored : Option StoredVisit
  deriving DecidableEq, Repr

structure ScrapeVisit where
  listings : List ListingVisit
  cacheLoaded : Bool
  cached : Bool
  putPortalKnown : Bool
  recordPortalKnown : Bool
  deriving DecidableEq, Repr

inductive Resolution where
  | hit
  | scraped (visit : ScrapeVisit)
  | failed (portalKnown : Bool)
  deriving DecidableEq, Repr

/-- `enqueued` tells for each channel whether its notification is new. -/
structure MatchVisit where
  isNew : Bool
  enqueued : List Bool
  deriving DecidableEq, Repr

structure PortalVisit where
  known : Bool
  subscribed : Bool
  deriving DecidableEq, Repr

structure AlertVisit where
  found : List MatchVisit
  portal : String → PortalVisit

structure QueryVisit where
  resolution : Resolution
  candidates : List Bool
  alerts : Nat → AlertVisit

/-! ## One worker -/

def resolveListing (visit : ListingVisit) : List LockStep :=
  find visit.portalKnown ++
    if visit.portalKnown && visit.unchanged then []
    else match visit.stored with
      | none => []
      | some stored =>
          addProperty stored.loaded stored.priceChanged ++
            upsert stored.portalKnown stored.listed

def scrapeCandidates (visit : ScrapeVisit) : List LockStep :=
  visit.listings.flatMap resolveListing ++
    putCache visit.cacheLoaded visit.cached visit.putPortalKnown ++
    record visit.recordPortalKnown

def resolveCandidates (resolution : Resolution) : List LockStep :=
  .select :: match resolution with
    | .scraped visit => scrapeCandidates visit
    | .hit | .failed _ => []

def loadCandidates (loaded : List Bool) : List LockStep :=
  loaded.flatMap sessionGet

def persistMatch (visit : MatchVisit) : List LockStep :=
  addIfNew visit.isNew ++
    if visit.isNew then listEnabledForUser ++ visit.enqueued.flatMap enqueue
    else []

def subscribe (visit : PortalVisit) : List LockStep :=
  getOrCreatePortal visit.known ++ if visit.subscribed then [] else [.write]

/-- The rows of the conditions are new at each save, so a save always writes. -/
def addAlert (alert : SearchAlert) (portal : String → PortalVisit) :
    List LockStep :=
  merge ++ .select ::
    alert.portalSlugs.sorted.flatMap fun slug => subscribe (portal slug)

def persistAlert (alert : SearchAlert) (visit : AlertVisit) : List LockStep :=
  .acquire .alertMutationLock ::
    (visit.found.flatMap persistMatch ++ addAlert alert visit.portal ++
      [.release .alertMutationLock])

def evaluateAndPersist (alerts : List SearchAlert) (visits : Nat → AlertVisit) :
    List LockStep :=
  (alerts.mapIdx fun n alert => persistAlert alert (visits n)).flatten

/-- A failed scrape has given back both locks when it is recorded. -/
def runOne (planned : PlannedQuery) (visit : QueryVisit) : List LockStep :=
  [.acquire (.portalSemaphore planned.portalSlug),
    .acquire (.signatureLock planned.signature)] ++
  resolveCandidates visit.resolution ++
  [.release (.signatureLock planned.signature),
    .release (.portalSemaphore planned.portalSlug)] ++
  (match visit.resolution with
    | .failed portalKnown => record portalKnown
    | .hit | .scraped _ =>
        loadCandidates visit.candidates ++
          evaluateAndPersist planned.alerts visit.alerts) ++
  [.commit]

end LockSteps

end RealEstateTracker.Cycle
