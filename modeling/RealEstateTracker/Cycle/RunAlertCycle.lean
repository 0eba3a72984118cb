import RealEstateTracker.Application.SearchPlanner
import RealEstateTracker.Foundation.Interleaving
import RealEstateTracker.Persistence.NotificationRepositories
import RealEstateTracker.Persistence.SearchRepositories

/-!
# The alert cycle

One worker for each planned query: candidates from the cache or from a scrape,
then every alert of the query is evaluated against them, and everything commits
together.  A failed scrape is recorded, and the cycle goes on without it.
-/

namespace RealEstateTracker.Cycle

open Foundation Domain Application Persistence

/-! ## Content hashes -/

def jsonEscape (c : Char) : Text :=
  let unit (code : Nat) := "\\u".toList ++ Text.hexDigits 4 code
  if c = Text.quotationMark ∨ c = '\\' then ['\\', c]
  else if c = '\n' then "\\n".toList
  else if c = '\r' then "\\r".toList
  else if c = '\t' then "\\t".toList
  else if c.toNat = 8 then "\\b".toList
  else if c.toNat = 12 then "\\f".toList
  else if 0x20 ≤ c.toNat ∧ c.toNat < 0x7f then [c]
  else if c.toNat < 0x10000 then unit c.toNat
  else unit (0xd800 + (c.toNat - 0x10000) / 0x400) ++
    unit (0xdc00 + (c.toNat - 0x10000) % 0x400)

def jsonString (s : String) : Text :=
  Text.quotationMark :: s.toList.flatMap jsonEscape ++ [Text.quotationMark]

/-- `{…}` over items that are sorted by key. -/
def jsonObject (fields : List (String × Text)) : Text :=
  '\x7b' :: commaSeparated ((fields.insertionSort fun a b => a.1 ≤ b.1).map
    fun (key, value) => jsonString key ++ ": ".toList ++ value) ++ ['\x7d']

mutual

/-- `json.dumps(value, sort_keys=True)`. -/
def jsonDumps : Json → Text
  | .null => "null".toList
  | .bool b => if b then "true".toList else "false".toList
  | .int n => Text.ofInt n
  | .float text => text.toList
  | .str s => jsonString s
  | .list items => '[' :: commaSeparated (dumpItems items) ++ [']']
  | .obj fields => jsonObject (dumpFields fields)

def dumpItems : List Json → List Text
  | [] => []
  | item :: rest => jsonDumps item :: dumpItems rest

def dumpFields : List (String × Json) → List (String × Text)
  | [] => []
  | (key, value) :: rest => (key, jsonDumps value) :: dumpFields rest

end

def contentHash [runtime : PythonRuntime] (raw : RawPayload) : String :=
  runtime.sha256 (String.ofList (jsonObject (dumpFields raw.entries)))

/-! ## Collaborators -/

/--
What a worker asks of the world: the clock of the cycle and the one of the
property repository, the scraper and the normalizer of a portal, a fetch, and
the normalization of a listing.
-/
inductive CycleCall where
  | clock
  | utcNow
  | scraperForPortal (portalSlug : String)
  | fetch (query : PortalQuery)
  | normalizerForPortal (portalSlug : String)
  | normalize (portalSlug : String) (listing : RawListing)

/-- Every collaborator but a clock may raise. -/
abbrev CycleAnswer : CycleCall → Type
  | .clock | .utcNow => DateTime
  | .scraperForPortal _ | .normalizerForPortal _ => Except PyError Unit
  | .fetch _ => Except PyError (List RawListing)
  | .normalize _ _ => Except PyError NormalizationResult

abbrev CycleTxn (α : Type) :=
  Txn Store Write CycleCall CycleAnswer PyError α

abbrev CycleSession := Session Write CycleCall CycleAnswer

abbrev CycleSys := Sys Store Write CycleCall CycleAnswer PyError (Bool × Nat)

def clock : CycleTxn DateTime := .call .clock fun now => .done now

def utcNow : CycleTxn DateTime := .call .utcNow fun now => .done now

def scraperForPortal (portalSlug : String) : CycleTxn Unit :=
  .call (.scraperForPortal portalSlug) fun answer => .ofExcept answer

def fetch (portalQuery : PortalQuery) : CycleTxn (List RawListing) :=
  .call (.fetch portalQuery) fun answer => .ofExcept answer

def normalizerForPortal (portalSlug : String) : CycleTxn Unit :=
  .call (.normalizerForPortal portalSlug) fun answer => .ofExcept answer

def normalize (portalSlug : String) (listing : RawListing) :
    CycleTxn NormalizationResult :=
  .call (.normalize portalSlug listing) fun answer => .ofExcept answer

/-! ## Candidates -/

variable [PythonRuntime] [PersistenceRuntime]

structure RunAlertCycle where
  capabilities : Dict String PortalCapabilities
  registry : FieldRegistry
  cacheTtlSeconds : Int
  maxConcurrencyForPortal : String → Nat

/-- What the loop over the listings of a page accumulates. -/
structure Resolved where
  propertyIds : List PropertyId
  listingsNew : Nat
  normalizationIssues : Nat

def addProperty (prop : Property) : CycleTxn Unit := do
  let now ← utcNow
  let row ← Txn.ofExcept (PropertyRepository.toModel prop now)
  Txn.exec (PropertyRepository.addWrites prop row now)

def storeListing (listing : RawListing) (resolved : Resolved)
    (result : NormalizationResult) : CycleTxn Resolved :=
  let issues := resolved.normalizationIssues + result.issues.length
  match result.property with
  | none => pure { resolved with normalizationIssues := issues }
  | some prop => do
      addProperty prop
      Txn.exec (PortalListingRepository.upsertWrites listing prop.id
        (contentHash listing.raw))
      return ⟨resolved.propertyIds ++ [prop.id], resolved.listingsNew + 1, issues⟩

def resolveListing (portalSlug : String) (resolved : Resolved)
    (listing : RawListing) : CycleTxn Resolved := do
  let unchanged ← Txn.query (PortalListingRepository.findUnchangedPropertyId
    listing.portalSlug listing.externalId (contentHash listing.raw))
  match unchanged with
  | some propertyId =>
      return { resolved with
        propertyIds := resolved.propertyIds ++ [propertyId] }
  | none => do
      let result ← normalize portalSlug listing
      storeListing listing resolved result

def recordExecution (attempt : SearchExecutionRepository.Attempt) :
    CycleTxn Unit :=
  Txn.exec (SearchExecutionRepository.recordWrites attempt)

def successAttempt (planned : PlannedQuery) (listings : List RawListing)
    (resolved : Resolved) (startedAt finishedAt : DateTime) :
    SearchExecutionRepository.Attempt where
  portalSlug := planned.portalSlug
  querySignature := planned.signature
  status := .success
  listingsFound := listings.length
  listingsNew := resolved.listingsNew
  normalizationIssues := resolved.normalizationIssues
  error := none
  startedAt := startedAt
  finishedAt := finishedAt

def failedAttempt (planned : PlannedQuery) (error : String)
    (startedAt finishedAt : DateTime) : SearchExecutionRepository.Attempt where
  portalSlug := planned.portalSlug
  querySignature := planned.signature
  status := .failed
  listingsFound := 0
  listingsNew := 0
  normalizationIssues := 0
  error := some error
  startedAt := startedAt
  finishedAt := finishedAt

namespace RunAlertCycle

def scrapeCandidates (cycle : RunAlertCycle) (planned : PlannedQuery)
    (now : DateTime) : CycleTxn (List PropertyId) := do
  scraperForPortal planned.portalSlug
  let listings ← fetch planned.query
  normalizerForPortal planned.portalSlug
  let resolved ← Txn.foldEach listings ⟨[], 0, 0⟩
    (resolveListing planned.portalSlug)
  Txn.exec fun _ => SearchCacheRepository.putWrites planned.signature
    planned.portalSlug resolved.propertyIds now cycle.cacheTtlSeconds
  let finishedAt ← clock
  recordExecution (successAttempt planned listings resolved now finishedAt)
  return resolved.propertyIds

def resolveCandidates (cycle : RunAlertCycle) (planned : PlannedQuery)
    (now : DateTime) : CycleTxn (List PropertyId) := do
  let cached ← Txn.query (SearchCacheRepository.get planned.signature now)
  match cached with
  | some propertyIds => return propertyIds
  | none => scrapeCandidates cycle planned now

/-- One read for each identifier; an identifier without a row is skipped. -/
def loadCandidates (propertyIds : List PropertyId) : CycleTxn (List Property) :=
  Txn.foldEach propertyIds [] fun candidates propertyId => do
    let found ← Txn.query (PropertyRepository.get propertyId)
    let prop ← Txn.ofExcept found
    return candidates ++ prop.toList

/-! ## Matches -/

/-- A new match is queued on every enabled channel of the owner. -/
def persistMatch (userId : UserId) (now : DateTime) (created : Nat)
    (found : AlertMatch) : CycleTxn Nat := do
  let matchId ← MatchRepository.addIfNew found
  match matchId with
  | none => return created
  | some matchId => do
      let listed ← Txn.query
        (NotificationChannelRepository.listEnabledForUser userId)
      let channels ← Txn.ofExcept listed
      Txn.forEach channels fun channel =>
        Txn.exec (NotificationRepository.enqueueWrites matchId channel.id now)
      return created + 1

def persistAlert (cycle : RunAlertCycle) (candidates : List Property)
    (now : DateTime) (created : Nat) (alert : SearchAlert) : CycleTxn Nat := do
  let found ← Txn.ofExcept
    (AlertEngine.evaluate cycle.registry alert candidates now)
  let created ← Txn.foldEach found created (persistMatch alert.userId now)
  AlertRepository.add (alert.markRun now)
  return created

def evaluateAndPersist (cycle : RunAlertCycle) (alerts : List SearchAlert)
    (candidates : List Property) (now : DateTime) : CycleTxn Nat :=
  Txn.foldEach alerts 0 (persistAlert cycle candidates now)

/-! ## One worker -/

def recordFailure (planned : PlannedQuery) (error : String) (now : DateTime) :
    CycleTxn (Bool × Nat) := do
  let finishedAt ← clock
  recordExecution (failedAttempt planned error now finishedAt)
  Txn.commitOr .integrityError
  return (false, 0)

def persistMatches (cycle : RunAlertCycle) (planned : PlannedQuery)
    (propertyIds : List PropertyId) (now : DateTime) : CycleTxn (Bool × Nat) := do
  let candidates ← loadCandidates propertyIds
  let created ← evaluateAndPersist cycle planned.alerts candidates now
  Txn.commitOr .integrityError
  return (true, created)

/-- Only a `ScraperError` is caught, and only out of `resolveCandidates`. -/
def runOne (cycle : RunAlertCycle) (planned : PlannedQuery) :
    CycleTxn (Bool × Nat) := do
  let now ← clock
  let outcome ← (resolveCandidates cycle planned now).attempt
  match outcome with
  | .ok propertyIds => persistMatches cycle planned propertyIds now
  | .error (.scraperError error) => recordFailure planned error now
  | .error error => Txn.raise error

/-- The workers of a plan, numbered as in the plan. -/
def worker (cycle : RunAlertCycle) (queries : List PlannedQuery) (i : Nat) :
    CycleTxn (Bool × Nat) :=
  match queries[i]? with
  | some planned => cycle.runOne planned
  | none => .done (true, 0)

end RunAlertCycle

/-! ## The report -/

structure RunAlertCycleReport where
  queriesPlanned : Nat
  queriesSucceeded : Nat
  queriesFailed : Nat
  matchesCreated : Nat
  deriving DecidableEq, Repr

/-- The report, or the exception of the first worker in the plan that raised one. -/
def report (outcomes : List (Except PyError (Bool × Nat))) :
    Except PyError RunAlertCycleReport := do
  let outcomes ← outcomes.mapM id
  return {
    queriesPlanned := outcomes.length
    queriesSucceeded := (outcomes.filter fun outcome => outcome.1).length
    queriesFailed := (outcomes.filter fun outcome => !outcome.1).length
    matchesCreated := (outcomes.map fun outcome => outcome.2).sum }

end RealEstateTracker.Cycle
