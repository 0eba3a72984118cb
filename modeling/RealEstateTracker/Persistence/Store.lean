import RealEstateTracker.Domain.Alert
import RealEstateTracker.Domain.Ports
import RealEstateTracker.Foundation.Transaction
import RealEstateTracker.Persistence.JsonColumn

/-!
# The store

The tables of the schema, the writes that the repositories flush, and the
constraints under which the database accepts a batch of them.  Portal rows are
named by their unique slug.
-/

namespace RealEstateTracker.Persistence

open Foundation Domain

/-! ## Rows -/

structure AlertRow where
  id : AlertId
  userId : UserId
  name : String
  frequencySeconds : Int
  isActive : Bool
  lastRunAt : Option DateTime
  createdAt : DateTime
  updatedAt : DateTime
  deriving DecidableEq, Repr

/-- The dictionaries with a type tag `t` and a value `v`. -/
inductive EncodedScalar where
  | bool (b : Bool)
  | int (n : Int)
  | dec (text : String)
  | str (s : String)
  deriving DecidableEq, Repr

inductive EncodedValue where
  | scalar (s : EncodedScalar)
  | tuple (items : List EncodedScalar)
  deriving DecidableEq, Repr

/-- The columns that depend on `node_type`; the check constraint allows no others. -/
inductive NodeColumns where
  | group (groupOperator : String)
  | condition (fieldKey operator : String) (value : Option EncodedValue)
  deriving DecidableEq, Repr

structure ConditionRow where
  id : Uuid
  alertId : AlertId
  parentGroupId : Option Uuid
  columns : NodeColumns
  position : Nat
  deriving DecidableEq, Repr

structure SubscriptionRow where
  alertId : AlertId
  portalSlug : String
  deriving DecidableEq, Repr

structure PropertyRow where
  id : PropertyId
  listingType : String
  propertyType : String
  landType : Option String
  provinceIne : String
  municipalityIne : Option String
  municipalityName : Option String
  district : Option String
  postalCode : Option String
  lat : Option Decimal
  lng : Option Decimal
  priceAmount : Option Decimal
  priceCurrency : Option String
  areaM2 : Option Decimal
  plotAreaM2 : Option Decimal
  pricePerM2 : Option Decimal
  rooms : Option Int
  bathrooms : Option Int
  features : Features
  attributes : List (String × String)
  images : List String
  videos : List String
  title : String
  description : String
  status : String
  publishedAt : Option DateTime
  firstSeenAt : DateTime
  lastSeenAt : DateTime
  deriving DecidableEq, Repr

structure PriceHistoryRow where
  id : Uuid
  propertyId : PropertyId
  priceAmount : Decimal
  priceCurrency : String
  observedAt : DateTime
  deriving DecidableEq, Repr

structure ListingRow where
  id : Uuid
  portalSlug : String
  propertyId : PropertyId
  externalId : String
  url : String
  rawPayload : RawPayload
  contentHash : String
  scrapedAt : DateTime

structure CacheRow where
  querySignature : String
  portalSlug : String
  propertyIds : List PropertyId
  fetchedAt : DateTime
  expiresAt : DateTime
  deriving DecidableEq, Repr

inductive ExecutionStatus where
  | success
  | partly
  | failed
  deriving DecidableEq, Repr

structure ExecutionRow where
  id : Uuid
  portalSlug : String
  querySignature : String
  status : ExecutionStatus
  listingsFound : Nat
  listingsNew : Nat
  normalizationIssues : Nat
  error : Option String
  startedAt : DateTime
  finishedAt : DateTime
  deriving DecidableEq, Repr

inductive MatchStatus where
  | new
  | notified
  | suppressed
  deriving DecidableEq, Repr

structure MatchRow where
  id : MatchId
  alertId : AlertId
  propertyId : PropertyId
  matchedAt : DateTime
  status : MatchStatus
  deriving DecidableEq, Repr

inductive ChannelType where
  | telegram
  deriving DecidableEq, Repr

/-- `encrypted` is the token that holds the delivery target. -/
structure ChannelRow where
  id : ChannelId
  userId : UserId
  channelType : ChannelType
  encrypted : String
  isEnabled : Bool
  deriving DecidableEq, Repr

inductive NotificationStatus where
  | pending
  | sent
  | failed
  deriving DecidableEq, Repr

structure NotificationRow where
  id : NotificationId
  matchId : MatchId
  channelId : ChannelId
  status : NotificationStatus
  attempts : Nat
  lastError : Option String
  createdAt : DateTime
  sentAt : Option DateTime
  deriving DecidableEq, Repr

structure Store where
  users : List UserId
  portals : List String
  alerts : List AlertRow
  conditions : List ConditionRow
  subscriptions : List SubscriptionRow
  properties : List PropertyRow
  prices : List PriceHistoryRow
  listings : List ListingRow
  caches : List CacheRow
  executions : List ExecutionRow
  alertMatches : List MatchRow
  channels : List ChannelRow
  notifications : List NotificationRow

namespace Store

def empty : Store := ⟨[], [], [], [], [], [], [], [], [], [], [], [], []⟩

end Store

/-! ## Writes -/

/-- An update names only the columns whose value differs from the one loaded. -/
def column {α : Type} [DecidableEq α] (loaded model stored : α) : α :=
  if loaded = model then stored else model

@[simp] theorem column_self {α : Type} [DecidableEq α] (loaded model : α) :
    column loaded model loaded = model := by
  unfold column
  split
  · assumption
  · rfl

theorem column_cases {α : Type} [DecidableEq α] (loaded model stored : α) :
    column loaded model stored = stored ∨ column loaded model stored = model := by
  unfold column
  split
  · exact .inl rfl
  · exact .inr rfl

def jsonColumn (loaded model stored : RawPayload) : RawPayload :=
  if payloadEq loaded model then stored else model

def AlertRow.update (loaded model stored : AlertRow) : AlertRow where
  id := stored.id
  userId := column loaded.userId model.userId stored.userId
  name := column loaded.name model.name stored.name
  frequencySeconds := column loaded.frequencySeconds model.frequencySeconds
    stored.frequencySeconds
  isActive := column loaded.isActive model.isActive stored.isActive
  lastRunAt := column loaded.lastRunAt model.lastRunAt stored.lastRunAt
  createdAt := column loaded.createdAt model.createdAt stored.createdAt
  updatedAt := column loaded.updatedAt model.updatedAt stored.updatedAt

def NotificationRow.update (loaded model stored : NotificationRow) :
    NotificationRow where
  id := stored.id
  matchId := column loaded.matchId model.matchId stored.matchId
  channelId := column loaded.channelId model.channelId stored.channelId
  status := column loaded.status model.status stored.status
  attempts := column loaded.attempts model.attempts stored.attempts
  lastError := column loaded.lastError model.lastError stored.lastError
  createdAt := column loaded.createdAt model.createdAt stored.createdAt
  sentAt := column loaded.sentAt model.sentAt stored.sentAt

def PropertyRow.update (loaded model stored : PropertyRow) : PropertyRow where
  id := stored.id
  listingType := column loaded.listingType model.listingType stored.listingType
  propertyType :=
    column loaded.propertyType model.propertyType stored.propertyType
  landType := column loaded.landType model.landType stored.landType
  provinceIne := column loaded.provinceIne model.provinceIne stored.provinceIne
  municipalityIne :=
    column loaded.municipalityIne model.municipalityIne stored.municipalityIne
  municipalityName := column loaded.municipalityName model.municipalityName
    stored.municipalityName
  district := column loaded.district model.district stored.district
  postalCode := column loaded.postalCode model.postalCode stored.postalCode
  lat := column loaded.lat model.lat stored.lat
  lng := column loaded.lng model.lng stored.lng
  priceAmount := column loaded.priceAmount model.priceAmount stored.priceAmount
  priceCurrency :=
    column loaded.priceCurrency model.priceCurrency stored.priceCurrency
  areaM2 := column loaded.areaM2 model.areaM2 stored.areaM2
  plotAreaM2 := column loaded.plotAreaM2 model.plotAreaM2 stored.plotAreaM2
  pricePerM2 := column loaded.pricePerM2 model.pricePerM2 stored.pricePerM2
  rooms := column loaded.rooms model.rooms stored.rooms
  bathrooms := column loaded.bathrooms model.bathrooms stored.bathrooms
  features := column loaded.features model.features stored.features
  attributes := column loaded.attributes model.attributes stored.attributes
  images := column loaded.images model.images stored.images
  videos := column loaded.videos model.videos stored.videos
  title := column loaded.title model.title stored.title
  description := column loaded.description model.description stored.description
  status := column loaded.status model.status stored.status
  publishedAt := column loaded.publishedAt model.publishedAt stored.publishedAt
  firstSeenAt := column loaded.firstSeenAt model.firstSeenAt stored.firstSeenAt
  lastSeenAt := column loaded.lastSeenAt model.lastSeenAt stored.lastSeenAt

def ListingRow.update (loaded model stored : ListingRow) : ListingRow where
  id := stored.id
  portalSlug := stored.portalSlug
  propertyId := column loaded.propertyId model.propertyId stored.propertyId
  externalId := stored.externalId
  url := column loaded.url model.url stored.url
  rawPayload := jsonColumn loaded.rawPayload model.rawPayload stored.rawPayload
  contentHash := column loaded.contentHash model.contentHash stored.contentHash
  scrapedAt := column loaded.scrapedAt model.scrapedAt stored.scrapedAt

def CacheRow.update (model stored : CacheRow) : CacheRow where
  querySignature := stored.querySignature
  portalSlug := stored.portalSlug
  propertyIds := model.propertyIds
  fetchedAt := model.fetchedAt
  expiresAt := model.expiresAt

inductive Write where
  | insertPortal (slug : String)
  | insertAlert (row : AlertRow)
  | updateAlert (loaded model : AlertRow)
  | insertCondition (row : ConditionRow)
  | deleteConditions (ids : List Uuid)
  | insertSubscription (row : SubscriptionRow)
  | insertProperty (row : PropertyRow)
  | updateProperty (loaded model : PropertyRow)
  | insertPrice (row : PriceHistoryRow)
  | insertListing (row : ListingRow)
  | updateListing (loaded model : ListingRow)
  | insertCache (row : CacheRow)
  | updateCache (model : CacheRow)
  | insertExecution (row : ExecutionRow)
  | insertMatch (row : MatchRow)
  | insertNotification (row : NotificationRow)
  | updateNotification (loaded model : NotificationRow)

def updateWhere {α : Type} (selects : α → Bool) (change : α → α)
    (rows : List α) : List α :=
  rows.map fun row => if selects row then change row else row

theorem find?_updateWhere {α : Type} {wanted selects : α → Bool} {change : α → α}
    (h : ∀ row, wanted (change row) = wanted row) (rows : List α) :
    (updateWhere selects change rows).find? wanted =
      (rows.find? wanted).map fun row => if selects row then change row else row := by
  rw [updateWhere, List.find?_map]
  congr 2
  funext row
  simp only [Function.comp]
  split
  · exact h row
  · rfl

namespace Write

def apply (write : Write) (db : Store) : Store :=
  match write with
  | insertPortal slug => { db with portals := db.portals ++ [slug] }
  | insertAlert row => { db with alerts := db.alerts ++ [row] }
  | updateAlert loaded model =>
      { db with
        alerts := updateWhere (·.id = model.id) (AlertRow.update loaded model)
          db.alerts }
  | insertCondition row => { db with conditions := db.conditions ++ [row] }
  | deleteConditions ids =>
      -- `ON DELETE CASCADE` finds no more: a save deletes whole trees, and the
      -- parent of a row is always a row of the same tree
      { db with
        conditions := db.conditions.filter fun row => !ids.contains row.id }
  | insertSubscription row =>
      { db with subscriptions := db.subscriptions ++ [row] }
  | insertProperty row => { db with properties := db.properties ++ [row] }
  | updateProperty loaded model =>
      { db with
        properties := updateWhere (·.id = model.id)
          (PropertyRow.update loaded model) db.properties }
  | insertPrice row => { db with prices := db.prices ++ [row] }
  | insertListing row => { db with listings := db.listings ++ [row] }
  | updateListing loaded model =>
      { db with
        listings := updateWhere (·.id = loaded.id) (ListingRow.update loaded model)
          db.listings }
  | insertCache row => { db with caches := db.caches ++ [row] }
  | updateCache model =>
      { db with
        caches := updateWhere (·.querySignature = model.querySignature)
          (CacheRow.update model) db.caches }
  | insertExecution row => { db with executions := db.executions ++ [row] }
  | insertMatch row => { db with alertMatches := db.alertMatches ++ [row] }
  | insertNotification row =>
      { db with notifications := db.notifications ++ [row] }
  | updateNotification loaded model =>
      { db with
        notifications := updateWhere (·.id = model.id)
          (NotificationRow.update loaded model) db.notifications }

/-- The constraints on one write: primary keys, `UNIQUE` and foreign keys. -/
def admitted (write : Write) (db : Store) : Bool :=
  let hasPortal (slug : String) := db.portals.contains slug
  let hasAlert (id : AlertId) := db.alerts.any (·.id = id)
  let hasProperty (id : PropertyId) := db.properties.any (·.id = id)
  match write with
  | insertPortal slug => !hasPortal slug
  | insertAlert row =>
      !hasAlert row.id && db.users.contains row.userId &&
        60 ≤ row.frequencySeconds
  | updateAlert _ model => 60 ≤ model.frequencySeconds
  | insertCondition row =>
      !db.conditions.any (·.id = row.id) && hasAlert row.alertId &&
        row.parentGroupId.all fun parent =>
          db.conditions.any (·.id = parent)
  | deleteConditions _ => true
  | insertSubscription row =>
      !db.subscriptions.contains row && hasAlert row.alertId &&
        hasPortal row.portalSlug
  | insertProperty row => !hasProperty row.id
  | updateProperty _ _ => true
  | insertPrice row =>
      !db.prices.any (·.id = row.id) && hasProperty row.propertyId
  | insertListing row =>
      !db.listings.any (fun stored => stored.id = row.id ∨
          (stored.portalSlug = row.portalSlug ∧
            stored.externalId = row.externalId)) &&
        hasPortal row.portalSlug && hasProperty row.propertyId
  | updateListing _ model => hasProperty model.propertyId
  | insertCache row =>
      !db.caches.any (·.querySignature = row.querySignature) &&
        hasPortal row.portalSlug
  | updateCache _ => true
  | insertExecution row =>
      !db.executions.any (·.id = row.id) && hasPortal row.portalSlug
  | insertMatch row =>
      !db.alertMatches.any (fun stored => stored.id = row.id ∨
          (stored.alertId = row.alertId ∧
            stored.propertyId = row.propertyId)) &&
        hasAlert row.alertId && hasProperty row.propertyId
  | insertNotification row =>
      !db.notifications.any (·.id = row.id) &&
        db.alertMatches.any (·.id = row.matchId) &&
        db.channels.any (·.id = row.channelId)
  | updateNotification _ _ => true

end Write

/-- Each write must satisfy the constraints after the ones before it. -/
def admitsAll (db : Store) : List Write → Bool
  | [] => true
  | write :: writes =>
      write.admitted db && admitsAll (write.apply db) writes

instance : Database Store Write where
  apply := Write.apply
  admits := admitsAll

theorem apply_eq (write : Write) (db : Store) :
    Database.apply write db = write.apply db := rfl

theorem admits_eq (writes : List Write) (db : Store) :
    Database.admits db writes = admitsAll db writes := rfl

theorem admitsAll_append (db : Store) (first second : List Write) :
    admitsAll db (first ++ second) =
      (admitsAll db first && admitsAll (applyAll first db) second) := by
  induction first generalizing db with
  | nil => rfl
  | cons write first ih =>
      rw [List.cons_append, admitsAll, ih, admitsAll, Bool.and_assoc]
      rfl

/-- What every admitted write keeps, a committed batch keeps. -/
theorem keeps_of_admits {P : Write → Prop} {J : Store → Prop}
    {writes : List Write} {db : Store}
    (hstep : ∀ write db, P write → write.admitted db = true → J db →
      J (write.apply db))
    (hwrites : ∀ write ∈ writes, P write)
    (hadmits : Database.admits db writes = true) (h : J db) :
    J (applyAll writes db) := by
  rw [admits_eq] at hadmits
  induction writes generalizing db with
  | nil => exact h
  | cons write writes ih =>
      rw [admitsAll, Bool.and_eq_true] at hadmits
      obtain ⟨hwrite, hwrites⟩ := List.forall_mem_cons.mp hwrites
      exact ih hwrites hadmits.2 (hstep write db hwrite hadmits.1 h)

/-! ## Tables -/

/-- The tables that writes go to; users and channels are only read. -/
inductive Table where
  | portals
  | alerts
  | conditions
  | subscriptions
  | properties
  | prices
  | listings
  | caches
  | executions
  | alertMatches
  | notifications
  deriving DecidableEq, Repr

def Write.table : Write → Table
  | insertPortal _ => .portals
  | insertAlert _ | updateAlert _ _ => .alerts
  | insertCondition _ | deleteConditions _ => .conditions
  | insertSubscription _ => .subscriptions
  | insertProperty _ | updateProperty _ _ => .properties
  | insertPrice _ => .prices
  | insertListing _ | updateListing _ _ => .listings
  | insertCache _ | updateCache _ => .caches
  | insertExecution _ => .executions
  | insertMatch _ => .alertMatches
  | insertNotification _ | updateNotification _ _ => .notifications

section Frames

variable {writes : List Write}

theorem channels_applyAll (writes : List Write) (db : Store) :
    (applyAll writes db).channels = db.channels :=
  applyAll_frame Store.channels (fun write _ _ => by cases write <;> rfl) db

theorem mem_portals_applyAll {slug : String} {db : Store} (writes : List Write)
    (h : slug ∈ db.portals) : slug ∈ (applyAll writes db).portals := by
  induction writes generalizing db with
  | nil => exact h
  | cons write writes ih =>
      refine ih ?_
      cases write with
      | insertPortal new => exact List.mem_append_left _ h
      | _ => exact h

theorem listings_applyAll (h : ∀ write ∈ writes, write.table ≠ .listings)
    (db : Store) : (applyAll writes db).listings = db.listings :=
  applyAll_frame Store.listings (fun write hwrite _ => by
    cases write <;> first | rfl | exact absurd rfl (h _ hwrite)) db

theorem properties_applyAll (h : ∀ write ∈ writes, write.table ≠ .properties)
    (db : Store) : (applyAll writes db).properties = db.properties :=
  applyAll_frame Store.properties (fun write hwrite _ => by
    cases write <;> first | rfl | exact absurd rfl (h _ hwrite)) db

theorem alertMatches_applyAll (h : ∀ write ∈ writes, write.table ≠ .alertMatches)
    (db : Store) : (applyAll writes db).alertMatches = db.alertMatches :=
  applyAll_frame Store.alertMatches (fun write hwrite _ => by
    cases write <;> first | rfl | exact absurd rfl (h _ hwrite)) db

end Frames

end RealEstateTracker.Persistence
