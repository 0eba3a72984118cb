import RealEstateTracker.Domain.Specification
import RealEstateTracker.Persistence.AlertRepository

/-!
# The property repository

Properties are flattened into rows and rebuilt by their constructors.  Numeric
columns round, so a property that was stored may read back differently, or not
at all.
-/

namespace RealEstateTracker.Persistence

open Foundation Domain

/--
What the database and the encryption library compute: the decimal that a numeric
column with a number of decimal places returns for the one it was given, and the
target that an encrypted configuration holds.
-/
class PersistenceRuntime where
  numericColumn : Nat → Decimal → Decimal
  decryptTarget : String → Except PyError String

/-- Columns that keep every decimal, and tokens that are their target. -/
@[reducible] def PersistenceRuntime.plain : PersistenceRuntime where
  numericColumn _ value := value
  decryptTarget token := .ok token

namespace PropertyRepository

/-- `_to_model`, where computing the price per square metre may raise. -/
def toModel (prop : Property) (now : DateTime) : Except PyError PropertyRow := do
  let pricePerM2 ← prop.pricePerM2
  return {
    id := prop.id
    listingType := prop.listingType.value
    propertyType := prop.propertyType.value
    landType := prop.landType.map (·.value)
    provinceIne := prop.location.province.code
    municipalityIne := prop.location.municipality.map (·.ineCode)
    municipalityName := prop.location.municipality.map (·.name)
    district := prop.location.district
    postalCode := prop.location.postalCode
    lat := prop.location.geo.map (·.latitude)
    lng := prop.location.geo.map (·.longitude)
    priceAmount := prop.price.map (·.amount)
    priceCurrency := prop.price.map (·.currency.value)
    areaM2 := prop.area.map (·.squareMeters)
    plotAreaM2 := prop.plotArea.map (·.squareMeters)
    pricePerM2 := pricePerM2.map (·.amount)
    rooms := prop.rooms
    bathrooms := prop.bathrooms
    features := prop.features
    attributes := prop.attributes
    images := prop.media.images
    videos := prop.media.videos
    title := prop.title
    description := prop.description
    status := prop.status.value
    publishedAt := prop.publishedAt
    firstSeenAt := now
    lastSeenAt := now }

theorem id_toModel {prop : Property} {now : DateTime} {row : PropertyRow}
    (h : toModel prop now = .ok row) : row.id = prop.id := by
  unfold toModel at h
  cases hppm : prop.pricePerM2 with
  | error error => simp [hppm, bind, Except.bind] at h
  | ok value =>
      simp only [hppm, bind, Except.bind, pure, Except.pure, Except.ok.injEq] at h
      rw [← h]

theorem lastSeenAt_toModel {prop : Property} {now : DateTime} {row : PropertyRow}
    (h : toModel prop now = .ok row) : row.lastSeenAt = now := by
  obtain ⟨pricePerM2, -, h⟩ := bind_eq_ok.mp h
  rw [← pure_eq_ok.mp h]

theorem toModel_ne_scraperError (prop : Property) (now : DateTime)
    (message : String) : toModel prop now ≠ .error (.scraperError message) := by
  intro h
  unfold toModel at h
  cases hppm : prop.pricePerM2 with
  | error error =>
      simp only [hppm, bind, Except.bind, Except.error.injEq] at h
      exact prop.pricePerM2_ne_scraperError message (h ▸ hppm)
  | ok value => simp [hppm, bind, Except.bind, pure, Except.pure] at h

/-- A string that is neither `None` nor empty. -/
def nonempty (s : Option String) : Option String := s.filter (· ≠ "")

def whenThere {α β : Type} (column : Option α) (build : α → Except PyError β) :
    Except PyError (Option β) :=
  match column with
  | none => .ok none
  | some value => (build value).map some

def whenBoth {α β γ : Type} (first : Option α) (second : Option β)
    (build : α → β → Except PyError γ) : Except PyError (Option γ) :=
  match first, second with
  | some a, some b => (build a b).map some
  | _, _ => .ok none

section Reads

variable [PythonRuntime] [runtime : PersistenceRuntime]

/-- The row as a query returns it. -/
def readRow (row : PropertyRow) : PropertyRow :=
  { row with
    lat := row.lat.map (runtime.numericColumn 6)
    lng := row.lng.map (runtime.numericColumn 6)
    priceAmount := row.priceAmount.map (runtime.numericColumn 2)
    areaM2 := row.areaM2.map (runtime.numericColumn 2)
    plotAreaM2 := row.plotAreaM2.map (runtime.numericColumn 2)
    pricePerM2 := row.pricePerM2.map (runtime.numericColumn 2) }

def find (id : PropertyId) (db : Store) : Option PropertyRow :=
  (db.properties.find? (·.id = id)).map readRow

def toDomain (row : PropertyRow) : Except PyError Property := do
  let municipality ← whenBoth (nonempty row.municipalityIne)
    (nonempty row.municipalityName) Municipality.new
  let geo ← whenBoth row.lat row.lng GeoPoint.new
  let location ← Location.new (.fromCode row.provinceIne) municipality
    row.district row.postalCode geo
  let price ← whenBoth row.priceAmount (nonempty row.priceCurrency)
    fun amount currency => do Money.new amount (← Currency.ofValue currency)
  let listingType ← ListingType.ofValue row.listingType
  let propertyType ← PropertyType.ofValue row.propertyType
  let status ← ListingStatus.ofValue row.status
  let landType ← whenThere (nonempty row.landType) LandType.ofValue
  let area ← whenThere row.areaM2 Area.new
  let plotArea ← whenThere row.plotAreaM2 Area.new
  let media ← Media.new row.images row.videos
  Property.new row.id listingType propertyType location row.title status
    landType price area plotArea row.rooms row.bathrooms row.features
    row.attributes row.description media row.publishedAt

def get (id : PropertyId) (db : Store) : Except PyError (Option Property) :=
  match find id db with
  | none => .ok none
  | some row => (toDomain row).map some

omit runtime in
theorem id_of_toDomain {row : PropertyRow} {p : Property}
    (h : toDomain row = .ok p) : p.id = row.id := by
  obtain ⟨municipality, -, h⟩ := bind_eq_ok.mp h
  obtain ⟨geo, -, h⟩ := bind_eq_ok.mp h
  obtain ⟨location, -, h⟩ := bind_eq_ok.mp h
  obtain ⟨price, -, h⟩ := bind_eq_ok.mp h
  obtain ⟨listingType, -, h⟩ := bind_eq_ok.mp h
  obtain ⟨propertyType, -, h⟩ := bind_eq_ok.mp h
  obtain ⟨status, -, h⟩ := bind_eq_ok.mp h
  obtain ⟨landType, -, h⟩ := bind_eq_ok.mp h
  obtain ⟨area, -, h⟩ := bind_eq_ok.mp h
  obtain ⟨plotArea, -, h⟩ := bind_eq_ok.mp h
  obtain ⟨media, -, h⟩ := bind_eq_ok.mp h
  obtain ⟨-, -, -, rfl⟩ := Property.eq_of_new h
  rfl

theorem id_of_get {id : PropertyId} {db : Store} {p : Property}
    (h : get id db = .ok (some p)) : p.id = id := by
  unfold get find at h
  cases hfind : db.properties.find? (·.id = id) with
  | none => simp [hfind] at h
  | some row =>
      have hid : row.id = id := by simpa using List.find?_some hfind
      rw [hfind] at h
      cases hrow : toDomain (readRow row) with
      | error error => simp [hrow, Except.map] at h
      | ok prop =>
          obtain rfl : prop = p := by simpa [hrow, Except.map] using h
          exact (id_of_toDomain hrow).trans hid

/-- A property that has no price keeps the prices recorded for it. -/
def priceChanged (existing : Option PropertyRow) (price : Money) : Bool :=
  match existing with
  | none => true
  | some row =>
      match row.priceAmount with
      | none => true
      | some amount =>
          !(amount.eq price.amount).toOption.getD false ||
            row.priceCurrency != some price.currency.value

def priceWrites (existing : Option PropertyRow) (prop : Property)
    (now : DateTime) (stamp : Stamp) : List Write :=
  match prop.price with
  | none => []
  | some price =>
      if priceChanged existing price then
        [.insertPrice
          { id := Uuid.drawn stamp 0
            propertyId := prop.id
            priceAmount := price.amount
            priceCurrency := price.currency.value
            observedAt := now }]
      else []

def rowWrite (existing : Option PropertyRow) (row : PropertyRow) : Write :=
  match existing with
  | none => .insertProperty row
  | some loaded =>
      .updateProperty loaded { row with firstSeenAt := loaded.firstSeenAt }

def addWrites (prop : Property) (row : PropertyRow) (now : DateTime)
    (stamp : Stamp) (db : Store) : List Write :=
  rowWrite (find prop.id db) row ::
    priceWrites (find prop.id db) prop now stamp

end Reads

end PropertyRepository

end RealEstateTracker.Persistence
