import RealEstateTracker.Domain.Vocabulary

/-!
# Value objects and the canonical property

Each structure carries what its constructor checks; `new` performs the check in
the order of the source and raises as it does.
-/

namespace RealEstateTracker.Domain

open Foundation

def compared (result : Except DecimalSignal Bool) : Except PyError Bool :=
  result.mapError PyError.decimal

def zeroDecimal : Decimal := .ofInt 0

/-! ## Money, areas and prices per square metre -/

structure Money where
  amount : Decimal
  currency : Currency
  notNegative : amount.lt zeroDecimal = .ok false
  deriving DecidableEq, Repr

def Money.new (amount : Decimal) (currency : Currency) : Except PyError Money :=
  match h : amount.lt zeroDecimal with
  | .error signal => .error (.decimal signal)
  | .ok true => .error (.valueError "Money.amount must not be negative")
  | .ok false => .ok ⟨amount, currency, h⟩

theorem Money.new_of_not_lt {amount : Decimal} (currency : Currency)
    (h : amount.lt zeroDecimal = .ok false) :
    new amount currency = .ok ⟨amount, currency, h⟩ := by
  unfold new
  split <;> simp_all

theorem Money.new_of_lt {amount : Decimal} (currency : Currency)
    (h : amount.lt zeroDecimal = .ok true) :
    new amount currency = .error (.valueError "Money.amount must not be negative") := by
  unfold new
  split <;> simp_all

theorem Money.new_eq_ok {amount : Decimal} {currency : Currency} {m : Money}
    (h : new amount currency = .ok m) : m.amount = amount ∧ m.currency = currency := by
  unfold new at h
  split at h
  · simp at h
  · simp at h
  · rw [← Except.ok.inj h]
    exact ⟨rfl, rfl⟩

structure Area where
  squareMeters : Decimal
  positive : squareMeters.le zeroDecimal = .ok false
  deriving DecidableEq, Repr

def Area.new (squareMeters : Decimal) : Except PyError Area :=
  match h : squareMeters.le zeroDecimal with
  | .error signal => .error (.decimal signal)
  | .ok true => .error (.valueError "Area.square_meters must be positive")
  | .ok false => .ok ⟨squareMeters, h⟩

theorem Area.new_of_not_le {squareMeters : Decimal}
    (h : squareMeters.le zeroDecimal = .ok false) :
    new squareMeters = .ok ⟨squareMeters, h⟩ := by
  unfold new
  split <;> simp_all

theorem Area.new_of_le {squareMeters : Decimal}
    (h : squareMeters.le zeroDecimal = .ok true) :
    new squareMeters = .error (.valueError "Area.square_meters must be positive") := by
  unfold new
  split <;> simp_all

theorem Area.new_eq_ok {squareMeters : Decimal} {area : Area}
    (h : new squareMeters = .ok area) : area.squareMeters = squareMeters := by
  unfold new at h
  split at h
  · simp at h
  · simp at h
  · rw [← Except.ok.inj h]

structure PricePerM2 where
  amount : Decimal
  currency : Currency
  positive : amount.le zeroDecimal = .ok false
  deriving DecidableEq, Repr

namespace PricePerM2

def new (amount : Decimal) (currency : Currency) : Except PyError PricePerM2 :=
  match h : amount.le zeroDecimal with
  | .error signal => .error (.decimal signal)
  | .ok true => .error (.valueError "PricePerM2.amount must be positive")
  | .ok false => .ok ⟨amount, currency, h⟩

def fromPriceAndArea (price : Money) (area : Area) :
    Except PyError PricePerM2 :=
  match price.amount.div area.squareMeters with
  | .error signal => .error (.decimal signal)
  | .ok amount => new amount price.currency

theorem new_of_isZero {amount : Decimal} (currency : Currency)
    (h : amount.isZero = true) :
    new amount currency =
      .error (.valueError "PricePerM2.amount must be positive") := by
  have hle : amount.le zeroDecimal = .ok true := by
    cases amount with
    | finite negative coefficient exponent =>
        obtain rfl : coefficient = 0 := by simpa [Decimal.isZero] using h
        cases negative <;>
          simp [Decimal.le, Decimal.ordered, Decimal.isNaN, zeroDecimal,
            Decimal.ofInt, Decimal.compareNumbers, Decimal.scaled]
    | infinity negative => simp [Decimal.isZero] at h
    | nan negative signaling payload => simp [Decimal.isZero] at h
  unfold new
  split <;> simp_all

end PricePerM2

/-! ## Places -/

structure GeoPoint where
  latitude : Decimal
  longitude : Decimal
  deriving DecidableEq, Repr

/-- `low <= value <= high`. -/
def within (low value high : Decimal) : Except PyError Bool := do
  if ← compared (low.le value) then compared (value.le high) else return false

def GeoPoint.new (latitude longitude : Decimal) : Except PyError GeoPoint := do
  if !(← within (.ofInt (-90)) latitude (.ofInt 90)) then
    throw (.valueError "latitude must be within [-90, 90]")
  if !(← within (.ofInt (-180)) longitude (.ofInt 180)) then
    throw (.valueError "longitude must be within [-180, 180]")
  return ⟨latitude, longitude⟩

structure Municipality where
  ineCode : String
  name : String
  deriving DecidableEq, Repr

namespace Municipality

def codePrefix (ineCode : String) : String :=
  String.ofList (ineCode.toList.take 2)

def province (m : Municipality) : Province := .fromCode (codePrefix m.ineCode)

def new [PythonRuntime] (ineCode name : String) :
    Except PyError Municipality := do
  if ineCode.length ≠ 5 ∨ !Text.allDigits ineCode.toList then
    throw (.valueError
      ("Municipality INE code must be 5 digits, got " ++ pyRepr ineCode))
  if Province.fromCode (codePrefix ineCode) = .unknown then
    throw (.valueError ("Municipality code " ++ pyRepr ineCode ++
      " has no valid province prefix"))
  if isBlank name then
    throw (.valueError "Municipality name must not be empty")
  return ⟨ineCode, name⟩

end Municipality

structure Location where
  province : Province
  country : String
  municipality : Option Municipality
  district : Option String
  postalCode : Option String
  geo : Option GeoPoint
  deriving DecidableEq, Repr

/-- `^\d{5}$`: five digits, and possibly a final newline. -/
def isPostalCode (code : String) : Bool :=
  let digits := code.toList.take 5
  let rest := code.toList.drop 5
  digits.length == 5 && digits.all Text.isDigit && (rest.isEmpty || rest == ['\n'])

def Location.new [PythonRuntime] (province : Province)
    (municipality : Option Municipality) (district postalCode : Option String)
    (geo : Option GeoPoint) : Except PyError Location := do
  if let some m := municipality then
    if m.province ≠ province then
      throw (.valueError ("Municipality " ++ m.name ++ " belongs to " ++
        m.province.displayName ++ ", not " ++ province.displayName))
  if let some code := postalCode then
    if !isPostalCode code then
      throw (.valueError ("postal_code must be 5 digits, got " ++ pyRepr code))
  return ⟨province, "ES", municipality, district, postalCode, geo⟩

theorem Location.new_province [PythonRuntime] (province : Province) :
    Location.new province none none none none =
      .ok ⟨province, "ES", none, none, none, none⟩ := rfl

/-! ## Features and media -/

structure Features where
  hasLift : Option Bool
  hasTerrace : Option Bool
  hasGarden : Option Bool
  hasParking : Option Bool
  hasPool : Option Bool
  isNewBuild : Option Bool
  deriving DecidableEq, Repr

namespace Features

def empty : Features := ⟨none, none, none, none, none, none⟩

def flags : List (String × (Features → Option Bool)) :=
  [("has_lift", hasLift), ("has_terrace", hasTerrace), ("has_garden", hasGarden),
    ("has_parking", hasParking), ("has_pool", hasPool),
    ("is_new_build", isNewBuild)]

def get (features : Features) (name : String) : Except PyError (Option Bool) :=
  match flags.lookup name with
  | some flag => .ok (flag features)
  | none => .error (.keyError name)

end Features

def isAbsoluteUrl (url : String) : Bool :=
  "http://".toList.isPrefixOf url.toList || "https://".toList.isPrefixOf url.toList

structure Media where
  images : List String
  videos : List String
  absolute : ∀ url ∈ images ++ videos, isAbsoluteUrl url = true
  deriving DecidableEq, Repr

namespace Media

def empty : Media := ⟨[], [], by simp⟩

def new [PythonRuntime] (images videos : List String) : Except PyError Media :=
  match h : (images ++ videos).find? (fun url => !isAbsoluteUrl url) with
  | some url => .error (.valueError
      ("media URL must be absolute http(s), got " ++ pyRepr url))
  | none => .ok ⟨images, videos, fun url hurl => by
      simpa using List.find?_eq_none.mp h url hurl⟩

theorem new_self [PythonRuntime] (media : Media) :
    new media.images media.videos = .ok media := by
  unfold new
  split
  · next url hfind =>
    have hurl := List.mem_of_find?_eq_some hfind
    have hrelative := List.find?_some hfind
    simp [media.absolute url hurl] at hrelative
  · rfl

theorem exists_new [PythonRuntime] {images videos : List String}
    (himages : ∀ url ∈ images, isAbsoluteUrl url = true)
    (hvideos : ∀ url ∈ videos, isAbsoluteUrl url = true) :
    ∃ media, new images videos = .ok media := by
  have habsolute : ∀ url ∈ images ++ videos, isAbsoluteUrl url = true :=
    fun url h => (List.mem_append.mp h).elim (himages url) (hvideos url)
  exact ⟨⟨images, videos, habsolute⟩, new_self ⟨images, videos, habsolute⟩⟩

theorem eq_of_new [PythonRuntime] {images videos : List String} {media : Media}
    (h : new images videos = .ok media) :
    media.images = images ∧ media.videos = videos := by
  unfold new at h
  split at h
  · simp at h
  · rw [← Except.ok.inj h]
    exact ⟨rfl, rfl⟩

end Media

/-! ## Properties -/

/-- The digest that `uuid5` computes from the portal and the external id. -/
abbrev PropertyId := String

/-- A point in time, in microseconds since the epoch, always UTC. -/
abbrev DateTime := Int

structure Property where
  id : PropertyId
  listingType : ListingType
  propertyType : PropertyType
  location : Location
  title : String
  status : ListingStatus
  landType : Option LandType
  price : Option Money
  area : Option Area
  plotArea : Option Area
  rooms : Option Int
  bathrooms : Option Int
  features : Features
  attributes : List (String × String)
  description : String
  media : Media
  publishedAt : Option DateTime
  landOnly : landType.isSome = true → propertyType = .land
  roomsNotNegative : ∀ n ∈ rooms, 0 ≤ n
  bathroomsNotNegative : ∀ n ∈ bathrooms, 0 ≤ n
  deriving DecidableEq, Repr

namespace Property

theorem landOnly_of_none (propertyType : PropertyType) :
    (none : Option LandType).isSome = true → propertyType = .land := by
  simp

theorem notNegative_of_none : ∀ n ∈ (none : Option Int), 0 ≤ n := by
  simp

def new (id : PropertyId) (listingType : ListingType)
    (propertyType : PropertyType) (location : Location) (title : String)
    (status : ListingStatus) (landType : Option LandType)
    (price : Option Money) (area plotArea : Option Area)
    (rooms bathrooms : Option Int) (features : Features)
    (attributes : List (String × String)) (description : String)
    (media : Media) (publishedAt : Option DateTime) : Except PyError Property :=
  if hland : landType.isSome = true → propertyType = .land then
    if hrooms : ∀ n ∈ rooms, 0 ≤ n then
      if hbathrooms : ∀ n ∈ bathrooms, 0 ≤ n then
        .ok ⟨id, listingType, propertyType, location, title, status, landType,
          price, area, plotArea, rooms, bathrooms, features, attributes,
          description, media, publishedAt, hland, hrooms, hbathrooms⟩
      else .error (.valueError "bathrooms must not be negative")
    else .error (.valueError "rooms must not be negative")
  else
    .error (.valueError
      "land_type is only valid when property_type is LAND")

theorem eq_of_new {id : PropertyId} {listingType : ListingType}
    {propertyType : PropertyType} {location : Location} {title : String}
    {status : ListingStatus} {landType : Option LandType} {price : Option Money}
    {area plotArea : Option Area} {rooms bathrooms : Option Int}
    {features : Features} {attributes : List (String × String)}
    {description : String} {media : Media} {publishedAt : Option DateTime}
    {p : Property}
    (h : new id listingType propertyType location title status landType price
      area plotArea rooms bathrooms features attributes description media
      publishedAt = .ok p) :
    ∃ hland hrooms hbathrooms, p = ⟨id, listingType, propertyType, location, title,
      status, landType, price, area, plotArea, rooms, bathrooms, features,
      attributes, description, media, publishedAt, hland, hrooms, hbathrooms⟩ := by
  unfold new at h
  split at h
  · next hland =>
    split at h
    · next hrooms =>
      split at h
      · next hbathrooms =>
        exact ⟨hland, hrooms, hbathrooms, (Except.ok.inj h).symm⟩
      · simp at h
    · simp at h
  · simp at h

def pricePerM2 (p : Property) : Except PyError (Option PricePerM2) :=
  match p.price, p.area with
  | some price, some area => (PricePerM2.fromPriceAndArea price area).map some
  | _, _ => .ok none

/-- Computing the price per square metre never looks like a failed scrape. -/
theorem pricePerM2_ne_scraperError (p : Property) (message : String) :
    p.pricePerM2 ≠ .error (.scraperError message) := by
  unfold pricePerM2
  split
  · next price area _ _ =>
    unfold PricePerM2.fromPriceAndArea
    split
    · simp [Except.map]
    · unfold PricePerM2.new
      split <;> simp [Except.map]
  · simp

end Property

end RealEstateTracker.Domain
