import RealEstateTracker.Application.EvaluationSafety
import RealEstateTracker.Persistence.PropertyRepository

/-!
# Stored properties read back

A property is flattened, its amounts are rounded by their columns, and the
constructors rebuild it.  It comes back equal when nothing is lost on the way,
and it is not even stored when its price per square metre cannot be computed.
-/

namespace RealEstateTracker.Persistence

open Foundation Domain PropertyRepository

/-! ## Equal properties -/

/-- `==` on two decimals that may be missing. -/
def EqualAmounts (x y : Option Decimal) : Prop :=
  match x, y with
  | none, none => True
  | some a, some b => a.eq b = .ok true
  | _, _ => False

/-- `p == q`: amounts compare by value, everything else is the same. -/
structure EqualProperties (p q : Property) : Prop where
  id : p.id = q.id
  listingType : p.listingType = q.listingType
  propertyType : p.propertyType = q.propertyType
  province : p.location.province = q.location.province
  country : p.location.country = q.location.country
  municipality : p.location.municipality = q.location.municipality
  district : p.location.district = q.location.district
  postalCode : p.location.postalCode = q.location.postalCode
  latitude : EqualAmounts (p.location.geo.map (·.latitude))
    (q.location.geo.map (·.latitude))
  longitude : EqualAmounts (p.location.geo.map (·.longitude))
    (q.location.geo.map (·.longitude))
  title : p.title = q.title
  status : p.status = q.status
  landType : p.landType = q.landType
  price : EqualAmounts (p.price.map (·.amount)) (q.price.map (·.amount))
  currency : p.price.map (·.currency) = q.price.map (·.currency)
  area : EqualAmounts (p.area.map (·.squareMeters)) (q.area.map (·.squareMeters))
  plotArea : EqualAmounts (p.plotArea.map (·.squareMeters))
    (q.plotArea.map (·.squareMeters))
  rooms : p.rooms = q.rooms
  bathrooms : p.bathrooms = q.bathrooms
  features : p.features = q.features
  attributes : p.attributes = q.attributes
  description : p.description = q.description
  media : p.media = q.media
  publishedAt : p.publishedAt = q.publishedAt

/-! ## Numeric columns -/

section Columns

variable [runtime : PersistenceRuntime]

def Kept (places : Nat) (value : Decimal) : Prop :=
  (runtime.numericColumn places value).eq value = .ok true

def RoundsOnce : Prop :=
  ∀ places value, runtime.numericColumn places
    (runtime.numericColumn places value) = runtime.numericColumn places value

theorem map_column {places : Nat} (h : RoundsOnce) (stored model : Option Decimal) :
    (column (stored.map (runtime.numericColumn places)) model stored).map
        (runtime.numericColumn places) =
      model.map (runtime.numericColumn places) := by
  unfold column
  split
  · next heq =>
    rw [← heq, Option.map_map]
    exact Option.map_congr fun value _ => (h places value).symm
  · rfl

theorem readRow_update (h : RoundsOnce) (model stored : PropertyRow)
    (hid : stored.id = model.id) :
    readRow (PropertyRow.update (readRow stored) model stored) = readRow model := by
  simp only [readRow, PropertyRow.update, column_self, map_column h, hid]

theorem readRow_readRow (h : RoundsOnce) (row : PropertyRow) :
    readRow (readRow row) = readRow row := by
  have hmap : ∀ places (amount : Option Decimal), (amount.map
      (runtime.numericColumn places)).map (runtime.numericColumn places) =
        amount.map (runtime.numericColumn places) := fun places amount => by
    rw [Option.map_map]
    exact Option.map_congr fun value _ => h places value
  simp only [readRow, hmap]

end Columns

/-! ## Rebuilding a property -/

section Rebuilding

variable [PythonRuntime] [runtime : PersistenceRuntime]

/-- The parts that the constructors have accepted, of those that carry no proof. -/
structure Accepted (p : Property) : Prop where
  location : Location.new p.location.province p.location.municipality
      p.location.district p.location.postalCode p.location.geo =
    .ok { p.location with country := "ES" }
  municipality : ∀ m ∈ p.location.municipality,
    Municipality.new m.ineCode m.name = .ok m
  geo : ∀ g ∈ p.location.geo, GeoPoint.new g.latitude g.longitude = .ok g

def columnOf (places : Nat) (amount : Option Decimal) : Option Decimal :=
  amount.map (runtime.numericColumn places)

omit [PythonRuntime] in
theorem equalAmounts_columnOf {places : Nat} {amount : Option Decimal} :
    EqualAmounts (columnOf places amount) amount ↔
      ∀ value ∈ amount, Kept places value := by
  cases amount <;> simp [columnOf, EqualAmounts, Kept]

structure Rebuilt (p q : Property) : Prop where
  id : q.id = p.id
  listingType : q.listingType = p.listingType
  propertyType : q.propertyType = p.propertyType
  province : q.location.province = p.location.province
  country : q.location.country = "ES"
  municipality : q.location.municipality = p.location.municipality
  district : q.location.district = p.location.district
  postalCode : q.location.postalCode = p.location.postalCode
  latitude : q.location.geo.map (·.latitude) =
    columnOf 6 (p.location.geo.map (·.latitude))
  longitude : q.location.geo.map (·.longitude) =
    columnOf 6 (p.location.geo.map (·.longitude))
  title : q.title = p.title
  status : q.status = p.status
  landType : q.landType = p.landType
  price : q.price.map (·.amount) = columnOf 2 (p.price.map (·.amount))
  currency : q.price.map (·.currency) = p.price.map (·.currency)
  area : q.area.map (·.squareMeters) = columnOf 2 (p.area.map (·.squareMeters))
  plotArea : q.plotArea.map (·.squareMeters) =
    columnOf 2 (p.plotArea.map (·.squareMeters))
  rooms : q.rooms = p.rooms
  bathrooms : q.bathrooms = p.bathrooms
  features : q.features = p.features
  attributes : q.attributes = p.attributes
  description : q.description = p.description
  media : q.media = p.media
  publishedAt : q.publishedAt = p.publishedAt

omit [PythonRuntime] runtime in
theorem nonempty_of_ne {s : String} (h : s ≠ "") : nonempty (some s) = some s := by
  simp [nonempty, Option.filter, h]

omit runtime in
theorem whenBoth_municipality {m : Option Municipality}
    (h : ∀ x ∈ m, Municipality.new x.ineCode x.name = .ok x) :
    whenBoth (nonempty (m.map (·.ineCode))) (nonempty (m.map (·.name)))
      Municipality.new = .ok m := by
  cases m with
  | none => rfl
  | some x =>
      have hnew := h x rfl
      have hcode : x.ineCode ≠ "" := by
        intro hempty
        rw [hempty] at hnew
        simp [Municipality.new, throw, throwThe, MonadExceptOf.throw, bind,
          Except.bind] at hnew
      have hname : x.name ≠ "" := by
        intro hempty
        have hblank : isBlank "" = true := by decide
        unfold Municipality.new at hnew
        rw [hempty, hblank] at hnew
        simp only [if_true] at hnew
        split at hnew
        · simp [throw, throwThe, MonadExceptOf.throw, bind, Except.bind] at hnew
        · split at hnew <;>
            simp [throw, throwThe, MonadExceptOf.throw, bind, Except.bind] at hnew
      simp only [Option.map_some, nonempty_of_ne hcode, nonempty_of_ne hname,
        whenBoth, hnew]
      rfl

omit [PythonRuntime] runtime in
theorem geoPoint_of_new {latitude longitude : Decimal} {g : GeoPoint}
    (h : GeoPoint.new latitude longitude = .ok g) : g = ⟨latitude, longitude⟩ := by
  obtain ⟨north, -, h⟩ := bind_eq_ok.mp h
  cases north with
  | false => simp [throw, throwThe, MonadExceptOf.throw, bind, Except.bind] at h
  | true =>
      obtain ⟨east, -, h⟩ := bind_eq_ok.mp h
      cases east with
      | false =>
          simp [throw, throwThe, MonadExceptOf.throw, bind, Except.bind] at h
      | true => exact (pure_eq_ok.mp h).symm

omit runtime in
theorem location_new_eq_ok {province : Province}
    {municipality : Option Municipality} {district postalCode : Option String}
    {geo : Option GeoPoint} {l : Location} :
    Location.new province municipality district postalCode geo = .ok l ↔
      ((∀ m ∈ municipality, m.province = province) ∧
        ∀ code ∈ postalCode, isPostalCode code = true) ∧
      l = ⟨province, "ES", municipality, district, postalCode, geo⟩ := by
  rw [@eq_comm _ l]
  cases municipality with
  | none =>
      cases postalCode with
      | none => simp [Location.new, pure, Except.pure]
      | some code =>
          by_cases hcode : isPostalCode code = true <;>
            simp [Location.new, hcode, pure, Except.pure, bind, Except.bind, throw,
              throwThe, MonadExceptOf.throw]
  | some m =>
      by_cases hm : m.province = province
      · cases postalCode with
        | none => simp [Location.new, hm, pure, Except.pure]
        | some code =>
            by_cases hcode : isPostalCode code = true <;>
              simp [Location.new, hm, hcode, pure, Except.pure, bind, Except.bind,
                throw, throwThe, MonadExceptOf.throw]
      · simp [Location.new, hm, bind, Except.bind, throw, throwThe,
          MonadExceptOf.throw]

omit runtime in
theorem landType_ofValue (landType : Option LandType) :
    whenThere (nonempty (landType.map (·.value))) LandType.ofValue =
      .ok landType := by
  cases landType with
  | none => rfl
  | some landType => cases landType <;> rfl

omit [PythonRuntime] runtime in
theorem geo_of_whenBoth {latitude longitude : Option Decimal}
    {geo : Option GeoPoint} (hboth : latitude.isSome = longitude.isSome)
    (h : whenBoth latitude longitude GeoPoint.new = .ok geo) :
    geo.map (·.latitude) = latitude ∧ geo.map (·.longitude) = longitude := by
  cases latitude with
  | none =>
      cases longitude with
      | none =>
          obtain rfl := Except.ok.inj h
          exact ⟨rfl, rfl⟩
      | some y => simp at hboth
  | some x =>
      cases longitude with
      | none => simp at hboth
      | some y =>
          rw [whenBoth] at h
          cases hnew : GeoPoint.new x y with
          | error error => simp [hnew, Except.map] at h
          | ok g =>
              rw [hnew] at h
              obtain rfl := Except.ok.inj h
              rw [geoPoint_of_new hnew]
              exact ⟨rfl, rfl⟩

omit runtime in
theorem price_of_whenBoth {amount : Option Decimal} {price : Option Money}
    {currency : Option Currency} (hboth : amount.isSome = currency.isSome)
    (h : whenBoth amount (nonempty (currency.map (·.value)))
      (fun amount currency => do Money.new amount (← Currency.ofValue currency)) =
        .ok price) :
    price.map (·.amount) = amount ∧ price.map (·.currency) = currency := by
  cases currency with
  | none =>
      cases amount with
      | none =>
          obtain rfl := Except.ok.inj h
          exact ⟨rfl, rfl⟩
      | some x => simp at hboth
  | some c =>
      cases amount with
      | none => simp at hboth
      | some x =>
          have hvalue : c.value ≠ "" := by cases c; decide
          simp only [Option.map_some, nonempty_of_ne hvalue, whenBoth,
            Currency.ofValue_value, bind, Except.bind] at h
          cases hnew : Money.new x c with
          | error error => simp [hnew, Except.map] at h
          | ok m =>
              rw [hnew] at h
              obtain rfl := Except.ok.inj h
              obtain ⟨rfl, rfl⟩ := Money.new_eq_ok hnew
              exact ⟨rfl, rfl⟩

omit [PythonRuntime] runtime in
theorem area_of_whenThere {value : Option Decimal} {area : Option Area}
    (h : whenThere value Area.new = .ok area) :
    area.map (·.squareMeters) = value := by
  cases value with
  | none =>
      obtain rfl := Except.ok.inj h
      rfl
  | some x =>
      rw [whenThere] at h
      cases hnew : Area.new x with
      | error error => simp [hnew, Except.map] at h
      | ok a =>
          rw [hnew] at h
          obtain rfl := Except.ok.inj h
          rw [Option.map_some, Area.new_eq_ok hnew]

theorem rebuilt_of_toDomain {p q : Property} (haccepted : Accepted p)
    {now firstSeenAt : DateTime} {row : PropertyRow}
    (hrow : toModel p now = .ok row)
    (h : toDomain (readRow { row with firstSeenAt }) = .ok q) : Rebuilt p q := by
  obtain ⟨pricePerM2, -, hrow⟩ := bind_eq_ok.mp hrow
  obtain rfl := pure_eq_ok.mp hrow
  obtain ⟨municipality, hmunicipality, h⟩ := bind_eq_ok.mp h
  obtain ⟨geo, hgeo, h⟩ := bind_eq_ok.mp h
  obtain ⟨location, hlocation, h⟩ := bind_eq_ok.mp h
  obtain ⟨price, hprice, h⟩ := bind_eq_ok.mp h
  obtain ⟨listingType, hlisting, h⟩ := bind_eq_ok.mp h
  obtain ⟨propertyType, htype, h⟩ := bind_eq_ok.mp h
  obtain ⟨status, hstatus, h⟩ := bind_eq_ok.mp h
  obtain ⟨landType, hland, h⟩ := bind_eq_ok.mp h
  obtain ⟨area, harea, h⟩ := bind_eq_ok.mp h
  obtain ⟨plotArea, hplotArea, h⟩ := bind_eq_ok.mp h
  obtain ⟨media, hmedia, h⟩ := bind_eq_ok.mp h
  obtain ⟨hlandOnly, hrooms, hbathrooms, rfl⟩ := Property.eq_of_new h
  obtain ⟨-, rfl⟩ := location_new_eq_ok.mp hlocation
  obtain rfl := Except.ok.inj
    (hmunicipality.symm.trans (whenBoth_municipality haccepted.municipality))
  obtain rfl := Except.ok.inj (hlisting.symm.trans (ListingType.ofValue_value _))
  obtain rfl := Except.ok.inj (htype.symm.trans (PropertyType.ofValue_value _))
  obtain rfl := Except.ok.inj (hstatus.symm.trans (ListingStatus.ofValue_value _))
  obtain rfl := Except.ok.inj (hland.symm.trans (landType_ofValue _))
  obtain rfl := Except.ok.inj (hmedia.symm.trans (Media.new_self _))
  obtain ⟨hlatitude, hlongitude⟩ := geo_of_whenBoth (by simp [readRow]) hgeo
  have hcurrency : p.price.map (·.currency.value) =
      (p.price.map (·.currency)).map (·.value) := by rw [Option.map_map]; rfl
  simp only [readRow, hcurrency] at hprice
  obtain ⟨hamount, hcurrencies⟩ := price_of_whenBoth (by simp) hprice
  constructor
  all_goals first | rfl | assumption | exact Province.fromCode_code _ | skip
  · exact area_of_whenThere harea
  · exact area_of_whenThere hplotArea

/-! ## Amounts that the columns keep -/

structure KeptAmounts (p : Property) : Prop where
  latitude : ∀ value ∈ p.location.geo.map (·.latitude), Kept 6 value
  longitude : ∀ value ∈ p.location.geo.map (·.longitude), Kept 6 value
  price : ∀ value ∈ p.price.map (·.amount), Kept 2 value
  area : ∀ value ∈ p.area.map (·.squareMeters), Kept 2 value
  plotArea : ∀ value ∈ p.plotArea.map (·.squareMeters), Kept 2 value

omit [PythonRuntime] in
theorem exists_money {m : Money} (h : Kept 2 m.amount) :
    ∃ m', Money.new (runtime.numericColumn 2 m.amount) m.currency = .ok m' := by
  have hlt : (runtime.numericColumn 2 m.amount).lt zeroDecimal = .ok false :=
    (Decimal.ordered_congr_left h _ _).trans m.notNegative
  exact ⟨_, Money.new_of_not_lt _ hlt⟩

omit [PythonRuntime] in
theorem exists_area {a : Option Area}
    (h : ∀ value ∈ a.map (·.squareMeters), Kept 2 value) :
    ∃ a', whenThere ((a.map (·.squareMeters)).map (runtime.numericColumn 2))
      Area.new = .ok a' := by
  cases a with
  | none => exact ⟨none, rfl⟩
  | some a =>
      have hle : (runtime.numericColumn 2 a.squareMeters).le zeroDecimal =
          .ok false :=
        (Decimal.ordered_congr_left (h _ rfl) _ _).trans a.positive
      exact ⟨some ⟨_, hle⟩, by simp [whenThere, Area.new_of_not_le hle, Except.map]⟩

omit [PythonRuntime] runtime in
theorem within_congr {x y : Decimal} (h : x.eq y = .ok true) (low high : Decimal) :
    within low x high = within low y high := by
  have hlow : low.le x = low.le y := Decimal.ordered_congr_right h _ _
  have hhigh : x.le high = y.le high := Decimal.ordered_congr_left h _ _
  rw [within, hlow, hhigh, within]

omit [PythonRuntime] in
theorem exists_geo {geo : Option GeoPoint}
    (haccepted : ∀ g ∈ geo, GeoPoint.new g.latitude g.longitude = .ok g)
    (hlatitude : ∀ value ∈ geo.map (·.latitude), Kept 6 value)
    (hlongitude : ∀ value ∈ geo.map (·.longitude), Kept 6 value) :
    ∃ geo', whenBoth ((geo.map (·.latitude)).map (runtime.numericColumn 6))
      ((geo.map (·.longitude)).map (runtime.numericColumn 6)) GeoPoint.new =
        .ok geo' := by
  cases geo with
  | none => exact ⟨none, rfl⟩
  | some g =>
      have hnew := haccepted g rfl
      simp only [GeoPoint.new, ← within_congr (hlatitude _ rfl),
        ← within_congr (hlongitude _ rfl)] at hnew
      obtain ⟨north, hnorth, hnew⟩ := bind_eq_ok.mp hnew
      cases north with
      | false =>
          simp [throw, throwThe, MonadExceptOf.throw, bind, Except.bind] at hnew
      | true =>
          obtain ⟨east, heast, hnew⟩ := bind_eq_ok.mp hnew
          cases east with
          | false =>
              simp [throw, throwThe, MonadExceptOf.throw, bind,
                Except.bind] at hnew
          | true =>
              refine ⟨some ⟨runtime.numericColumn 6 g.latitude,
                runtime.numericColumn 6 g.longitude⟩, ?_⟩
              simp only [Option.map_some, whenBoth, GeoPoint.new, hnorth, heast,
                bind, Except.bind]
              rfl

theorem exists_toDomain {p : Property} (haccepted : Accepted p)
    (hkept : KeptAmounts p) {now firstSeenAt : DateTime} {row : PropertyRow}
    (hrow : toModel p now = .ok row) :
    ∃ q, toDomain (readRow { row with firstSeenAt }) = .ok q := by
  obtain ⟨pricePerM2, -, hrow⟩ := bind_eq_ok.mp hrow
  obtain rfl := pure_eq_ok.mp hrow
  obtain ⟨geo, hgeo⟩ :=
    exists_geo haccepted.geo hkept.latitude hkept.longitude
  obtain ⟨area, harea⟩ := exists_area hkept.area
  obtain ⟨plotArea, hplotArea⟩ := exists_area hkept.plotArea
  have hlocation : Location.new p.location.province p.location.municipality
      p.location.district p.location.postalCode geo = .ok _ :=
    location_new_eq_ok.mpr ⟨(location_new_eq_ok.mp haccepted.location).1, rfl⟩
  have hprice : ∃ price, whenBoth
      ((p.price.map (·.amount)).map (runtime.numericColumn 2))
      (nonempty (p.price.map (·.currency.value)))
      (fun amount currency => do
        Money.new amount (← Currency.ofValue currency)) = .ok price := by
    cases hp : p.price with
    | none => exact ⟨none, rfl⟩
    | some m =>
        have hvalue : m.currency.value ≠ "" := by cases m.currency; decide
        obtain ⟨m', hm⟩ := exists_money (hkept.price m.amount (by simp [hp]))
        refine ⟨some m', ?_⟩
        simp only [Option.map_some, nonempty_of_ne hvalue, whenBoth,
          Currency.ofValue_value, bind, Except.bind, hm]
        rfl
  obtain ⟨price, hprice⟩ := hprice
  have hproperty : ∃ q, Property.new p.id p.listingType p.propertyType
      ⟨p.location.province, "ES", p.location.municipality, p.location.district,
        p.location.postalCode, geo⟩ p.title p.status p.landType price area plotArea
      p.rooms p.bathrooms p.features p.attributes p.description p.media
      p.publishedAt = .ok q := by
    rw [Property.new, dif_pos p.landOnly, dif_pos p.roomsNotNegative,
      dif_pos p.bathroomsNotNegative]
    exact ⟨_, rfl⟩
  obtain ⟨q, hq⟩ := hproperty
  refine ⟨q, ?_⟩
  simp only [bind, Except.bind] at hprice
  simp only [toDomain, readRow, whenBoth_municipality haccepted.municipality, hgeo,
    hlocation, hprice, harea, hplotArea, landType_ofValue, Media.new_self,
    Province.fromCode_code, ListingType.ofValue_value, PropertyType.ofValue_value,
    ListingStatus.ofValue_value, bind, Except.bind]
  exact hq

/-! ## Reading back -/

/-- `add` succeeds, and a `get` in a later session returns an equal property. -/
def ReadsBack (p : Property) (now : DateTime) (stamp : Stamp) (db : Store) : Prop :=
  ∃ row, toModel p now = .ok row ∧ ∃ q,
    PropertyRepository.get p.id (applyAll (addWrites p row now stamp db) db) =
      .ok (some q) ∧ EqualProperties q p

/-- Everything that storing a property could lose. -/
structure Storable (p : Property) : Prop where
  pricePerM2 : ¬Raises p.pricePerM2
  country : p.location.country = "ES"
  amounts : KeptAmounts p

def storedRow (existing : Option PropertyRow) (row : PropertyRow) : PropertyRow :=
  match existing with
  | none => row
  | some stored => PropertyRow.update (readRow stored)
      { row with firstSeenAt := (readRow stored).firstSeenAt } stored

omit [PythonRuntime] in
theorem find_addWrites {p : Property} {now : DateTime} {row : PropertyRow}
    (hid : row.id = p.id) (stamp : Stamp) (db : Store) (id : PropertyId) :
    PropertyRepository.find id (applyAll (addWrites p row now stamp db) db) =
      if id = p.id then
        some (readRow (storedRow (db.properties.find? (·.id = id)) row))
      else PropertyRepository.find id db := by
  have hprices : ∀ write ∈ priceWrites (PropertyRepository.find p.id db) p now stamp,
      write.table ≠ .properties := by
    intro write hwrite
    unfold priceWrites at hwrite
    split at hwrite
    · simp at hwrite
    · split at hwrite
      · rw [List.mem_singleton.mp hwrite]
        simp [Write.table]
      · simp at hwrite
  rw [addWrites, applyAll_cons, PropertyRepository.find, properties_applyAll hprices,
    apply_eq]
  have hloaded : PropertyRepository.find p.id db =
      (db.properties.find? (·.id = p.id)).map readRow := rfl
  cases hstored : db.properties.find? (·.id = p.id) with
  | none =>
      rw [hloaded, hstored, Option.map_none, rowWrite, Write.apply,
        List.find?_append]
      by_cases heq : id = p.id
      · subst heq
        simp [hstored, storedRow, hid]
      · have hne : ¬p.id = id := Ne.symm heq
        simp [heq, hid, hne, PropertyRepository.find]
  | some stored =>
      have hkept : ∀ loaded model other : PropertyRow,
          decide ((PropertyRow.update loaded model other).id = id) =
            decide (other.id = id) := fun _ _ _ => rfl
      rw [hloaded, hstored, Option.map_some, rowWrite, Write.apply,
        find?_updateWhere (hkept _ _)]
      by_cases heq : id = p.id
      · subst heq
        have hsame : stored.id = p.id := by simpa using List.find?_some hstored
        simp [hstored, storedRow, hsame, hid]
      · rw [if_neg heq, PropertyRepository.find]
        cases hfind : db.properties.find? (·.id = id) with
        | none => rfl
        | some other =>
            have hother : other.id = id := by simpa using List.find?_some hfind
            simp [hother, hid, heq]

omit [PythonRuntime] in
theorem find_added (hrounds : RoundsOnce) {p : Property} {now : DateTime}
    {row : PropertyRow} (hid : row.id = p.id) (stamp : Stamp) (db : Store) :
    ∃ firstSeenAt, PropertyRepository.find p.id
      (applyAll (addWrites p row now stamp db) db) =
        some (readRow { row with firstSeenAt }) := by
  rw [find_addWrites hid, if_pos rfl]
  cases hstored : db.properties.find? (·.id = p.id) with
  | none => exact ⟨row.firstSeenAt, rfl⟩
  | some stored =>
      have hsame : stored.id = row.id := by
        rw [hid]
        simpa using List.find?_some hstored
      refine ⟨(readRow stored).firstSeenAt, congrArg some ?_⟩
      exact readRow_update hrounds _ _ hsame

omit [PythonRuntime] in
theorem lastSeenAt_find_added {p : Property} {now : DateTime} {row : PropertyRow}
    (hid : row.id = p.id) (stamp : Stamp) (db : Store) :
    (PropertyRepository.find p.id (applyAll (addWrites p row now stamp db) db)).map
      (·.lastSeenAt) = some row.lastSeenAt := by
  rw [find_addWrites hid, if_pos rfl]
  cases db.properties.find? (·.id = p.id) with
  | none => rfl
  | some stored => exact congrArg some (column_self _ _)

omit [PythonRuntime] in
theorem equalProperties_iff {p q : Property} (h : Rebuilt p q) :
    EqualProperties q p ↔ p.location.country = "ES" ∧ KeptAmounts p := by
  constructor
  · intro heq
    refine ⟨heq.country.symm.trans h.country, ?_⟩
    constructor
    · exact equalAmounts_columnOf.mp (h.latitude ▸ heq.latitude)
    · exact equalAmounts_columnOf.mp (h.longitude ▸ heq.longitude)
    · exact equalAmounts_columnOf.mp (h.price ▸ heq.price)
    · exact equalAmounts_columnOf.mp (h.area ▸ heq.area)
    · exact equalAmounts_columnOf.mp (h.plotArea ▸ heq.plotArea)
  · rintro ⟨hcountry, hkept⟩
    exact {
      h with
      country := h.country.trans hcountry.symm
      latitude := h.latitude ▸ equalAmounts_columnOf.mpr hkept.latitude
      longitude := h.longitude ▸ equalAmounts_columnOf.mpr hkept.longitude
      price := h.price ▸ equalAmounts_columnOf.mpr hkept.price
      area := h.area ▸ equalAmounts_columnOf.mpr hkept.area
      plotArea := h.plotArea ▸ equalAmounts_columnOf.mpr hkept.plotArea }

/--
A property is stored and reads back equal exactly when its price per square metre
can be computed, it is in Spain, and the columns keep its amounts.
-/
theorem stored_property_reads_back_iff (hrounds : RoundsOnce) {p : Property}
    (haccepted : Accepted p) (now : DateTime) (stamp : Stamp) (db : Store) :
    ReadsBack p now stamp db ↔ Storable p := by
  constructor
  · rintro ⟨row, hrow, q, hget, heq⟩
    obtain ⟨firstSeenAt, hfind⟩ :=
      @find_added _ hrounds p now row (id_toModel hrow) stamp db
    rw [PropertyRepository.get, hfind] at hget
    cases hdomain : toDomain (readRow { row with firstSeenAt }) with
    | error error => simp [hdomain, Except.map] at hget
    | ok q' =>
        obtain rfl : q' = q := by simpa [hdomain, Except.map] using hget
        obtain ⟨hcountry, hkept⟩ :=
          (equalProperties_iff (rebuilt_of_toDomain haccepted hrow hdomain)).mp heq
        obtain ⟨value, hvalue, -⟩ := bind_eq_ok.mp hrow
        exact ⟨by simp [hvalue], hcountry, hkept⟩
  · intro h
    obtain ⟨value, hvalue⟩ := not_raises_iff.mp h.pricePerM2
    obtain ⟨row, hrow⟩ : ∃ row, toModel p now = .ok row := by
      rw [toModel, hvalue]
      exact ⟨_, rfl⟩
    obtain ⟨firstSeenAt, hfind⟩ :=
      @find_added _ hrounds p now row (id_toModel hrow) stamp db
    obtain ⟨q, hq⟩ : ∃ q, toDomain (readRow { row with firstSeenAt }) = .ok q :=
      exists_toDomain haccepted h.amounts hrow
    refine ⟨row, hrow, q, ?_, (equalProperties_iff
      (rebuilt_of_toDomain haccepted hrow hq)).mpr ⟨h.country, h.amounts⟩⟩
    rw [PropertyRepository.get, hfind]
    simp only [hq]
    rfl

end Rebuilding

/-! ## A flat that cannot be stored -/

open Application in
/-- The constructors accept a price of zero, which has no price per square metre. -/
theorem freeFlat_is_not_stored :
    @Accepted .plain freeFlat ∧
      @toModel freeFlat 0 =
        .error (.valueError "PricePerM2.amount must be positive") ∧
      ¬@ReadsBack .plain .plain freeFlat 0 ⟨0, 0⟩ .empty :=
  ⟨@Accepted.mk .plain _ rfl nofun nofun, rfl, fun ⟨_, hrow, _⟩ => nomatch hrow⟩

open Application in
theorem stored_property_reads_back_iff_freeFlat :
    @ReadsBack .plain .plain freeFlat 0 ⟨0, 0⟩ .empty ↔
      @Storable .plain freeFlat :=
  @stored_property_reads_back_iff .plain .plain (fun _ _ => rfl) freeFlat
    (@Accepted.mk .plain _ rfl nofun nofun) 0 ⟨0, 0⟩ .empty

end RealEstateTracker.Persistence
