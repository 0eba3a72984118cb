import RealEstateTracker.Application.PushedParams
import RealEstateTracker.Application.Pushdown
import RealEstateTracker.Infrastructure.IdealistaScraper

/-!
# Coverage of a fetched page

A query that leaves out a parameter is meant to fetch more.  Idealista's URLs
always name an operation and a type, so a parameter that is left out becomes the
default of its table, and the page holds less.
-/

namespace RealEstateTracker.Scraping

open Foundation Domain Application Infrastructure

section Runtime

variable [PythonRuntime]

/-! ## What the planner pushes -/

/-- A direct child of the alert's AND group that fixes the value of a field. -/
def DirectEquality (alert : SearchAlert) (key : String) : Prop :=
  alert.conditions.operator = .all ∧
    ∃ c : AlertCondition, .leaf c ∈ alert.conditions.children ∧
      c.fieldKey = key ∧ c.operator = .eq

def Fixes (key : String) (c : AlertCondition) : Prop :=
  c.fieldKey = key ∧ c.operator = .eq

instance (key : String) : DecidablePred (Fixes key) := fun c => by
  unfold Fixes
  infer_instance

theorem writtenBy_of_pushable {capabilities : PortalCapabilities} {key : String}
    (hpushable : ∀ field ∈ eqPushableFields, field ∈ capabilities.pushableFields)
    (hkey : key ∈ eqPushableFields) (c : AlertCondition) :
    writtenBy capabilities key c =
      if Fixes key c then some (paramValue c.value) else none := by
  have hmin : key ≠ "price_min" := by rintro rfl; revert hkey; decide
  have hmax : key ≠ "price_max" := by rintro rfl; revert hkey; decide
  unfold writtenBy
  split
  · next hfield =>
    have hfixes : ¬Fixes key c := fun h => hfield (h.1 ▸ hpushable _ hkey)
    rw [if_neg hfixes]
  · split
    · simp only [Fixes, and_comm]
    · next hfield =>
      have hfixes : ¬Fixes key c := fun h => hfield (h.1 ▸ hkey)
      rw [if_neg hfixes]
      split
      · unfold boundWritten
        split <;> simp [hmin, hmax]
      · rfl

def planParams (alert : SearchAlert) : Params :=
  pushableParams portalCapabilities alert portalSlug

omit [PythonRuntime] in
theorem pushableFields_idealista :
    ∃ found, portalCapabilities.get portalSlug = some found ∧
      ∀ field ∈ eqPushableFields, field ∈ found.pushableFields :=
  ⟨_, rfl, by decide⟩

theorem get_planParams (alert : SearchAlert) {key : String}
    (hkey : key ∈ eqPushableFields) :
    ((planParams alert).get key = none ∧ ¬DirectEquality alert key) ∨
      ∃ c, .leaf c ∈ alert.conditions.children ∧ Fixes key c ∧
        DirectEquality alert key ∧
        (planParams alert).get key = some (paramValue c.value) := by
  obtain ⟨found, hfound, hpushable⟩ := pushableFields_idealista
  have hwritten := writtenBy_of_pushable hpushable hkey
  rw [planParams, get_pushableParams, pushed, hfound]
  dsimp only
  split
  · next hall =>
    cases hlast : lastWritten found key alert.conditions.children with
    | none =>
        refine .inl ⟨rfl, fun ⟨_, c, hc, hfixes⟩ => ?_⟩
        have hfixes : Fixes key c := hfixes
        have hnone := List.findSome?_eq_none_iff.mp hlast (.leaf c)
          (List.mem_reverse.mpr hc)
        rw [writtenByChild, hwritten, if_pos hfixes] at hnone
        cases hnone
    | some value =>
        obtain ⟨child, hchild, hvalue⟩ := List.exists_of_findSome?_eq_some hlast
        cases child with
        | group operator first others => cases hvalue
        | leaf c =>
            have hc := List.mem_reverse.mp hchild
            rw [writtenByChild, hwritten] at hvalue
            split at hvalue
            · next hfixes =>
              exact .inr ⟨c, hc, hfixes, ⟨hall, c, hc, hfixes⟩, hvalue.symm⟩
            · cases hvalue
  · next hall => exact .inl ⟨rfl, fun h => hall h.1⟩

/-! ## What a satisfied alert says -/

theorem get_planParams_of_satisfied {alert : SearchAlert} {spec : Specification}
    {p : Property} {key s : String} {d : FieldDescriptor}
    (hbuild : SpecificationFactory.build defaultRegistry alert = .ok spec)
    (hsat : spec.isSatisfiedBy p = .ok true) (hkey : key ∈ eqPushableFields)
    (hd : defaultRegistry.get key = .ok d)
    (hextract : d.extract p = .ok (some (.str s))) :
    (DirectEquality alert key ∧ (planParams alert).get key = some s) ∨
      (¬DirectEquality alert key ∧ (planParams alert).get key = none) := by
  obtain ⟨hnone, hdirect⟩ | ⟨c, hc, hfixes, hdirect, hget⟩ :=
    get_planParams alert hkey
  · exact .inr ⟨hdirect, hnone⟩
  · have hleaf := satisfiesLeaf_of_satisfies ⟨spec, hbuild, hsat⟩ hdirect.1 hc
    obtain ⟨rfl, hop⟩ := hfixes
    rw [hleaf.paramValue_eq hop hd hextract] at hget
    exact .inl ⟨hdirect, hget⟩

/-! ## Coverage -/

/-- A URL that names the kind of a property, and its province or none. -/
def Covers (url : Text) (p : Property) : Prop :=
  ∃ province, (province = [] ∨
      province = provinceUrlSlug (some p.location.province.code)) ∧
    url = searchUrl (listingTypeUrlSegment (some p.listingType.value))
      (propertyTypeUrlSegment (some p.propertyType.value)) province

def planUrl (alert : SearchAlert) : Text :=
  buildUrl ⟨portalSlug, planParams alert⟩

/-- The kinds of property that have a URL segment of their own. -/
def HasSegments (p : Property) : Prop :=
  p.listingType.value ∈ listingTypeTable.map (·.1) ∧
    p.propertyType.value ∈ propertyTypeTable.map (·.1)

omit [PythonRuntime] in
theorem segment_listingType_iff {p : Property} (h : HasSegments p) :
    listingTypeUrlSegment none = listingTypeUrlSegment (some p.listingType.value) ↔
      p.listingType = .sale := by
  obtain ⟨hlisting, -⟩ := h
  revert hlisting
  cases p.listingType <;> decide

/--
The URL planned for an alert covers a property that the alert matches if and only
if the alert fixes the operation or it is the default one, and the alert fixes
the type or its segment is the default one.
-/
theorem planned_url_covers_iff {alert : SearchAlert} {spec : Specification}
    {p : Property}
    (hbuild : SpecificationFactory.build defaultRegistry alert = .ok spec)
    (hsat : spec.isSatisfiedBy p = .ok true) (hsegments : HasSegments p) :
    Covers (planUrl alert) p ↔
      (DirectEquality alert "listing_type" ∨ p.listingType = .sale) ∧
        (DirectEquality alert "property_type" ∨
          propertyTypeUrlSegment (some p.propertyType.value) =
            defaultPropertyType.urlSegment) := by
  have hpushed : ∀ {key s : String} {d : FieldDescriptor},
      key ∈ eqPushableFields → defaultRegistry.get key = .ok d →
        d.extract p = .ok (some (.str s)) →
          (DirectEquality alert key ∧ (planParams alert).get key = some s) ∨
            (¬DirectEquality alert key ∧ (planParams alert).get key = none) :=
    fun hkey hd hextract =>
      get_planParams_of_satisfied hbuild hsat hkey hd hextract
  have hlisting : listingTypeUrlSegment ((planParams alert).get "listing_type") =
      listingTypeUrlSegment (some p.listingType.value) ↔
        DirectEquality alert "listing_type" ∨ p.listingType = .sale := by
    obtain ⟨hdirect, hget⟩ | ⟨hdirect, hget⟩ := hpushed
      (show "listing_type" ∈ eqPushableFields by decide) rfl rfl
    · rw [hget]
      exact iff_of_true rfl (.inl hdirect)
    · rw [hget, segment_listingType_iff hsegments, or_iff_right hdirect]
  have htype : propertyTypeUrlSegment ((planParams alert).get "property_type") =
      propertyTypeUrlSegment (some p.propertyType.value) ↔
        DirectEquality alert "property_type" ∨
          propertyTypeUrlSegment (some p.propertyType.value) =
            defaultPropertyType.urlSegment := by
    obtain ⟨hdirect, hget⟩ | ⟨hdirect, hget⟩ := hpushed
      (show "property_type" ∈ eqPushableFields by decide) rfl rfl
    · rw [hget]
      exact iff_of_true rfl (.inl hdirect)
    · rw [hget, or_iff_right hdirect]
      exact eq_comm
  have hplace : provinceUrlSlug ((planParams alert).get "province") = [] ∨
      provinceUrlSlug ((planParams alert).get "province") =
        provinceUrlSlug (some p.location.province.code) := by
    obtain ⟨-, hget⟩ | ⟨-, hget⟩ := hpushed
      (show "province" ∈ eqPushableFields by decide) rfl rfl
    · exact .inr (by rw [hget])
    · exact .inl (by rw [hget]; rfl)
  rw [← hlisting, ← htype]
  constructor
  · rintro ⟨province, -, hurl⟩
    obtain ⟨hoperation, htypes, -⟩ := searchUrl_inj
      (not_mem_listingTypeUrlSegment _) (not_mem_listingTypeUrlSegment _)
      (not_mem_propertyTypeUrlSegment _) (not_mem_propertyTypeUrlSegment _) hurl
    exact ⟨hoperation, htypes⟩
  · rintro ⟨hoperation, htypes⟩
    exact ⟨_, hplace, by rw [planUrl, buildUrl, hoperation, htypes]⟩

end Runtime

/-! ## An alert on land or garages -/

/-- `ANY(property_type EQ LAND, property_type EQ GARAGE)`. -/
def landAlert : SearchAlert where
  id := .given 1
  userId := .given 0
  name := "Land or garages"
  portalSlugs := .ofList [portalSlug]
  frequencySeconds := 3600
  conditions := ⟨.any,
    .leaf ⟨"property_type", .eq, some (.scalar (.str "LAND")), by decide,
      by decide⟩,
    [.leaf ⟨"property_type", .eq, some (.scalar (.str "GARAGE")), by decide,
      by decide⟩]⟩
  createdAt := 0
  updatedAt := 0
  isActive := true
  lastRunAt := none
  named := by decide
  monitored := FrozenSet.sorted_singleton_ne_nil portalSlug
  seldom := minFrequencySeconds_le_hour

def landForSale : Property where
  id := "land"
  listingType := .sale
  propertyType := .land
  location := ⟨.pontevedra, "ES", none, none, none, none⟩
  title := "Land"
  status := .active
  landType := none
  price := none
  area := none
  plotArea := none
  rooms := none
  bathrooms := none
  features := .empty
  attributes := []
  description := ""
  media := .empty
  publishedAt := none
  landOnly := Property.landOnly_of_none .land
  roomsNotNegative := Property.notNegative_of_none
  bathroomsNotNegative := Property.notNegative_of_none

theorem hasSegments_landForSale : HasSegments landForSale := by
  unfold HasSegments
  decide

/-- The alert matches the land, but its query fetches dwellings only. -/
theorem broad_query_misses_land :
    ∃ spec, @SpecificationFactory.build .plain defaultRegistry landAlert =
        .ok spec ∧
      @Specification.isSatisfiedBy .plain landForSale spec = .ok true ∧
      HasSegments landForSale ∧ landForSale.location.province ≠ .unknown ∧
      portalSlug ∈ landAlert.portalSlugs.sorted ∧
      ¬@Covers .plain (@planUrl .plain landAlert) landForSale := by
  refine ⟨_, rfl, by decide, hasSegments_landForSale, by decide, by decide, ?_⟩
  rintro ⟨province, -, hurl⟩
  have htypes := (searchUrl_inj (by decide) (by decide) (by decide) (by decide)
    hurl).2.1
  revert htypes
  decide

theorem planned_url_covers_iff_landAlert :
    @Covers .plain (@planUrl .plain landAlert) landForSale ↔
      (DirectEquality landAlert "listing_type" ∨
          landForSale.listingType = .sale) ∧
        (DirectEquality landAlert "property_type" ∨
          propertyTypeUrlSegment (some landForSale.propertyType.value) =
            defaultPropertyType.urlSegment) :=
  @planned_url_covers_iff .plain landAlert _ landForSale rfl (by decide)
    hasSegments_landForSale

end RealEstateTracker.Scraping
