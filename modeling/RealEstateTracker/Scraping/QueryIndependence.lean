import RealEstateTracker.Infrastructure.IdealistaScraper
import RealEstateTracker.Infrastructure.Pipeline
import RealEstateTracker.Foundation.Outcome

/-!
# Canonical data and the query that fetched it

Two queries with one URL get one page, but each seeds its own labels into the
cards.  The URL determines the labels of the operation and of the province; one
URL segment stands for several property types.
-/

namespace RealEstateTracker.Scraping

open Foundation Domain Infrastructure

/-! ## What a URL determines -/

theorem listingTypeLabel_of_urlSegment {c c' : Option String}
    (h : listingTypeUrlSegment c = listingTypeUrlSegment c') :
    listingTypeLabel c = listingTypeLabel c' := by
  have hall : ∀ a ∈ defaultListingType :: listingTypeTable.map (·.2),
      ∀ b ∈ defaultListingType :: listingTypeTable.map (·.2),
        a.urlSegment = b.urlSegment → a.display = b.display := by decide
  exact hall _ (labelOf_mem ..) _ (labelOf_mem ..) h

/-- The slugs of the provinces, computed once. -/
def provinceSlugs : List String :=
  ["", "araba", "albacete", "alicante", "almeria", "avila", "badajoz",
    "illes-balears", "barcelona", "burgos", "caceres", "cadiz", "castellon",
    "ciudad-real", "cordoba", "a-coruna", "cuenca", "girona", "granada",
    "guadalajara", "gipuzkoa", "huelva", "huesca", "jaen", "leon", "lleida",
    "la-rioja", "lugo", "madrid", "malaga", "murcia", "navarra", "ourense",
    "asturias", "palencia", "las-palmas", "pontevedra", "salamanca",
    "santa-cruz-de-tenerife", "cantabria", "segovia", "sevilla", "soria",
    "tarragona", "teruel", "toledo", "valencia", "valladolid", "bizkaia",
    "zamora", "zaragoza", "ceuta", "melilla"]

def provinceSlug (province : Province) : String :=
  ((Province.all.zip provinceSlugs).lookup province).getD ""

theorem provinceSlug_inj {p q : Province} (h : provinceSlug p = provinceSlug q) :
    p = q := by
  have hnodup : (Province.all.map provinceSlug).Nodup := by
    have hslugs : Province.all.map provinceSlug = provinceSlugs := by rfl
    rw [hslugs]
    decide
  have hall : ∀ p : Province, p ∈ Province.all := by
    intro p
    cases p <;> decide
  exact List.inj_on_of_nodup_map hnodup (hall p) (hall q) h

section Runtime

variable [PythonRuntime]

theorem slugify_provinceName (province : Province) :
    slugify (provinceName province) = (provinceSlug province).toList := by
  cases province <;> rfl

theorem provinceLabel_of_urlSlug {c c' : Option String}
    (h : provinceUrlSlug c = provinceUrlSlug c') :
    provinceLabel c = provinceLabel c' := by
  simp only [provinceUrlSlug, provinceLabel, slugify_provinceName] at h ⊢
  rw [provinceSlug_inj (String.toList_inj.mp h)]

theorem labels_of_buildUrl {q q' : PortalQuery} (h : buildUrl q = buildUrl q') :
    listingTypeLabel (q.params.get "listing_type") =
        listingTypeLabel (q'.params.get "listing_type") ∧
      provinceLabel (q.params.get "province") =
        provinceLabel (q'.params.get "province") := by
  obtain ⟨hlisting, -, hprovince⟩ := searchUrl_inj
    (not_mem_listingTypeUrlSegment _) (not_mem_listingTypeUrlSegment _)
    (not_mem_propertyTypeUrlSegment _) (not_mem_propertyTypeUrlSegment _) h
  exact ⟨listingTypeLabel_of_urlSegment hlisting,
    provinceLabel_of_urlSlug hprovince⟩

/-! ## What a card becomes -/

omit [PythonRuntime] in
theorem get_mapFields_card {tipo operacion provincia : String} {card : Card}
    {portalKey canonical key : String} {group : FieldGroup}
    (hentry : (portalKey, canonical) ∈ idealistaFieldMap)
    (hgroup : fieldGroup canonical = (group, key)) :
    ((mapFields idealistaFieldMap
      (cardRaw tipo operacion provincia card)).group group).get key =
        (cardRaw tipo operacion provincia card).get portalKey :=
  get_mapFields nodup_idealistaFieldMap hentry hgroup

omit [PythonRuntime] in
theorem stated_card_eq_none {tipo operacion provincia : String} {card : Card}
    {portalKey canonical key : String} {group : FieldGroup}
    (hentry : (portalKey, canonical) ∈ idealistaFieldMap)
    (hgroup : fieldGroup canonical = (group, key)) (habsent : portalKey ∉ cardKeys) :
    stated ((mapFields idealistaFieldMap
      (cardRaw tipo operacion provincia card)).group group) key = none := by
  rw [stated, get_mapFields_card hentry hgroup,
    get_cardRaw_eq_none _ _ _ _ habsent]

theorem harmless_card (tipo operacion provincia : String) (card : Card) :
    Harmless (mapFields idealistaFieldMap
      (cardRaw tipo operacion provincia card)) := by
  have hprintable : ∀ group key value,
      ((mapFields idealistaFieldMap (cardRaw tipo operacion provincia card)).group
        group).get key = some value → Json.isPrintable value = true := by
    intro group key value hvalue
    obtain ⟨entry, -, hraw⟩ := exists_get_of_mapFields hvalue
    obtain ⟨text, rfl⟩ := textOnly_cardRaw _ _ _ _ _ _ hraw
    rfl
  have habsent : ∀ portalKey canonical group key,
      (portalKey, canonical) ∈ idealistaFieldMap →
        fieldGroup canonical = (group, key) → portalKey ∉ cardKeys →
          ∀ value, stated ((mapFields idealistaFieldMap
            (cardRaw tipo operacion provincia card)).group group) key ≠ some value := by
    intro portalKey canonical group key hentry hgroup hkey value hvalue
    rw [stated_card_eq_none hentry hgroup hkey] at hvalue
    cases hvalue
  constructor
  case scalars =>
    exact fun field _ value hvalue =>
      hprintable .scalars field value (stated_eq_some hvalue)
  case land =>
    exact fun _ value hvalue =>
      hprintable .scalars "land_type" value (stated_eq_some hvalue)
  case features =>
    exact fun entry _ value hvalue => hprintable .features entry.1 value hvalue
  case counts =>
    simp only [countFields, List.forall_mem_cons, List.not_mem_nil, false_implies, implies_true,
      and_true]
    exact ⟨fun value hvalue => absurd hvalue (habsent "habitaciones" "rooms" .scalars
        "rooms" (by decide) (by decide) (by decide) value),
      fun value hvalue => absurd hvalue (habsent "banos" "bathrooms" .scalars
        "bathrooms" (by decide) (by decide) (by decide) value)⟩
  case media =>
    simp only [mediaFields, List.forall_mem_cons, List.not_mem_nil, false_implies, implies_true,
      and_true]
    exact ⟨fun value hvalue => absurd hvalue (habsent "imagenes" "media.images"
        .media "images" (by decide) (by decide) (by decide) value),
      fun value hvalue => absurd hvalue (habsent "videos" "media.videos"
        .media "videos" (by decide) (by decide) (by decide) value)⟩

theorem exists_normalizeIdealista (listing : RawListing)
    {tipo operacion provincia : String} {card : Card}
    (hraw : listing.raw = cardRaw tipo operacion provincia card) :
    ∃ property issues,
      normalizeIdealista listing = .ok ⟨some property, issues⟩ ∧
        property.propertyType = resolvePropertyType (some tipo.toList) := by
  have hharmless := harmless_card tipo operacion provincia card
  rw [← hraw] at hharmless
  obtain ⟨property, issues, hproperty⟩ := exists_normalize hharmless
  obtain ⟨-, issuesOf, hnormalized, -⟩ := normalized_of_normalize hproperty
  have htype : (mapFields idealistaFieldMap listing.raw).scalars.get
      "property_type" = some (.str tipo) := by
    have hentry : ("tipo", "property_type") ∈ idealistaFieldMap := by decide
    have hgroup : fieldGroup "property_type" = (.scalars, "property_type") := by
      decide
    rw [← get_cardRaw_tipo tipo operacion provincia card, ← hraw]
    exact get_mapFields nodup_idealistaFieldMap hentry hgroup
  refine ⟨property, issues, hproperty, ?_⟩
  rw [value_of_resolved hnormalized.propertyType, stated, htype]
  rfl

def labelTerms : List String :=
  ["suelo", "piso", "atico", "duplex", "estudio", "casa", "chalet", "garaje",
    "trastero", "oficina", "local", "edificio"]

theorem normalizeText_labels :
    propertyTypeTable.map (fun entry => normalizeText entry.2.display.toList) =
      labelTerms.map String.toList := by
  rfl

omit [PythonRuntime] in
theorem nodup_resolve_labelTerms : (labelTerms.map fun term =>
    ((texts propertyTypeVocab).lookup term.toList).getD .other).Nodup := by
  decide

theorem propertyTypeLabel_of_resolve {c c' : Option String}
    (h : resolvePropertyType (some (propertyTypeLabel c).toList) =
      resolvePropertyType (some (propertyTypeLabel c').toList)) :
    propertyTypeLabel c = propertyTypeLabel c' := by
  have hnodup : ((propertyTypeTable.map (·.2.display)).map
      fun label => resolvePropertyType (some label.toList)).Nodup := by
    have hterms := nodup_resolve_labelTerms
    rw [← Function.comp_def (fun term : Text =>
      ((texts propertyTypeVocab).lookup term).getD .other) String.toList,
      ← List.map_map, ← normalizeText_labels] at hterms
    simp only [List.map_map, Function.comp_def] at hterms ⊢
    exact hterms
  have hlabel : ∀ a ∈ defaultPropertyType :: propertyTypeTable.map (·.2),
      a.display ∈ propertyTypeTable.map (·.2.display) := by decide
  exact List.inj_on_of_nodup_map hnodup (hlabel _ (labelOf_mem ..))
    (hlabel _ (labelOf_mem ..)) h

/-! ## Two queries -/

def canonical (listing : RawListing) : Except PyError (Option Property) :=
  (normalizeIdealista listing).map (·.property)

/-- The canonical properties of a page, or what normalizing a card raises. -/
def properties (cards : List Card) (query : PortalQuery) (scrapedAt : DateTime) :
    List (Except PyError (Option Property)) :=
  (parse cards query scrapedAt).map canonical

def cardListing (query : PortalQuery) (scrapedAt : DateTime) (card : Card)
    (externalId : String) : RawListing where
  portalSlug := portalSlug
  externalId := externalId
  url := card.url
  scrapedAt := scrapedAt
  raw := cardRaw (propertyTypeLabel (query.params.get "property_type"))
    (listingTypeLabel (query.params.get "listing_type"))
    (String.ofList (provinceLabel (query.params.get "province"))) card

theorem properties_eq (cards : List Card) (query : PortalQuery)
    (t : DateTime) : properties cards query t = cards.filterMap fun card =>
      card.externalId.map fun id => canonical (cardListing query t card id) := by
  rw [properties, parse, List.map_filterMap]
  refine List.filterMap_congr fun card _ => ?_
  rw [parseCard, Option.map_map]
  rfl

omit [PythonRuntime] in
theorem forall_of_filterMap_eq {α β γ : Type} {found : α → Option β}
    {f f' : α → β → γ} {items : List α}
    (h : items.filterMap (fun a => (found a).map (f a)) =
      items.filterMap fun a => (found a).map (f' a)) :
    ∀ a ∈ items, ∀ b, found a = some b → f a b = f' a b := by
  induction items with
  | nil => simp
  | cons a rest ih =>
      rw [List.forall_mem_cons]
      cases hfound : found a with
      | none =>
          simp only [List.filterMap_cons, hfound, Option.map_none] at h
          exact ⟨by simp, ih h⟩
      | some b =>
          simp only [List.filterMap_cons, hfound, Option.map_some,
            List.cons.injEq] at h
          refine ⟨?_, ih h.2⟩
          rintro _ ⟨⟩
          exact h.1

theorem properties_scrapedAt (cards : List Card) (query : PortalQuery)
    (t t' : DateTime) : properties cards query t = properties cards query t' := by
  rw [properties_eq, properties_eq]
  rfl

theorem properties_of_labels {q q' : PortalQuery} (cards : List Card)
    (t : DateTime)
    (htype : propertyTypeLabel (q.params.get "property_type") =
      propertyTypeLabel (q'.params.get "property_type"))
    (hlisting : listingTypeLabel (q.params.get "listing_type") =
      listingTypeLabel (q'.params.get "listing_type"))
    (hprovince : provinceLabel (q.params.get "province") =
      provinceLabel (q'.params.get "province")) :
    properties cards q t = properties cards q' t := by
  simp only [properties, parse, htype, hlisting, hprovince]

theorem propertyTypeLabel_of_canonical {q q' : PortalQuery} {t t' : DateTime}
    {card : Card} {id : String}
    (h : canonical (cardListing q t card id) =
      canonical (cardListing q' t' card id)) :
    propertyTypeLabel (q.params.get "property_type") =
      propertyTypeLabel (q'.params.get "property_type") := by
  obtain ⟨property, issues, hproperty, htype⟩ :=
    exists_normalizeIdealista (cardListing q t card id) rfl
  obtain ⟨property', issues', hproperty', htype'⟩ :=
    exists_normalizeIdealista (cardListing q' t' card id) rfl
  rw [canonical, canonical, hproperty, hproperty'] at h
  obtain rfl := Option.some.inj (Except.ok.inj h)
  exact propertyTypeLabel_of_resolve (htype.symm.trans htype')

/--
Two queries with one URL give one page the same canonical properties if and only
if they seed the same label for the property type, or no card can be used.
-/
theorem properties_eq_iff {q q' : PortalQuery} (hurl : buildUrl q = buildUrl q')
    (select : Text → List Card) (html : Text) (t t' : DateTime) :
    properties (select html) q t = properties (select html) q' t' ↔
      propertyTypeLabel (q.params.get "property_type") =
          propertyTypeLabel (q'.params.get "property_type") ∨
        ∀ card ∈ select html, card.externalId = none := by
  obtain ⟨hlisting, hprovince⟩ := labels_of_buildUrl hurl
  constructor
  · intro h
    refine or_iff_not_imp_right.mpr fun husable => ?_
    obtain ⟨card, hcard, hid⟩ := by simpa using husable
    obtain ⟨id, hid⟩ := Option.ne_none_iff_exists'.mp hid
    rw [properties_eq, properties_eq] at h
    exact propertyTypeLabel_of_canonical
      (forall_of_filterMap_eq h card hcard id hid)
  · rintro (htype | hunusable)
    · rw [properties_scrapedAt _ q' t' t]
      exact properties_of_labels _ _ htype hlisting hprovince
    · have hnone : ∀ query time, properties (select html) query time = [] := by
        intro query time
        rw [properties_eq, List.filterMap_eq_nil_iff]
        exact fun card hcard => by rw [hunusable card hcard, Option.map_none]
      rw [hnone, hnone]

end Runtime

/-! ## A flat and a chalet at one URL -/

def paramsOf (propertyType : String) : Dict String String :=
  Dict.empty.set "property_type" propertyType

def flatQuery : PortalQuery := ⟨portalSlug, paramsOf "FLAT"⟩

def chaletQuery : PortalQuery := ⟨portalSlug, paramsOf "CHALET"⟩

def pageCard : Card where
  elementId := some "107"
  link := none
  description := none
  price := none
  size := none

theorem buildUrl_flatQuery :
    @buildUrl .plain flatQuery = @buildUrl .plain chaletQuery := by
  decide

/-- One listing is a flat or a chalet, depending on the query that found it. -/
theorem canonical_data_depends_on_query :
    @buildUrl .plain flatQuery = @buildUrl .plain chaletQuery ∧
      @properties .plain [pageCard] flatQuery 0 ≠
        @properties .plain [pageCard] chaletQuery 0 := by
  refine ⟨buildUrl_flatQuery, fun h => ?_⟩
  rw [@properties_eq .plain, @properties_eq .plain] at h
  have hlabels := @propertyTypeLabel_of_canonical .plain _ _ _ _ _ _
    (forall_of_filterMap_eq h pageCard (.head _) "107" rfl)
  exact absurd hlabels (by decide)

theorem properties_eq_iff_flatQuery :
    @properties .plain [pageCard] flatQuery 0 =
        @properties .plain [pageCard] chaletQuery 0 ↔
      propertyTypeLabel (flatQuery.params.get "property_type") =
          propertyTypeLabel (chaletQuery.params.get "property_type") ∨
        ∀ card ∈ [pageCard], card.externalId = none :=
  @properties_eq_iff .plain flatQuery chaletQuery buildUrl_flatQuery
    (fun _ => [pageCard]) [] 0 0

end RealEstateTracker.Scraping
