import RealEstateTracker.Application.SearchPlanner
import RealEstateTracker.Infrastructure.FieldLabels

/-!
# The Idealista scraper

A query becomes a URL, and a results page becomes one raw listing for each card
that has an identifier.  The page does not repeat the parameters of its query on
the cards, so the scraper seeds their labels into every listing.
-/

namespace RealEstateTracker.Infrastructure

open Foundation Domain Application

/-! ## Pages -/

structure CardLink where
  title : Option String
  text : String
  href : Option String
  deriving DecidableEq, Repr

/-- What the selectors find on a card: `article.item` and the elements in it. -/
structure Card where
  elementId : Option String
  link : Option CardLink
  description : Option String
  price : Option String
  size : Option String
  deriving DecidableEq, Repr

def portalSlug : String := "idealista"

def baseUrl : String := "https://www.idealista.com"

/-- `PORTAL_CAPABILITIES`. -/
def portalCapabilities : Dict String PortalCapabilities :=
  Dict.empty.set portalSlug
    { portalSlug
      pushableFields := ["province", "property_type", "listing_type", "price"]
      maxConcurrency := 1 }

/-! ## URLs -/

/-- `{base}/{operation}-{type}/`, and the province twice if there is one. -/
def searchUrl (operation propertyType : String) (province : Text) : Text :=
  baseUrl.toList ++ '/' :: operation.toList ++ '-' :: propertyType.toList ++
    '/' :: if province = [] then [] else province ++ '-' :: province ++ ['/']

def buildUrl [PythonRuntime] (query : PortalQuery) : Text :=
  searchUrl (listingTypeUrlSegment (query.params.get "listing_type"))
    (propertyTypeUrlSegment (query.params.get "property_type"))
    (provinceUrlSlug (query.params.get "province"))

theorem provincePath_inj {p q : Text}
    (h : (if p = [] then [] else p ++ '-' :: p ++ ['/']) =
      if q = [] then [] else q ++ '-' :: q ++ ['/']) : p = q := by
  by_cases hp : p = [] <;> by_cases hq : q = []
  · rw [hp, hq]
  · simp [hp, hq] at h
  · simp [hp, hq] at h
  · rw [if_neg hp, if_neg hq] at h
    have hlength := congrArg List.length h
    simp only [List.length_append, List.length_cons, List.length_nil] at hlength
    simp only [List.append_assoc] at h
    exact (List.append_inj h (by omega)).1

theorem searchUrl_inj {operation operation' propertyType propertyType' : String}
    {province province' : Text}
    (hoperation : '-' ∉ operation.toList) (hoperation' : '-' ∉ operation'.toList)
    (htype : '/' ∉ propertyType.toList) (htype' : '/' ∉ propertyType'.toList)
    (h : searchUrl operation propertyType province =
      searchUrl operation' propertyType' province') :
    operation = operation' ∧ propertyType = propertyType' ∧
      province = province' := by
  simp only [searchUrl, List.append_assoc, List.append_cancel_left_eq,
    List.cons.injEq, true_and, List.cons_append] at h
  obtain ⟨hoperations, h⟩ := append_cons_inj hoperation hoperation' h
  obtain ⟨htypes, h⟩ := append_cons_inj htype htype' h
  exact ⟨String.toList_inj.mp hoperations, String.toList_inj.mp htypes,
    provincePath_inj (by simpa using h)⟩

theorem labelOf_mem (table : List (String × Label)) (fallback : Label)
    (canonical : Option String) :
    labelOf table fallback canonical ∈ fallback :: table.map (·.2) := by
  unfold labelOf
  cases h : table.lookup (canonical.getD "") with
  | none => exact .head _
  | some label =>
      obtain ⟨before, after, rfl, -⟩ := List.lookup_eq_some_iff.mp h
      simp

theorem not_mem_listingTypeUrlSegment (c : Option String) :
    '-' ∉ (listingTypeUrlSegment c).toList := by
  have hall : ∀ a ∈ defaultListingType :: listingTypeTable.map (·.2),
      '-' ∉ a.urlSegment.toList := by decide
  exact hall _ (labelOf_mem ..)

theorem not_mem_propertyTypeUrlSegment (c : Option String) :
    '/' ∉ (propertyTypeUrlSegment c).toList := by
  have hall : ∀ a ∈ defaultPropertyType :: propertyTypeTable.map (·.2),
      '/' ∉ a.urlSegment.toList := by decide
  exact hall _ (labelOf_mem ..)

/-! ## Cards -/

def Card.externalId (card : Card) : Option String :=
  card.elementId.filter (· ≠ "")

def Card.title (card : Card) : String :=
  match card.link with
  | none => ""
  | some link => link.title.getD link.text

def Card.url (card : Card) : String :=
  match card.link with
  | none => ""
  | some link => link.href.getD ""

/-- `raw[key] = text` if the element is there. -/
def setText (key : String) (text : Option String) (raw : RawPayload) :
    RawPayload :=
  match text with
  | none => raw
  | some text => raw.set key (.str text)

def cardRaw (tipo operacion provincia : String) (card : Card) : RawPayload :=
  let seeded := (((Dict.empty.set "titulo" (Json.str card.title)).set "tipo"
    (.str tipo)).set "operacion" (.str operacion)).set "provincia"
    (.str provincia)
  setText "superficie" card.size
    (setText "precio" card.price (setText "descripcion" card.description seeded))

theorem get_setText (key key' : String) (text : Option String)
    (raw : RawPayload) : (setText key text raw).get key' =
      if key = key' then (text.map Json.str).or (raw.get key')
      else raw.get key' := by
  cases text <;> simp [setText, Dict.get_set]

theorem get_cardRaw_tipo (tipo operacion provincia : String) (card : Card) :
    (cardRaw tipo operacion provincia card).get "tipo" = some (.str tipo) := by
  simp [cardRaw, get_setText, Dict.get_set]

def cardKeys : List String :=
  ["titulo", "tipo", "operacion", "provincia", "descripcion", "precio",
    "superficie"]

theorem get_cardRaw_eq_none (tipo operacion provincia : String) (card : Card)
    {key : String} (h : key ∉ cardKeys) :
    (cardRaw tipo operacion provincia card).get key = none := by
  simp only [cardKeys, List.mem_cons, List.not_mem_nil, or_false, not_or] at h
  obtain ⟨h₁, h₂, h₃, h₄, h₅, h₆, h₇⟩ := h
  simp [cardRaw, get_setText, Dict.get_set, Ne.symm h₁, Ne.symm h₂, Ne.symm h₃,
    Ne.symm h₄, Ne.symm h₅, Ne.symm h₆, Ne.symm h₇]

def TextOnly (raw : RawPayload) : Prop :=
  ∀ key value, raw.get key = some value → ∃ text, value = .str text

theorem TextOnly.empty : TextOnly .empty := fun _ _ h => by simp at h

theorem TextOnly.set {raw : RawPayload} (h : TextOnly raw) (key text : String) :
    TextOnly (raw.set key (.str text)) := by
  intro key' value hvalue
  rw [Dict.get_set] at hvalue
  split at hvalue
  · exact ⟨text, (Option.some.inj hvalue).symm⟩
  · exact h key' value hvalue

theorem TextOnly.setText {raw : RawPayload} (h : TextOnly raw) (key : String)
    (text : Option String) : TextOnly (setText key text raw) := by
  cases text with
  | none => exact h
  | some text => exact h.set key text

theorem textOnly_cardRaw (tipo operacion provincia : String) (card : Card) :
    TextOnly (cardRaw tipo operacion provincia card) :=
  ((((((TextOnly.empty.set _ _).set _ _).set _ _).set _ _).setText _ _).setText
    _ _).setText _ _

def parseCard (scrapedAt : DateTime) (tipo operacion provincia : String)
    (card : Card) : Option RawListing :=
  card.externalId.map fun externalId =>
    { portalSlug
      externalId
      url := card.url
      scrapedAt
      raw := cardRaw tipo operacion provincia card }

def parse (cards : List Card) (query : PortalQuery) (scrapedAt : DateTime) :
    List RawListing :=
  cards.filterMap (parseCard scrapedAt
    (propertyTypeLabel (query.params.get "property_type"))
    (listingTypeLabel (query.params.get "listing_type"))
    (String.ofList (provinceLabel (query.params.get "province"))))

end RealEstateTracker.Infrastructure
