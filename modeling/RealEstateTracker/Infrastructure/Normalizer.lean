import RealEstateTracker.Infrastructure.Parsers
import RealEstateTracker.Infrastructure.Vocabularies

/-!
# The normalizer

Four steps turn a raw listing into a canonical property: field mapping, value
parsing, vocabulary mapping and assembly.  A field that cannot be parsed or
mapped falls back and leaves an issue.
-/

namespace RealEstateTracker.Infrastructure

open Foundation Domain

/-! ## Field mapping -/

inductive FieldGroup where
  | scalars
  | features
  | media
  deriving DecidableEq, Repr

structure MappedFields where
  scalars : RawPayload
  features : RawPayload
  media : RawPayload

namespace MappedFields

def empty : MappedFields := ⟨.empty, .empty, .empty⟩

def group (mapped : MappedFields) : FieldGroup → RawPayload
  | .scalars => mapped.scalars
  | .features => mapped.features
  | .media => mapped.media

def set (mapped : MappedFields) (group : FieldGroup) (key : String)
    (value : Json) : MappedFields :=
  match group with
  | .scalars => { mapped with scalars := mapped.scalars.set key value }
  | .features => { mapped with features := mapped.features.set key value }
  | .media => { mapped with media := mapped.media.set key value }

theorem get_set (mapped : MappedFields) (group group' : FieldGroup)
    (key key' : String) (value : Json) :
    ((mapped.set group key value).group group').get key' =
      if (group, key) = (group', key') then some value
      else (mapped.group group').get key' := by
  cases group <;> cases group' <;> simp [set, MappedFields.group, Dict.get_set]

end MappedFields

def featuresPrefix : Text := "features.".toList

def mediaPrefix : Text := "media.".toList

/-- The group of a canonical field and its name without the prefix of the group. -/
def fieldGroup (canonical : String) : FieldGroup × String :=
  let text := canonical.toList
  if featuresPrefix.isPrefixOf text then
    (.features, String.ofList (text.drop featuresPrefix.length))
  else if mediaPrefix.isPrefixOf text then
    (.media, String.ofList (text.drop mediaPrefix.length))
  else (.scalars, canonical)

def mapField (raw : RawPayload) (mapped : MappedFields)
    (entry : String × String) : MappedFields :=
  match raw.get entry.1 with
  | none => mapped
  | some value =>
      mapped.set (fieldGroup entry.2).1 (fieldGroup entry.2).2 value

def mapFields (fieldMap : List (String × String)) (raw : RawPayload) :
    MappedFields :=
  fieldMap.foldl (mapField raw) .empty

theorem get_mapField (raw : RawPayload) (mapped : MappedFields)
    (entry : String × String) (group : FieldGroup) (key : String) :
    ((mapField raw mapped entry).group group).get key =
      if fieldGroup entry.2 = (group, key) then
        (raw.get entry.1).or ((mapped.group group).get key)
      else (mapped.group group).get key := by
  unfold mapField
  cases raw.get entry.1 with
  | none => simp
  | some value => rw [MappedFields.get_set, Prod.mk.eta, Option.some_or]

theorem get_foldl_mapField {raw : RawPayload} {fieldMap : List (String × String)}
    {group : FieldGroup} {key : String}
    (h : ∀ entry ∈ fieldMap, fieldGroup entry.2 ≠ (group, key))
    (mapped : MappedFields) :
    ((fieldMap.foldl (mapField raw) mapped).group group).get key =
      (mapped.group group).get key := by
  induction fieldMap generalizing mapped with
  | nil => rfl
  | cons entry rest ih =>
      obtain ⟨hentry, hrest⟩ := List.forall_mem_cons.mp h
      rw [List.foldl_cons, ih hrest, get_mapField, if_neg hentry]

theorem get_mapFields {raw : RawPayload} {fieldMap : List (String × String)}
    (hnodup : (fieldMap.map fun entry => fieldGroup entry.2).Nodup)
    {portalKey canonical : String} (hentry : (portalKey, canonical) ∈ fieldMap)
    {group : FieldGroup} {key : String}
    (hgroup : fieldGroup canonical = (group, key)) :
    ((mapFields fieldMap raw).group group).get key = raw.get portalKey := by
  obtain ⟨before, after, rfl⟩ := List.append_of_mem hentry
  rw [List.map_append, List.map_cons, List.nodup_append, List.nodup_cons] at hnodup
  obtain ⟨-, ⟨hafter, -⟩, hbefore⟩ := hnodup
  have hafter' : ∀ entry ∈ after, fieldGroup entry.2 ≠ (group, key) :=
    fun entry hmem heq => hafter (List.mem_map.mpr
      ⟨entry, hmem, by rw [heq, hgroup]⟩)
  have hbefore' : ∀ entry ∈ before, fieldGroup entry.2 ≠ (group, key) :=
    fun entry hmem heq => hbefore _ (List.mem_map.mpr ⟨entry, hmem, rfl⟩) _
      (.head _) (by rw [heq, hgroup])
  have hempty : (MappedFields.empty.group group).get key = none := by
    cases group <;> rfl
  rw [mapFields, List.foldl_append, List.foldl_cons, get_foldl_mapField hafter',
    get_mapField, if_pos hgroup, get_foldl_mapField hbefore', hempty,
    Option.or_none]

theorem source_of_foldl_mapField {raw : RawPayload}
    {fieldMap : List (String × String)} {group : FieldGroup} {key : String}
    {value : Json} {mapped : MappedFields}
    (h : ((fieldMap.foldl (mapField raw) mapped).group group).get key = some value) :
    (mapped.group group).get key = some value ∨
      ∃ entry ∈ fieldMap, raw.get entry.1 = some value := by
  induction fieldMap generalizing mapped with
  | nil => exact .inl h
  | cons entry rest ih =>
      obtain h | ⟨other, hother, hvalue⟩ := ih h
      · rw [get_mapField] at h
        split at h
        · obtain hraw | ⟨-, hmapped⟩ := Option.or_eq_some_iff.mp h
          · exact .inr ⟨entry, .head rest, hraw⟩
          · exact .inl hmapped
        · exact .inl h
      · exact .inr ⟨other, .tail entry hother, hvalue⟩

theorem exists_get_of_mapFields {raw : RawPayload}
    {fieldMap : List (String × String)} {group : FieldGroup} {key : String}
    {value : Json}
    (h : ((mapFields fieldMap raw).group group).get key = some value) :
    ∃ entry ∈ fieldMap, raw.get entry.1 = some value := by
  obtain h | hsource := source_of_foldl_mapField h
  · cases group <;> simp [MappedFields.empty, MappedFields.group] at h
  · exact hsource

def idealistaFieldMap : List (String × String) :=
  [("precio", "price"), ("superficie", "area"),
    ("superficie_solar", "plot_area"), ("habitaciones", "rooms"),
    ("banos", "bathrooms"), ("tipo", "property_type"),
    ("tipo_suelo", "land_type"), ("operacion", "listing_type"),
    ("provincia", "province"), ("titulo", "title"),
    ("descripcion", "description"), ("ascensor", "features.has_lift"),
    ("terraza", "features.has_terrace"), ("jardin", "features.has_garden"),
    ("parking", "features.has_parking"), ("piscina", "features.has_pool"),
    ("obra_nueva", "features.is_new_build"), ("imagenes", "media.images"),
    ("videos", "media.videos")]

theorem nodup_idealistaFieldMap :
    (idealistaFieldMap.map fun entry => fieldGroup entry.2).Nodup := by
  decide

/-! ## Value parsing -/

variable [runtime : PythonRuntime]

/-- `dict.get(field)`, where a stored `None` and a missing key are one. -/
def stated (values : RawPayload) (field : String) : Option Json :=
  match values.get field with
  | none | some .null => none
  | some value => some value

def parsed {α : Type} (parser : Text → Except PyError (Option α))
    (scalars : RawPayload) (field : String) :
    Except PyError (Option α × List NormalizationIssue) :=
  match stated scalars field with
  | none => .ok (none, [])
  | some value => do
      let text ← pyStr value
      match ← parser text with
      | some found => return (some found, [])
      | none => return (none,
          [⟨field, "could not parse value", some (String.ofList text)⟩])

/-! ## Vocabulary mapping -/

/-- A fallback that was used for a stated value leaves an issue. -/
def resolved {α : Type} [DecidableEq α] (resolver : Option Text → α)
    (fallback : Option α) (scalars : RawPayload) (field : String) :
    Except PyError (α × List NormalizationIssue) :=
  match stated scalars field with
  | none => .ok (resolver none, [])
  | some value => do
      let text ← pyStr value
      let found := resolver (some text)
      if fallback = some found then
        return (found,
          [⟨field, "unmapped vocabulary", some (String.ofList text)⟩])
      else return (found, [])

/-! ## Assembly -/

def features (values : RawPayload) : Except PyError Features := do
  let hasLift ← parseBool (values.get "has_lift")
  let hasTerrace ← parseBool (values.get "has_terrace")
  let hasGarden ← parseBool (values.get "has_garden")
  let hasParking ← parseBool (values.get "has_parking")
  let hasPool ← parseBool (values.get "has_pool")
  let isNewBuild ← parseBool (values.get "is_new_build")
  return { hasLift, hasTerrace, hasGarden, hasParking, hasPool, isNewBuild }

/-- The items that `for … in value` visits. -/
def items : Json → Except PyError (List Json)
  | .list items => .ok items
  | .str s => .ok (s.toList.map fun c => .str (String.ofList [c]))
  | .obj fields => .ok (fields.map fun (key, _) => .str key)
  | .null => .error (.typeError "'NoneType' object is not iterable")
  | .bool _ => .error (.typeError "'bool' object is not iterable")
  | .int _ => .error (.typeError "'int' object is not iterable")
  | .float _ => .error (.typeError "'float' object is not iterable")

/-- The absolute URLs among the items, and an issue for each other item. -/
def splitUrls (field : String) :
    List Json → Except PyError (List String × List NormalizationIssue)
  | [] => .ok ([], [])
  | item :: rest => do
      let text ← pyStr item
      let (urls, issues) ← splitUrls field rest
      let invalid : NormalizationIssue :=
        ⟨field, "invalid media URL", some (String.ofList text)⟩
      match item with
      | .str url =>
          if isAbsoluteUrl url then return (url :: urls, issues)
          else return (urls, invalid :: issues)
      | _ => return (urls, invalid :: issues)

def validUrls (values : RawPayload) (field : String) :
    Except PyError (List String × List NormalizationIssue) :=
  match stated values field with
  | none => .ok ([], [])
  | some value =>
      if truthy value then do splitUrls field (← items value) else .ok ([], [])

/-- `str(value or "")`. -/
def textOrEmpty (scalars : RawPayload) (field : String) : Except PyError String :=
  match stated scalars field with
  | none => .ok ""
  | some value =>
      if truthy value then (pyStr value).map String.ofList else .ok ""

/-- `uuid5(namespace, name)`, with a slash between the two. -/
def propertyId (listing : RawListing) : PropertyId :=
  runtime.uuid5 ("2b7a6b3e-6c1a-4f0a-9d3a-9f6e1d9c9a10" ++ "/" ++
    listing.portalSlug ++ ":" ++ listing.externalId)

def unbuildable (message : String) : NormalizationIssue :=
  ⟨"property", "could not construct Property: " ++ message, none⟩

/-- The errors of the constructor that become an issue. -/
def assembled (issues : List NormalizationIssue) :
    Except PyError Property → Except PyError NormalizationResult
  | .ok property => .ok ⟨some property, issues⟩
  | .error (.valueError message) | .error (.typeError message) =>
      .ok ⟨none, issues ++ [unbuildable message]⟩
  | .error error => .error error

/-- The land type of a listing of land; other listings have none. -/
def landTypeOf (scalars : RawPayload) (propertyType : PropertyType) :
    Except PyError (Option LandType × List NormalizationIssue) :=
  if propertyType = .land then do
    let (landType, issues) ← resolved resolveLandType none scalars "land_type"
    return (some landType, issues)
  else .ok (none, [])

def normalize (fieldMap : List (String × String)) (listing : RawListing) :
    Except PyError NormalizationResult := do
  let mapped := mapFields fieldMap listing.raw
  let (price, priceIssues) ← parsed parseMoney mapped.scalars "price"
  let (area, areaIssues) ← parsed parseArea mapped.scalars "area"
  let (plotArea, plotAreaIssues) ← parsed parseArea mapped.scalars "plot_area"
  let (rooms, roomsIssues) ← parsed parseInt mapped.scalars "rooms"
  let (bathrooms, bathroomsIssues) ← parsed parseInt mapped.scalars "bathrooms"
  let (propertyType, propertyTypeIssues) ←
    resolved resolvePropertyType (some .other) mapped.scalars "property_type"
  let (listingType, listingTypeIssues) ←
    resolved resolveListingType (some .other) mapped.scalars "listing_type"
  let (province, provinceIssues) ←
    resolved resolveProvince (some .unknown) mapped.scalars "province"
  let (landType, landTypeIssues) ← landTypeOf mapped.scalars propertyType
  let features ← features mapped.features
  let (images, imagesIssues) ← validUrls mapped.media "images"
  let (videos, videosIssues) ← validUrls mapped.media "videos"
  let media ← Media.new images videos
  let location ← Location.new province none none none none
  -- what the `try` block guards
  assembled (priceIssues ++ areaIssues ++ plotAreaIssues ++ roomsIssues ++
      bathroomsIssues ++ propertyTypeIssues ++ listingTypeIssues ++
      provinceIssues ++ landTypeIssues ++ imagesIssues ++ videosIssues) do
    let title ← textOrEmpty mapped.scalars "title"
    let description ← textOrEmpty mapped.scalars "description"
    Property.new (propertyId listing) listingType propertyType location title
      .active landType price area plotArea rooms bathrooms features []
      description media none

def normalizeIdealista : RawListing → Except PyError NormalizationResult :=
  normalize idealistaFieldMap

end RealEstateTracker.Infrastructure
