import RealEstateTracker.Infrastructure.Normalizer

/-!
# The steps of the normalizer

What each step makes of the value of one field, when it raises, and which issues
it leaves.
-/

namespace RealEstateTracker.Infrastructure

open Foundation Domain

variable [PythonRuntime]

/-! ## Single fields -/

section Fields

variable {scalars : RawPayload} {field : String}

omit [PythonRuntime] in
theorem stated_eq_some {value : Json} (h : stated scalars field = some value) :
    scalars.get field = some value := by
  unfold stated at h
  split at h
  · cases h
  · cases h
  · next found hfound =>
    obtain rfl := Option.some.inj h
    exact hfound

/-- What a step says of a field: its issues name it, and appear when they should. -/
structure Reports (field : String) (issues : List NormalizationIssue)
    (expected : Prop) : Prop where
  named : ∀ issue ∈ issues, issue.field = field
  reported : issues ≠ [] ↔ expected

theorem reports_parsed {α : Type} {parser : Text → Except PyError (Option α)}
    {value : Option α} {issues : List NormalizationIssue}
    (h : parsed parser scalars field = .ok (value, issues)) :
    Reports field issues (stated scalars field ≠ none ∧ value = none) := by
  unfold parsed at h
  split at h
  · next hnone =>
    obtain ⟨rfl, rfl⟩ := Prod.mk.inj (Except.ok.inj h)
    exact ⟨by simp, by simp [hnone]⟩
  · next raw hsome =>
    obtain ⟨text, -, h⟩ := bind_eq_ok.mp h
    obtain ⟨found, -, h⟩ := bind_eq_ok.mp h
    cases found with
    | none =>
        obtain ⟨rfl, rfl⟩ := Prod.mk.inj (pure_eq_ok.mp h)
        exact ⟨by simp, by simp [hsome]⟩
    | some found =>
        obtain ⟨rfl, rfl⟩ := Prod.mk.inj (pure_eq_ok.mp h)
        exact ⟨by simp, by simp⟩

theorem exists_text_of_parsed {α : Type}
    {parser : Text → Except PyError (Option α)} {value : α}
    {issues : List NormalizationIssue}
    (h : parsed parser scalars field = .ok (some value, issues)) :
    ∃ text, parser text = .ok (some value) := by
  unfold parsed at h
  split at h
  · cases h
  · obtain ⟨text, -, h⟩ := bind_eq_ok.mp h
    obtain ⟨found, hfound, h⟩ := bind_eq_ok.mp h
    cases found with
    | none => cases h
    | some found =>
        obtain ⟨hvalue, -⟩ := Prod.mk.inj (pure_eq_ok.mp h)
        exact ⟨text, hvalue ▸ hfound⟩

theorem exists_parsed_iff {α : Type} {parser : Text → Except PyError (Option α)} :
    (∃ result, parsed parser scalars field = .ok result) ↔
      ∀ value, stated scalars field = some value →
        Json.isPrintable value = true ∧
          ∃ found, parser (Json.text value) = .ok found := by
  unfold parsed
  cases stated scalars field with
  | none => simp
  | some value =>
      simp only [Option.some.injEq, forall_eq']
      constructor
      · rintro ⟨result, h⟩
        obtain ⟨text, htext, h⟩ := bind_eq_ok.mp h
        obtain ⟨found, hfound, -⟩ := bind_eq_ok.mp h
        obtain ⟨hprintable, rfl⟩ := pyStr_eq_ok.mp htext
        exact ⟨hprintable, found, hfound⟩
      · rintro ⟨hprintable, found, hfound⟩
        rw [pyStr_eq_ok.mpr ⟨hprintable, rfl⟩]
        simp only [bind, Except.bind, hfound]
        cases found <;> exact ⟨_, rfl⟩

section Vocabulary

variable {α : Type} [DecidableEq α] {resolver : Option Text → α}
  {fallback : Option α}

theorem reports_resolved {value : α} {issues : List NormalizationIssue}
    (h : resolved resolver fallback scalars field = .ok (value, issues)) :
    Reports field issues
      (stated scalars field ≠ none ∧ fallback = some value) := by
  unfold resolved at h
  split at h
  · next hnone =>
    obtain ⟨rfl, rfl⟩ := Prod.mk.inj (Except.ok.inj h)
    exact ⟨by simp, by simp [hnone]⟩
  · next raw hsome =>
    obtain ⟨text, -, h⟩ := bind_eq_ok.mp h
    dsimp only at h
    split at h
    · next hfallback =>
      obtain ⟨rfl, rfl⟩ := Prod.mk.inj (pure_eq_ok.mp h)
      exact ⟨by simp, by simp [hsome, hfallback]⟩
    · next hfallback =>
      obtain ⟨rfl, rfl⟩ := Prod.mk.inj (pure_eq_ok.mp h)
      exact ⟨by simp, by simp [hfallback]⟩

theorem value_of_resolved {value : α} {issues : List NormalizationIssue}
    (h : resolved resolver fallback scalars field = .ok (value, issues)) :
    value = resolver ((stated scalars field).map Json.text) := by
  unfold resolved at h
  split at h
  · next hnone =>
    rw [hnone]
    exact (Prod.mk.inj (Except.ok.inj h)).1.symm
  · next raw hsome =>
    obtain ⟨text, htext, h⟩ := bind_eq_ok.mp h
    obtain ⟨-, rfl⟩ := pyStr_eq_ok.mp htext
    rw [hsome]
    dsimp only at h
    split at h
    · exact (Prod.mk.inj (pure_eq_ok.mp h)).1.symm
    · exact (Prod.mk.inj (pure_eq_ok.mp h)).1.symm

theorem exists_resolved_iff :
    (∃ result, resolved resolver fallback scalars field = .ok result) ↔
      ∀ value, stated scalars field = some value →
        Json.isPrintable value = true := by
  unfold resolved
  cases stated scalars field with
  | none => simp
  | some value =>
      simp only [Option.some.injEq, forall_eq']
      constructor
      · rintro ⟨result, h⟩
        obtain ⟨text, htext, -⟩ := bind_eq_ok.mp h
        exact (pyStr_eq_ok.mp htext).1
      · intro hprintable
        rw [pyStr_eq_ok.mpr ⟨hprintable, rfl⟩]
        simp only [bind, Except.bind]
        split <;> exact ⟨_, rfl⟩

end Vocabulary

theorem exists_textOrEmpty_iff :
    (∃ text, textOrEmpty scalars field = .ok text) ↔
      ∀ value, stated scalars field = some value →
        Json.isPrintable value = true := by
  unfold textOrEmpty
  cases stated scalars field with
  | none => simp
  | some value =>
      simp only [Option.some.injEq, forall_eq']
      cases htruthy : truthy value with
      | false => simp [isPrintable_of_not_truthy htruthy]
      | true =>
          rw [← exists_pyStr_iff]
          cases pyStr value <;> simp [Except.map]

end Fields

/-! ## Media -/

section MediaUrls

variable {field : String}

theorem splitUrls_eq_ok {elements : List Json} {urls : List String}
    {issues : List NormalizationIssue}
    (h : splitUrls field elements = .ok (urls, issues)) :
    (∀ url ∈ urls, isAbsoluteUrl url = true) ∧
      ∀ issue ∈ issues, issue.field = field := by
  induction elements generalizing urls issues with
  | nil =>
      obtain ⟨rfl, rfl⟩ := Prod.mk.inj (Except.ok.inj h)
      simp
  | cons item rest ih =>
      obtain ⟨text, -, h⟩ := bind_eq_ok.mp h
      obtain ⟨⟨urls', issues'⟩, hrest, h⟩ := bind_eq_ok.mp h
      obtain ⟨hurls, hissues⟩ := ih hrest
      dsimp only at h
      split at h
      · next url =>
        split at h
        · next habsolute =>
          obtain ⟨rfl, rfl⟩ := Prod.mk.inj (pure_eq_ok.mp h)
          exact ⟨List.forall_mem_cons.mpr ⟨habsolute, hurls⟩, hissues⟩
        · obtain ⟨rfl, rfl⟩ := Prod.mk.inj (pure_eq_ok.mp h)
          exact ⟨hurls, List.forall_mem_cons.mpr ⟨rfl, hissues⟩⟩
      · obtain ⟨rfl, rfl⟩ := Prod.mk.inj (pure_eq_ok.mp h)
        exact ⟨hurls, List.forall_mem_cons.mpr ⟨rfl, hissues⟩⟩

theorem exists_splitUrls_iff {elements : List Json} :
    (∃ result, splitUrls field elements = .ok result) ↔
      ∀ item ∈ elements, Json.isPrintable item = true := by
  induction elements with
  | nil => simp [splitUrls]
  | cons item rest ih =>
      rw [List.forall_mem_cons, ← ih]
      constructor
      · rintro ⟨result, h⟩
        obtain ⟨text, htext, h⟩ := bind_eq_ok.mp h
        obtain ⟨found, hfound, -⟩ := bind_eq_ok.mp h
        exact ⟨(pyStr_eq_ok.mp htext).1, found, hfound⟩
      · rintro ⟨hprintable, ⟨urls, issues⟩, hfound⟩
        rw [splitUrls, pyStr_eq_ok.mpr ⟨hprintable, rfl⟩]
        simp only [bind, Except.bind, hfound]
        split
        · split <;> exact ⟨_, rfl⟩
        · exact ⟨_, rfl⟩

variable {values : RawPayload}

theorem validUrls_eq_ok {urls : List String} {issues : List NormalizationIssue}
    (h : validUrls values field = .ok (urls, issues)) :
    (∀ url ∈ urls, isAbsoluteUrl url = true) ∧
      ∀ issue ∈ issues, issue.field = field := by
  unfold validUrls at h
  split at h
  · obtain ⟨rfl, rfl⟩ := Prod.mk.inj (Except.ok.inj h)
    simp
  · split at h
    · obtain ⟨elements, -, h⟩ := bind_eq_ok.mp h
      exact splitUrls_eq_ok h
    · obtain ⟨rfl, rfl⟩ := Prod.mk.inj (Except.ok.inj h)
      simp

def Iterates (value : Json) : Prop :=
  truthy value = true → ∃ elements, items value = .ok elements ∧
    ∀ item ∈ elements, Json.isPrintable item = true

theorem exists_validUrls_iff :
    (∃ result, validUrls values field = .ok result) ↔
      ∀ value, stated values field = some value → Iterates value := by
  unfold validUrls
  cases stated values field with
  | none => simp
  | some value =>
      simp only [Option.some.injEq, forall_eq', Iterates]
      cases htruthy : truthy value with
      | false => simp
      | true =>
          simp only [if_true, forall_true_left]
          constructor
          · rintro ⟨result, h⟩
            obtain ⟨elements, helements, h⟩ := bind_eq_ok.mp h
            exact ⟨elements, helements, exists_splitUrls_iff.mp ⟨result, h⟩⟩
          · rintro ⟨elements, helements, hprintable⟩
            obtain ⟨result, hresult⟩ :=
              (@exists_splitUrls_iff _ field elements).mpr hprintable
            exact ⟨result, bind_eq_ok.mpr ⟨elements, helements, hresult⟩⟩

end MediaUrls

/-! ## Land -/

theorem value_of_landTypeOf {scalars : RawPayload} {propertyType : PropertyType}
    {landType : Option LandType} {issues : List NormalizationIssue}
    (h : landTypeOf scalars propertyType = .ok (landType, issues)) :
    issues = [] ∧ landType = if propertyType = .land then
      some (resolveLandType ((stated scalars "land_type").map Json.text))
      else none := by
  unfold landTypeOf at h
  split
  · next hland =>
    rw [if_pos hland] at h
    obtain ⟨⟨found, issues'⟩, hfound, h⟩ := bind_eq_ok.mp h
    obtain ⟨rfl, rfl⟩ := Prod.mk.inj (pure_eq_ok.mp h)
    refine ⟨?_, congrArg some (value_of_resolved hfound)⟩
    -- the step is called without a fallback, so it never reports one
    by_contra hne
    have := (reports_resolved hfound).reported.mp hne
    simp at this
  · next hland =>
    rw [if_neg hland] at h
    obtain ⟨rfl, rfl⟩ := Prod.mk.inj (Except.ok.inj h)
    exact ⟨rfl, rfl⟩

theorem exists_landTypeOf_iff {scalars : RawPayload} {propertyType : PropertyType} :
    (∃ result, landTypeOf scalars propertyType = .ok result) ↔
      (propertyType = .land → ∀ value, stated scalars "land_type" = some value →
        Json.isPrintable value = true) := by
  unfold landTypeOf
  split
  · next hland =>
    have hresolved : (∃ result, resolved resolveLandType none scalars "land_type" =
        .ok result) ↔ _ := exists_resolved_iff
    rw [← hresolved]
    constructor
    · rintro ⟨result, h⟩ -
      obtain ⟨found, hfound, -⟩ := bind_eq_ok.mp h
      exact ⟨found, hfound⟩
    · intro h
      obtain ⟨found, hfound⟩ := h hland
      exact ⟨_, bind_eq_ok.mpr ⟨found, hfound, rfl⟩⟩
  · next hland => simp [hland]

/-! ## Features -/

theorem features_eq_ok {values : RawPayload} {found : Features} :
    features values = .ok found ↔
      ∀ entry ∈ Features.flags,
        parseBool (values.get entry.1) = .ok (entry.2 found) := by
  simp only [Features.flags, List.forall_mem_cons, List.not_mem_nil,
    false_implies, implies_true, and_true]
  constructor
  · intro h
    obtain ⟨lift, hlift, h⟩ := bind_eq_ok.mp h
    obtain ⟨terrace, hterrace, h⟩ := bind_eq_ok.mp h
    obtain ⟨garden, hgarden, h⟩ := bind_eq_ok.mp h
    obtain ⟨parking, hparking, h⟩ := bind_eq_ok.mp h
    obtain ⟨pool, hpool, h⟩ := bind_eq_ok.mp h
    obtain ⟨newBuild, hnewBuild, h⟩ := bind_eq_ok.mp h
    obtain rfl := pure_eq_ok.mp h
    exact ⟨hlift, hterrace, hgarden, hparking, hpool, hnewBuild⟩
  · rintro ⟨hlift, hterrace, hgarden, hparking, hpool, hnewBuild⟩
    rw [features, hlift, hterrace, hgarden, hparking, hpool, hnewBuild]
    rfl

theorem exists_features_iff {values : RawPayload} :
    (∃ found, features values = .ok found) ↔
      ∀ entry ∈ Features.flags, ∀ value ∈ values.get entry.1,
        Json.isPrintable value = true := by
  constructor
  · rintro ⟨found, h⟩ entry hentry
    exact exists_parseBool_iff.mp ⟨_, features_eq_ok.mp h entry hentry⟩
  · intro h
    have hflag : ∀ entry ∈ Features.flags, ∃ flag,
        parseBool (values.get entry.1) = .ok flag := fun entry hentry =>
      exists_parseBool_iff.mpr (h entry hentry)
    simp only [Features.flags, List.forall_mem_cons, List.not_mem_nil,
      false_implies, implies_true, and_true] at hflag
    obtain ⟨⟨lift, hlift⟩, ⟨terrace, hterrace⟩, ⟨garden, hgarden⟩,
      ⟨parking, hparking⟩, ⟨pool, hpool⟩, ⟨newBuild, hnewBuild⟩⟩ := hflag
    refine ⟨⟨lift, terrace, garden, parking, pool, newBuild⟩,
      features_eq_ok.mpr ?_⟩
    simp only [Features.flags, List.forall_mem_cons, List.not_mem_nil,
      false_implies, implies_true, and_true]
    exact ⟨hlift, hterrace, hgarden, hparking, hpool, hnewBuild⟩

/-! ## The whole pipeline -/

/-- The fields whose steps report issues, in the order of the steps. -/
def issueFields : List String :=
  ["price", "area", "plot_area", "rooms", "bathrooms", "property_type",
    "listing_type", "province", "images", "videos"]

/--
What the steps made of the mapped fields of a listing that became a property,
with the issues of each step.
-/
structure Normalized (mapped : MappedFields) (property : Property)
    (issuesOf : String → List NormalizationIssue) : Prop where
  price : parsed parseMoney mapped.scalars "price" =
    .ok (property.price, issuesOf "price")
  area : parsed parseArea mapped.scalars "area" =
    .ok (property.area, issuesOf "area")
  plotArea : parsed parseArea mapped.scalars "plot_area" =
    .ok (property.plotArea, issuesOf "plot_area")
  rooms : parsed parseInt mapped.scalars "rooms" =
    .ok (property.rooms, issuesOf "rooms")
  bathrooms : parsed parseInt mapped.scalars "bathrooms" =
    .ok (property.bathrooms, issuesOf "bathrooms")
  propertyType : resolved resolvePropertyType (some .other) mapped.scalars
    "property_type" = .ok (property.propertyType, issuesOf "property_type")
  listingType : resolved resolveListingType (some .other) mapped.scalars
    "listing_type" = .ok (property.listingType, issuesOf "listing_type")
  province : resolved resolveProvince (some .unknown) mapped.scalars "province" =
    .ok (property.location.province, issuesOf "province")
  landType : landTypeOf mapped.scalars property.propertyType =
    .ok (property.landType, [])
  features : features mapped.features = .ok property.features
  images : validUrls mapped.media "images" =
    .ok (property.media.images, issuesOf "images")
  videos : validUrls mapped.media "videos" =
    .ok (property.media.videos, issuesOf "videos")
  title : textOrEmpty mapped.scalars "title" = .ok property.title
  description : textOrEmpty mapped.scalars "description" =
    .ok property.description

omit [PythonRuntime] in
theorem assembled_eq_ok {issues issues' : List NormalizationIssue}
    {result : Except PyError Property} {property : Property} :
    assembled issues result = .ok ⟨some property, issues'⟩ ↔
      result = .ok property ∧ issues' = issues := by
  cases result with
  | ok found =>
      simp only [assembled, Except.ok.injEq, NormalizationResult.mk.injEq,
        Option.some.injEq]
      exact and_congr_right fun _ => eq_comm
  | error error => cases error <;> simp [assembled]

theorem normalized_of_normalize {fieldMap : List (String × String)}
    {listing : RawListing} {property : Property}
    {issues : List NormalizationIssue}
    (h : normalize fieldMap listing = .ok ⟨some property, issues⟩) :
    property.id = propertyId listing ∧
      ∃ issuesOf, Normalized (mapFields fieldMap listing.raw) property issuesOf ∧
        issues = issueFields.flatMap issuesOf := by
  obtain ⟨⟨price, priceIssues⟩, hprice, h⟩ := bind_eq_ok.mp h
  obtain ⟨⟨area, areaIssues⟩, harea, h⟩ := bind_eq_ok.mp h
  obtain ⟨⟨plotArea, plotAreaIssues⟩, hplotArea, h⟩ := bind_eq_ok.mp h
  obtain ⟨⟨rooms, roomsIssues⟩, hrooms, h⟩ := bind_eq_ok.mp h
  obtain ⟨⟨bathrooms, bathroomsIssues⟩, hbathrooms, h⟩ := bind_eq_ok.mp h
  obtain ⟨⟨propertyType, propertyTypeIssues⟩, hpropertyType, h⟩ := bind_eq_ok.mp h
  obtain ⟨⟨listingType, listingTypeIssues⟩, hlistingType, h⟩ := bind_eq_ok.mp h
  obtain ⟨⟨province, provinceIssues⟩, hprovince, h⟩ := bind_eq_ok.mp h
  obtain ⟨⟨landType, landTypeIssues⟩, hlandType, h⟩ := bind_eq_ok.mp h
  obtain ⟨features, hfeatures, h⟩ := bind_eq_ok.mp h
  obtain ⟨⟨images, imagesIssues⟩, himages, h⟩ := bind_eq_ok.mp h
  obtain ⟨⟨videos, videosIssues⟩, hvideos, h⟩ := bind_eq_ok.mp h
  obtain ⟨media, hmedia, h⟩ := bind_eq_ok.mp h
  obtain ⟨location, hlocation, h⟩ := bind_eq_ok.mp h
  obtain ⟨hproperty, rfl⟩ := assembled_eq_ok.mp h
  obtain ⟨title, htitle, h⟩ := bind_eq_ok.mp hproperty
  obtain ⟨description, hdescription, h⟩ := bind_eq_ok.mp h
  obtain ⟨-, -, -, rfl⟩ := Property.eq_of_new h
  obtain ⟨rfl, rfl⟩ := Media.eq_of_new hmedia
  obtain rfl := Except.ok.inj hlocation
  obtain ⟨rfl, -⟩ := value_of_landTypeOf hlandType
  let issuesOf : String → List NormalizationIssue := fun field =>
    (List.lookup field [("price", priceIssues), ("area", areaIssues),
      ("plot_area", plotAreaIssues), ("rooms", roomsIssues),
      ("bathrooms", bathroomsIssues), ("property_type", propertyTypeIssues),
      ("listing_type", listingTypeIssues), ("province", provinceIssues),
      ("images", imagesIssues), ("videos", videosIssues)]).getD []
  refine ⟨rfl, issuesOf, ⟨hprice, harea, hplotArea, hrooms, hbathrooms, hpropertyType,
    hlistingType, hprovince, hlandType, hfeatures, himages, hvideos, htitle,
    hdescription⟩, ?_⟩
  simp [issueFields, issuesOf, List.lookup_cons]

theorem id_of_normalize {fieldMap : List (String × String)} {listing : RawListing}
    {result : NormalizationResult} (h : normalize fieldMap listing = .ok result)
    {property : Property} (hproperty : result.property = some property) :
    property.id = propertyId listing := by
  obtain ⟨found, issues⟩ := result
  obtain rfl : found = some property := hproperty
  exact (normalized_of_normalize h).1

def scalarFields : List String :=
  ["price", "area", "plot_area", "rooms", "bathrooms", "property_type",
    "listing_type", "province", "title", "description"]

def countFields : List String := ["rooms", "bathrooms"]

def mediaFields : List String := ["images", "videos"]

/-- The values of a payload that the normalizer goes through without an exception. -/
structure Harmless (mapped : MappedFields) : Prop where
  scalars : ∀ field ∈ scalarFields,
    ∀ value, stated mapped.scalars field = some value →
      Json.isPrintable value = true
  counts : ∀ field ∈ countFields,
    ∀ value, stated mapped.scalars field = some value →
      (firstDigits (clean (Json.text value))).length ≤ Text.maxIntDigits
  land : resolvePropertyType
      ((stated mapped.scalars "property_type").map Json.text) = .land →
    ∀ value, stated mapped.scalars "land_type" = some value →
      Json.isPrintable value = true
  features : ∀ entry ∈ Features.flags, ∀ value ∈ mapped.features.get entry.1,
    Json.isPrintable value = true
  media : ∀ field ∈ mediaFields, ∀ value, stated mapped.media field = some value → Iterates value

theorem Normalized.harmless {mapped : MappedFields} {property : Property}
    {issuesOf : String → List NormalizationIssue}
    (h : Normalized mapped property issuesOf) : Harmless mapped where
  scalars := by
    simp only [scalarFields, List.forall_mem_cons, List.not_mem_nil, false_implies, implies_true,
      and_true]
    refine ⟨?_, ?_, ?_, ?_, ?_, ?_, ?_, ?_, ?_, ?_⟩
    · exact fun value hvalue => (exists_parsed_iff.mp ⟨_, h.price⟩ value hvalue).1
    · exact fun value hvalue => (exists_parsed_iff.mp ⟨_, h.area⟩ value hvalue).1
    · exact fun value hvalue =>
        (exists_parsed_iff.mp ⟨_, h.plotArea⟩ value hvalue).1
    · exact fun value hvalue => (exists_parsed_iff.mp ⟨_, h.rooms⟩ value hvalue).1
    · exact fun value hvalue =>
        (exists_parsed_iff.mp ⟨_, h.bathrooms⟩ value hvalue).1
    · exact exists_resolved_iff.mp ⟨_, h.propertyType⟩
    · exact exists_resolved_iff.mp ⟨_, h.listingType⟩
    · exact exists_resolved_iff.mp ⟨_, h.province⟩
    · exact exists_textOrEmpty_iff.mp ⟨_, h.title⟩
    · exact exists_textOrEmpty_iff.mp ⟨_, h.description⟩
  counts := by
    simp only [countFields, List.forall_mem_cons, List.not_mem_nil, false_implies, implies_true,
      and_true]
    refine ⟨fun value hvalue => ?_, fun value hvalue => ?_⟩
    · exact (exists_parseInt_iff _).mp
        (exists_parsed_iff.mp ⟨_, h.rooms⟩ value hvalue).2
    · exact (exists_parseInt_iff _).mp
        (exists_parsed_iff.mp ⟨_, h.bathrooms⟩ value hvalue).2
  land := by
    rw [← value_of_resolved h.propertyType]
    exact exists_landTypeOf_iff.mp ⟨_, h.landType⟩
  features := exists_features_iff.mp ⟨_, h.features⟩
  media := by
    simp only [mediaFields, List.forall_mem_cons, List.not_mem_nil, false_implies, implies_true,
      and_true]
    exact ⟨exists_validUrls_iff.mp ⟨_, h.images⟩,
      exists_validUrls_iff.mp ⟨_, h.videos⟩⟩

theorem exists_normalize {fieldMap : List (String × String)} {listing : RawListing}
    (h : Harmless (mapFields fieldMap listing.raw)) :
    ∃ property issues,
      normalize fieldMap listing = .ok ⟨some property, issues⟩ := by
  have hscalars := h.scalars
  have hcounts := h.counts
  have hmedia := h.media
  simp only [scalarFields, countFields, mediaFields, List.forall_mem_cons,
    List.not_mem_nil, false_implies, implies_true, and_true]
    at hscalars hcounts hmedia
  obtain ⟨hprice, harea, hplotArea, hrooms, hbathrooms, hpropertyType, hlistingType,
    hprovince, htitle, hdescription⟩ := hscalars
  obtain ⟨⟨price, priceIssues⟩, hprice⟩ := exists_parsed_iff.mpr fun value hvalue =>
    ⟨hprice value hvalue, exists_parseMoney (Json.text value)⟩
  obtain ⟨⟨area, areaIssues⟩, harea⟩ := exists_parsed_iff.mpr fun value hvalue =>
    ⟨harea value hvalue, exists_parseArea (Json.text value)⟩
  obtain ⟨⟨plotArea, plotAreaIssues⟩, hplotArea⟩ :=
    exists_parsed_iff.mpr fun value hvalue =>
      ⟨hplotArea value hvalue, exists_parseArea (Json.text value)⟩
  obtain ⟨⟨rooms, roomsIssues⟩, hrooms⟩ := exists_parsed_iff.mpr fun value hvalue =>
    ⟨hrooms value hvalue, (exists_parseInt_iff _).mpr (hcounts.1 value hvalue)⟩
  obtain ⟨⟨bathrooms, bathroomsIssues⟩, hbathrooms⟩ :=
    exists_parsed_iff.mpr fun value hvalue =>
      ⟨hbathrooms value hvalue, (exists_parseInt_iff _).mpr (hcounts.2 value hvalue)⟩
  have hresolved : ∃ result, resolved resolvePropertyType (some .other)
      (mapFields fieldMap listing.raw).scalars "property_type" = .ok result :=
    exists_resolved_iff.mpr hpropertyType
  obtain ⟨⟨propertyType, propertyTypeIssues⟩, hpropertyType⟩ := hresolved
  have hresolved : ∃ result, resolved resolveListingType (some .other)
      (mapFields fieldMap listing.raw).scalars "listing_type" = .ok result :=
    exists_resolved_iff.mpr hlistingType
  obtain ⟨⟨listingType, listingTypeIssues⟩, hlistingType⟩ := hresolved
  have hresolved : ∃ result, resolved resolveProvince (some .unknown)
      (mapFields fieldMap listing.raw).scalars "province" = .ok result :=
    exists_resolved_iff.mpr hprovince
  obtain ⟨⟨province, provinceIssues⟩, hprovince⟩ := hresolved
  have hland := h.land
  rw [← value_of_resolved hpropertyType] at hland
  obtain ⟨⟨landType, landTypeIssues⟩, hlandType⟩ := exists_landTypeOf_iff.mpr hland
  obtain ⟨features, hfeatures⟩ := exists_features_iff.mpr h.features
  obtain ⟨⟨images, imagesIssues⟩, himages⟩ := exists_validUrls_iff.mpr hmedia.1
  obtain ⟨⟨videos, videosIssues⟩, hvideos⟩ := exists_validUrls_iff.mpr hmedia.2
  obtain ⟨media, hnew⟩ :=
    Media.exists_new (validUrls_eq_ok himages).1 (validUrls_eq_ok hvideos).1
  obtain ⟨title, htitle⟩ := exists_textOrEmpty_iff.mpr htitle
  obtain ⟨description, hdescription⟩ := exists_textOrEmpty_iff.mpr hdescription
  unfold normalize
  simp only [hprice, harea, hplotArea, hrooms, hbathrooms, hpropertyType,
    hlistingType, hprovince, hlandType, hfeatures, himages, hvideos, hnew, htitle,
    hdescription, bind, Except.bind, Location.new_province]
  -- only land has a land type and counts have no sign, so the constructor accepts
  have honly : landType.isSome = true → propertyType = .land := by
    obtain ⟨-, rfl⟩ := value_of_landTypeOf hlandType
    split <;> simp_all
  have hcount : ∀ {field : String} {count : Option Int}
      {issues : List NormalizationIssue},
      parsed parseInt (mapFields fieldMap listing.raw).scalars field =
        .ok (count, issues) → ∀ n ∈ count, 0 ≤ n := by
    rintro field _ issues hparsed n ⟨⟩
    obtain ⟨text, htext⟩ := exists_text_of_parsed hparsed
    exact parseInt_nonneg htext
  rw [Property.new, dif_pos honly, dif_pos (hcount hrooms), dif_pos (hcount hbathrooms)]
  exact ⟨_, _, rfl⟩

end RealEstateTracker.Infrastructure
