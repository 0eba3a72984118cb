import RealEstateTracker.Infrastructure.Pipeline

/-!
# Fallbacks and issues

A value that cannot be mapped or parsed falls back and should leave an issue.
The parsers and three of the vocabularies do; a land type or a flag falls back
in silence.
-/

namespace RealEstateTracker.Infrastructure

open Foundation Domain

/-! ## Reported fields -/

/-- A field whose fallback should be reported. -/
structure ReportedField where
  group : FieldGroup
  key : String
  isFallback : Property → Prop

def parsedFields : List ReportedField :=
  [⟨.scalars, "price", (·.price = none)⟩, ⟨.scalars, "area", (·.area = none)⟩,
    ⟨.scalars, "plot_area", (·.plotArea = none)⟩,
    ⟨.scalars, "rooms", (·.rooms = none)⟩,
    ⟨.scalars, "bathrooms", (·.bathrooms = none)⟩]

def vocabularyFields : List ReportedField :=
  [⟨.scalars, "property_type", (·.propertyType = .other)⟩,
    ⟨.scalars, "listing_type", (·.listingType = .other)⟩,
    ⟨.scalars, "province", (·.location.province = .unknown)⟩]

/-- A property that is not land has no land type to fall back to. -/
def landTypeField : ReportedField :=
  ⟨.scalars, "land_type", (·.landType = some .unknown)⟩

def flagField (entry : String × (Features → Option Bool)) : ReportedField :=
  ⟨.features, entry.1, fun property => entry.2 property.features = none⟩

def reportedFields : List ReportedField :=
  parsedFields ++ vocabularyFields ++ landTypeField :: Features.flags.map flagField

/-- The payload states the field and the property has the fallback. -/
def FellBack (mapped : MappedFields) (property : Property) (field : ReportedField) :
    Prop :=
  stated (mapped.group field.group) field.key ≠ none ∧ field.isFallback property

def HasIssue (issues : List NormalizationIssue) (field : ReportedField) : Prop :=
  ∃ issue ∈ issues, issue.field = field.key

/-- Every fallback is reported and nothing else is. -/
def ReportsExactly (mapped : MappedFields) (property : Property)
    (issues : List NormalizationIssue) : Prop :=
  ∀ field ∈ reportedFields, HasIssue issues field ↔ FellBack mapped property field

section Runtime

variable [PythonRuntime] {mapped : MappedFields} {property : Property}
  {issuesOf : String → List NormalizationIssue}

/-! ## Issues by field -/

theorem Normalized.named (h : Normalized mapped property issuesOf) :
    ∀ field ∈ issueFields, ∀ issue ∈ issuesOf field, issue.field = field := by
  simp only [issueFields, List.forall_mem_cons, List.not_mem_nil, false_implies,
    implies_true, and_true]
  exact ⟨(reports_parsed h.price).named, (reports_parsed h.area).named,
    (reports_parsed h.plotArea).named, (reports_parsed h.rooms).named,
    (reports_parsed h.bathrooms).named, (reports_resolved h.propertyType).named,
    (reports_resolved h.listingType).named, (reports_resolved h.province).named,
    (validUrls_eq_ok h.images).2, (validUrls_eq_ok h.videos).2⟩

theorem Normalized.hasIssue_iff (h : Normalized mapped property issuesOf)
    {field : ReportedField} :
    HasIssue (issueFields.flatMap issuesOf) field ↔
      field.key ∈ issueFields ∧ issuesOf field.key ≠ [] := by
  constructor
  · rintro ⟨issue, hissue, hkey⟩
    obtain ⟨name, hname, hissue⟩ := List.mem_flatMap.mp hissue
    obtain rfl : name = field.key := by rw [← hkey, h.named name hname issue hissue]
    exact ⟨hname, List.ne_nil_of_mem hissue⟩
  · rintro ⟨hkey, hne⟩
    obtain ⟨issue, hissue⟩ := List.exists_mem_of_ne_nil _ hne
    exact ⟨issue, List.mem_flatMap.mpr ⟨field.key, hkey, hissue⟩,
      h.named field.key hkey issue hissue⟩

theorem Normalized.reported (h : Normalized mapped property issuesOf) :
    ∀ field ∈ parsedFields ++ vocabularyFields,
      field.key ∈ issueFields ∧
        (issuesOf field.key ≠ [] ↔ FellBack mapped property field) := by
  simp only [parsedFields, vocabularyFields, List.cons_append, List.nil_append,
    List.forall_mem_cons, List.not_mem_nil, false_implies, implies_true, and_true,
    FellBack, MappedFields.group]
  refine ⟨⟨by decide, (reports_parsed h.price).reported⟩,
    ⟨by decide, (reports_parsed h.area).reported⟩,
    ⟨by decide, (reports_parsed h.plotArea).reported⟩,
    ⟨by decide, (reports_parsed h.rooms).reported⟩,
    ⟨by decide, (reports_parsed h.bathrooms).reported⟩,
    ⟨by decide, ?_⟩, ⟨by decide, ?_⟩, ⟨by decide, ?_⟩⟩
  · rw [(reports_resolved h.propertyType).reported, Option.some.injEq,
      @eq_comm _ PropertyType.other]
  · rw [(reports_resolved h.listingType).reported, Option.some.injEq,
      @eq_comm _ ListingType.other]
  · rw [(reports_resolved h.province).reported, Option.some.injEq,
      @eq_comm _ Province.unknown]

omit [PythonRuntime] in
theorem silent_fields : ∀ field ∈ landTypeField :: Features.flags.map flagField,
    field.key ∉ issueFields := by
  simp only [List.forall_mem_cons, List.forall_mem_map, landTypeField, flagField]
  decide

/-! ## Silent fallbacks -/

def LandTypeIsKnown (mapped : MappedFields) : Prop :=
  resolvePropertyType
      ((stated mapped.scalars "property_type").map Json.text) = .land →
    ∀ value, stated mapped.scalars "land_type" = some value →
      resolveLandType (some (Json.text value)) ≠ .unknown

def FlagsAreKnown (mapped : MappedFields) : Prop :=
  ∀ entry ∈ Features.flags, ∀ value, stated mapped.features entry.1 = some value →
    parseBool (some value) ≠ .ok none

theorem Normalized.fellBack_landType_iff (h : Normalized mapped property issuesOf) :
    FellBack mapped property landTypeField ↔ ¬LandTypeIsKnown mapped := by
  obtain ⟨-, hlandType⟩ := value_of_landTypeOf h.landType
  rw [LandTypeIsKnown, ← value_of_resolved h.propertyType]
  simp only [FellBack, landTypeField, MappedFields.group, hlandType]
  cases stated mapped.scalars "land_type" with
  | none => simp
  | some value =>
      by_cases hland : property.propertyType = .land
      · simp [hland]
      · simp [hland]

theorem Normalized.fellBack_flag_iff (h : Normalized mapped property issuesOf)
    {entry : String × (Features → Option Bool)} (hentry : entry ∈ Features.flags) :
    FellBack mapped property (flagField entry) ↔
      ∃ value, stated mapped.features entry.1 = some value ∧
        parseBool (some value) = .ok none := by
  have hflag := features_eq_ok.mp h.features entry hentry
  simp only [FellBack, flagField, MappedFields.group]
  constructor
  · rintro ⟨hstated, hnone⟩
    obtain ⟨value, hvalue⟩ := Option.ne_none_iff_exists'.mp hstated
    rw [stated_eq_some hvalue, hnone] at hflag
    exact ⟨value, hvalue, hflag⟩
  · rintro ⟨value, hvalue, hparse⟩
    rw [stated_eq_some hvalue, hparse] at hflag
    exact ⟨by simp [hvalue], (Except.ok.inj hflag).symm⟩

/--
The issues of a listing report exactly its fallbacks if and only if neither its
land type nor a flag falls back.
-/
theorem fallbacks_are_reported_iff (fieldMap : List (String × String))
    (listing : RawListing) (property : Property) (issues : List NormalizationIssue)
    (h : normalize fieldMap listing = .ok ⟨some property, issues⟩) :
    ReportsExactly (mapFields fieldMap listing.raw) property issues ↔
      LandTypeIsKnown (mapFields fieldMap listing.raw) ∧
        FlagsAreKnown (mapFields fieldMap listing.raw) := by
  obtain ⟨-, issuesOf, hnormalized, rfl⟩ := normalized_of_normalize h
  have hloud : ∀ field ∈ parsedFields ++ vocabularyFields,
      HasIssue (issueFields.flatMap issuesOf) field ↔
        FellBack (mapFields fieldMap listing.raw) property field := by
    intro field hfield
    obtain ⟨hkey, hreported⟩ := hnormalized.reported field hfield
    rw [hnormalized.hasIssue_iff, hreported]
    exact and_iff_right hkey
  have hsilent : ∀ field ∈ landTypeField :: Features.flags.map flagField,
      ¬HasIssue (issueFields.flatMap issuesOf) field := by
    intro field hfield hissue
    exact silent_fields field hfield (hnormalized.hasIssue_iff.mp hissue).1
  rw [ReportsExactly, reportedFields, List.forall_mem_append]
  rw [and_iff_right hloud, List.forall_mem_cons, List.forall_mem_map]
  rw [List.forall_mem_cons, List.forall_mem_map] at hsilent
  apply and_congr
  · rw [iff_false_left hsilent.1, hnormalized.fellBack_landType_iff, not_not]
  · refine forall₂_congr fun entry hentry => ?_
    rw [iff_false_left (hsilent.2 entry hentry),
      hnormalized.fellBack_flag_iff hentry]
    simp

end Runtime

/-! ## A plot in silence -/

/-- A plot of an unknown kind that perhaps has a lift. -/
def oddPlot : RawListing where
  portalSlug := "idealista"
  externalId := "1"
  url := "https://www.idealista.com/inmueble/1/"
  scrapedAt := 0
  raw := ((Dict.empty.set "tipo" (.str "Suelo")).set "tipo_suelo"
    (.str "lunar")).set "ascensor" (.str "quizás")

def oddPlotResult : Except PyError NormalizationResult :=
  @normalizeIdealista .plain oddPlot

theorem exists_oddPlot : ∃ property, oddPlotResult = .ok ⟨some property, []⟩ ∧
    property.landType = some .unknown :=
  ⟨_, rfl, rfl⟩

/-- Neither the land type nor the flag of the plot is reported. -/
theorem fallbacks_are_silent : ¬∀ listing property issues,
    @normalizeIdealista .plain listing = .ok ⟨some property, issues⟩ →
      ReportsExactly (mapFields idealistaFieldMap listing.raw) property issues := by
  intro h
  obtain ⟨property, hproperty, hland⟩ := exists_oddPlot
  have hreports := h oddPlot property [] hproperty landTypeField (by
    simp [reportedFields])
  have hissue := hreports.mpr ⟨by decide, hland⟩
  simp [HasIssue] at hissue

theorem fallbacks_are_reported_iff_oddPlot : ∃ property,
    @normalizeIdealista .plain oddPlot = .ok ⟨some property, []⟩ ∧
      (ReportsExactly (mapFields idealistaFieldMap oddPlot.raw) property [] ↔
        @LandTypeIsKnown .plain (mapFields idealistaFieldMap oddPlot.raw) ∧
          @FlagsAreKnown .plain (mapFields idealistaFieldMap oddPlot.raw)) := by
  obtain ⟨property, hproperty, -⟩ := exists_oddPlot
  exact ⟨property, hproperty,
    @fallbacks_are_reported_iff .plain _ oddPlot property [] hproperty⟩

end RealEstateTracker.Infrastructure
