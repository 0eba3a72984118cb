import RealEstateTracker.Infrastructure.Pipeline

/-!
# Bad fields

A bad field should degrade to an issue.  Three kinds of values crash the
normalization of Idealista's listings instead: counts with too many digits, media
that cannot be iterated over and integers with too many digits for `str`.
-/

namespace RealEstateTracker.Infrastructure

open Foundation Domain

section Runtime

variable [PythonRuntime]

/-! ## Safe values -/

def SafeValue (canonical : String) (value : Json) : Prop :=
  if (fieldGroup canonical).1 = .media then Iterates value
  else Json.isPrintable value = true ∧ (canonical ∈ countFields →
    (firstDigits (clean (Json.text value))).length ≤ Text.maxIntDigits)

def IsLand (raw : RawPayload) : Prop :=
  resolvePropertyType ((stated raw "tipo").map Json.text) = .land

/-- Every value that the normalizer reads is safe; it reads a land type only of land. -/
def SafePayload (raw : RawPayload) : Prop :=
  ∀ entry ∈ idealistaFieldMap, (entry.2 = "land_type" → IsLand raw) →
    ∀ value, stated raw entry.1 = some value → SafeValue entry.2 value

omit [PythonRuntime] in
theorem stated_idealista {raw : RawPayload} {entry : String × String}
    (hentry : entry ∈ idealistaFieldMap) {group : FieldGroup} {key : String}
    (hgroup : fieldGroup entry.2 = (group, key)) :
    stated ((mapFields idealistaFieldMap raw).group group) key =
      stated raw entry.1 := by
  rw [stated, stated, get_mapFields nodup_idealistaFieldMap hentry hgroup]

omit [PythonRuntime] in
theorem group_idealista : ∀ entry ∈ idealistaFieldMap,
    (entry.2 ∈ scalarFields ∧ fieldGroup entry.2 = (.scalars, entry.2)) ∨
    (entry.2 = "land_type" ∧ fieldGroup entry.2 = (.scalars, entry.2)) ∨
    (entry.2 ∉ countFields ∧
      ∃ flag ∈ Features.flags.map (·.1), fieldGroup entry.2 = (.features, flag)) ∨
    ∃ field ∈ mediaFields, fieldGroup entry.2 = (.media, field) := by
  decide

omit [PythonRuntime] in
theorem exists_idealista :
    (∀ field ∈ "land_type" :: scalarFields, ∃ entry ∈ idealistaFieldMap,
      entry.2 = field ∧ fieldGroup entry.2 = (.scalars, field)) ∧
    (∀ flag ∈ Features.flags.map (·.1), ∃ entry ∈ idealistaFieldMap,
      entry.2 ≠ "land_type" ∧ fieldGroup entry.2 = (.features, flag)) ∧
    ∀ field ∈ mediaFields, ∃ entry ∈ idealistaFieldMap,
      entry.2 ≠ "land_type" ∧ fieldGroup entry.2 = (.media, field) := by
  decide

variable {raw : RawPayload}

omit [PythonRuntime] in
theorem isPrintable_of_stated {values : RawPayload} {field : String}
    (h : ∀ value, stated values field = some value →
      Json.isPrintable value = true) :
    ∀ value ∈ values.get field, Json.isPrintable value = true := by
  intro value hvalue
  cases value with
  | null => rfl
  | bool | int | float | str | list | obj => exact h _ (by rw [stated, hvalue])

theorem safeValue_media {canonical key : String} {value : Json}
    (h : fieldGroup canonical = (.media, key)) :
    SafeValue canonical value ↔ Iterates value := by
  rw [SafeValue, h, if_pos rfl]

theorem safeValue_of_ne_media {canonical key : String} {group : FieldGroup}
    {value : Json} (h : fieldGroup canonical = (group, key))
    (hgroup : group ≠ .media) :
    SafeValue canonical value ↔ Json.isPrintable value = true ∧
      (canonical ∈ countFields →
        (firstDigits (clean (Json.text value))).length ≤ Text.maxIntDigits) := by
  rw [SafeValue, h, if_neg hgroup]

omit [PythonRuntime] in
theorem stated_propertyType (raw : RawPayload) :
    stated (mapFields idealistaFieldMap raw).scalars "property_type" =
      stated raw "tipo" := by
  have hentry : ("tipo", "property_type") ∈ idealistaFieldMap := by decide
  have hgroup : fieldGroup "property_type" = (.scalars, "property_type") := by
    decide
  exact stated_idealista hentry hgroup

theorem Harmless.safePayload (h : Harmless (mapFields idealistaFieldMap raw)) :
    SafePayload raw := by
  intro entry hentry hland value hvalue
  have hget : ∀ {group key}, fieldGroup entry.2 = (group, key) →
      stated ((mapFields idealistaFieldMap raw).group group) key = some value :=
    fun hgroup => by rw [stated_idealista hentry hgroup, hvalue]
  obtain ⟨hscalar, hgroup⟩ | ⟨hlandType, hgroup⟩ | ⟨hcount, flag, hflag, hgroup⟩ |
    ⟨field, hfield, hgroup⟩ := group_idealista entry hentry
  · rw [safeValue_of_ne_media hgroup (by simp)]
    exact ⟨h.scalars _ hscalar value (hget hgroup),
      fun hcount => h.counts _ hcount value (hget hgroup)⟩
  · rw [safeValue_of_ne_media hgroup (by simp)]
    refine ⟨?_, fun hcount => by simp [hlandType, countFields] at hcount⟩
    have hisLand := hland hlandType
    rw [IsLand, ← stated_propertyType] at hisLand
    exact h.land hisLand value (hlandType ▸ hget hgroup)
  · rw [safeValue_of_ne_media hgroup (by simp)]
    refine ⟨?_, fun h => absurd h hcount⟩
    obtain ⟨entry', hentry', rfl⟩ := List.mem_map.mp hflag
    exact h.features entry' hentry' value (stated_eq_some (hget hgroup))
  · rw [safeValue_media hgroup]
    exact h.media field hfield value (hget hgroup)

theorem SafePayload.harmless (h : SafePayload raw) :
    Harmless (mapFields idealistaFieldMap raw) := by
  obtain ⟨hscalars, hflags, hmedia⟩ := exists_idealista
  have hscalar : ∀ field ∈ scalarFields, ∀ value,
      stated (mapFields idealistaFieldMap raw).scalars field = some value →
        Json.isPrintable value = true ∧ (field ∈ countFields →
          (firstDigits (clean (Json.text value))).length ≤ Text.maxIntDigits) := by
    intro field hfield value hvalue
    obtain ⟨entry, hentry, rfl, hgroup⟩ := hscalars field (.tail _ hfield)
    rw [← safeValue_of_ne_media hgroup (by simp)]
    refine h entry hentry (fun hland => ?_) value ?_
    · rw [hland] at hfield
      simp [scalarFields] at hfield
    · rw [← stated_idealista hentry hgroup]
      exact hvalue
  constructor
  case scalars => exact fun field hfield value hvalue =>
    (hscalar field hfield value hvalue).1
  case counts =>
    intro field hfield value hvalue
    have hscalars : ∀ field ∈ countFields, field ∈ scalarFields := by decide
    exact (hscalar field (hscalars field hfield) value hvalue).2 hfield
  case land =>
    intro hisLand value hvalue
    rw [stated_propertyType] at hisLand
    obtain ⟨entry, hentry, hland, hgroup⟩ := hscalars "land_type" (.head _)
    refine ((safeValue_of_ne_media hgroup (by simp)).mp
      (h entry hentry (fun _ => hisLand) value ?_)).1
    rwa [← stated_idealista hentry hgroup]
  case features =>
    intro flag hflag
    refine isPrintable_of_stated fun value hvalue => ?_
    obtain ⟨entry, hentry, hland, hgroup⟩ :=
      hflags flag.1 (List.mem_map_of_mem hflag)
    refine ((safeValue_of_ne_media hgroup (by simp)).mp
      (h entry hentry (fun heq => absurd heq hland) value ?_)).1
    rwa [← stated_idealista hentry hgroup]
  case media =>
    intro field hfield value hvalue
    obtain ⟨entry, hentry, hland, hgroup⟩ := hmedia field hfield
    refine (safeValue_media hgroup).mp
      (h entry hentry (fun heq => absurd heq hland) value ?_)
    rwa [← stated_idealista hentry hgroup]

/-- A listing normalizes to a property if and only if its payload is safe. -/
theorem normalization_returns_iff (listing : RawListing) :
    (∃ property issues,
      normalizeIdealista listing = .ok ⟨some property, issues⟩) ↔
        SafePayload listing.raw := by
  constructor
  · rintro ⟨property, issues, h⟩
    obtain ⟨-, issuesOf, hnormalized, -⟩ := normalized_of_normalize h
    exact hnormalized.harmless.safePayload
  · intro h
    exact exists_normalize h.harmless

end Runtime

/-! ## Media that cannot be iterated over -/

/-- A listing with a number in place of its images. -/
def fiveImages : RawListing where
  portalSlug := "idealista"
  externalId := "1"
  url := "https://www.idealista.com/inmueble/1/"
  scrapedAt := 0
  raw := Dict.empty.set "imagenes" (.int 5)

/-- The number of images crashes the normalization. -/
theorem normalization_crashes :
    @normalizeIdealista .plain fiveImages =
        .error (.typeError "'int' object is not iterable") ∧
      ¬∀ listing, ∃ property issues,
        @normalizeIdealista .plain listing = .ok ⟨some property, issues⟩ := by
  have hcrash : @normalizeIdealista .plain fiveImages =
      .error (.typeError "'int' object is not iterable") := by rfl
  refine ⟨hcrash, fun h => ?_⟩
  obtain ⟨property, issues, hproperty⟩ := h fiveImages
  rw [hcrash] at hproperty
  cases hproperty

end RealEstateTracker.Infrastructure
