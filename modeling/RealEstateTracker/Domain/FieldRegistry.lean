import RealEstateTracker.Domain.Values
import RealEstateTracker.Domain.Conditions

/-!
# The field registry

Fields are data: a descriptor knows the type of a field, how to extract it from
a property and which operators it allows.
-/

namespace RealEstateTracker.Domain

open Foundation

inductive FieldType where
  | numeric
  | money
  | area
  | enum
  | text
  | bool
  | geo
  deriving DecidableEq, Repr

namespace FieldType

def name : FieldType → String
  | numeric => "NUMERIC"
  | money => "MONEY"
  | area => "AREA"
  | enum => "ENUM"
  | text => "TEXT"
  | bool => "BOOL"
  | geo => "GEO"

def enumOperators : List Operator :=
  [.eq, .neq, .isIn, .notIn, .doesExist, .notExists]

def numericOperators : List Operator :=
  [.eq, .neq, .lt, .lte, .gt, .gte, .between, .doesExist, .notExists]

def textOperators : List Operator :=
  [.eq, .neq, .contains, .notContains, .isIn, .notIn, .doesExist, .notExists]

def boolOperators : List Operator := [.eq, .neq, .doesExist, .notExists]

/-- `_OPS_BY_TYPE`. -/
def operators : FieldType → List Operator
  | numeric | money | area => numericOperators
  | enum => enumOperators
  | text => textOperators
  | bool => boolOperators
  | geo => []

end FieldType

/-- Extracting may raise: the price per square metre is computed on the way. -/
structure FieldDescriptor where
  key : String
  fieldType : FieldType
  extract : Property → Except PyError (Option Scalar)
  allowedOperators : List Operator

structure FieldRegistry where
  descriptors : List FieldDescriptor
  keysNodup : (descriptors.map (·.key)).Nodup

namespace FieldRegistry

def empty : FieldRegistry := ⟨[], List.nodup_nil⟩

def register (registry : FieldRegistry) (descriptor : FieldDescriptor) :
    Except PyError FieldRegistry :=
  if h : descriptor.key ∈ registry.descriptors.map (·.key) then
    .error (.valueError ("field already registered: " ++ descriptor.key))
  else
    .ok ⟨registry.descriptors ++ [descriptor], by
      rw [List.map_append, List.map_singleton, List.nodup_append]
      exact ⟨registry.keysNodup, List.nodup_singleton _, by
        rintro key hkey _ (_ | ⟨_, ⟨⟩⟩) rfl
        exact h hkey⟩⟩

def get (registry : FieldRegistry) (key : String) :
    Except PyError FieldDescriptor :=
  match registry.descriptors.find? (·.key = key) with
  | some descriptor => .ok descriptor
  | none => .error (.invalidCondition ("unknown field: " ++ key))

theorem get_key {registry : FieldRegistry} {key : String}
    {descriptor : FieldDescriptor} (h : registry.get key = .ok descriptor) :
    descriptor ∈ registry.descriptors ∧ descriptor.key = key := by
  unfold get at h
  split at h
  · next found hfind =>
    obtain rfl := Except.ok.inj h
    exact ⟨List.mem_of_find?_eq_some hfind, by
      simpa using List.find?_some hfind⟩
  · simp at h

end FieldRegistry

/-! ## The default registry -/

def statedField (key : String) (fieldType : FieldType)
    (extract : Property → Scalar) : FieldDescriptor :=
  ⟨key, fieldType, fun p => .ok (some (extract p)), fieldType.operators⟩

def optionalField (key : String) (fieldType : FieldType)
    (extract : Property → Option Scalar) : FieldDescriptor :=
  ⟨key, fieldType, fun p => .ok (extract p), fieldType.operators⟩

def featureFlags : List String :=
  ["has_lift", "has_terrace", "has_garden", "has_parking", "has_pool",
    "is_new_build"]

def featureField (flag : String) : FieldDescriptor where
  key := "features." ++ flag
  fieldType := .bool
  extract p := (p.features.get flag).map fun value => value.map .bool
  allowedOperators := FieldType.bool.operators

def pricePerM2Field : FieldDescriptor where
  key := "price_per_m2"
  fieldType := .money
  extract p := p.pricePerM2.map fun value => value.map (.dec ·.amount)
  allowedOperators := FieldType.money.operators

def defaultDescriptors : List FieldDescriptor :=
  [statedField "province" .enum fun p => .str p.location.province.code,
    optionalField "municipality" .enum fun p =>
      p.location.municipality.map fun m => .str m.ineCode,
    statedField "property_type" .enum fun p => .str p.propertyType.value,
    optionalField "land_type" .enum fun p => p.landType.map fun t => .str t.value,
    statedField "listing_type" .enum fun p => .str p.listingType.value,
    statedField "status" .enum fun p => .str p.status.value,
    optionalField "price" .money fun p => p.price.map fun m => .dec m.amount,
    pricePerM2Field,
    optionalField "area" .area fun p => p.area.map fun a => .dec a.squareMeters,
    optionalField "plot_area" .area fun p =>
      p.plotArea.map fun a => .dec a.squareMeters,
    optionalField "rooms" .numeric fun p => p.rooms.map .int,
    optionalField "bathrooms" .numeric fun p => p.bathrooms.map .int,
    optionalField "postal_code" .text fun p => p.location.postalCode.map .str,
    optionalField "district" .text fun p => p.location.district.map .str,
    statedField "title" .text fun p => .str p.title,
    statedField "description" .text fun p => .str p.description] ++
  featureFlags.map featureField

def defaultRegistry : FieldRegistry := ⟨defaultDescriptors, by decide⟩

theorem foldlM_register (registry : FieldRegistry)
    (descriptors : List FieldDescriptor)
    (h : ((registry.descriptors ++ descriptors).map (·.key)).Nodup) :
    descriptors.foldlM FieldRegistry.register registry =
      .ok ⟨registry.descriptors ++ descriptors, h⟩ := by
  induction descriptors generalizing registry with
  | nil =>
      simp only [List.foldlM_nil, List.append_nil]
      rfl
  | cons descriptor descriptors ih =>
      have hnew : descriptor.key ∉ registry.descriptors.map (·.key) := by
        rw [List.map_append, List.map_cons, List.nodup_append] at h
        exact fun hmem => h.2.2 _ hmem _ (.head _) rfl
      have hkeys : ((registry.descriptors ++ [descriptor]).map (·.key)).Nodup :=
        h.sublist (List.Sublist.map _ (by simp))
      rw [List.foldlM_cons, FieldRegistry.register, dif_neg hnew]
      have hih := ih ⟨registry.descriptors ++ [descriptor], hkeys⟩
        (by simpa using h)
      simp only [List.append_assoc, List.singleton_append] at hih
      exact hih

theorem defaultRegistry_eq :
    defaultDescriptors.foldlM FieldRegistry.register .empty =
      .ok defaultRegistry :=
  foldlM_register .empty defaultDescriptors defaultRegistry.keysNodup

end RealEstateTracker.Domain
