import RealEstateTracker.Domain.Vocabulary

/-!
# Vocabularies

The Spanish terms of the portals become members of the enumerations.  Lookup
ignores case and accents and never fails: a missing or unknown term becomes the
fallback of its enumeration.
-/

namespace RealEstateTracker.Infrastructure

open Foundation Domain

def propertyTypeVocab : List (String × PropertyType) :=
  [("piso", .flat), ("apartamento", .flat), ("atico", .penthouse),
    ("duplex", .duplex), ("estudio", .studio), ("casa", .house),
    ("casa unifamiliar", .house), ("chalet", .chalet),
    ("chalet adosado", .chalet), ("adosado", .chalet), ("suelo", .land),
    ("terreno", .land), ("finca rustica", .land), ("garaje", .garage),
    ("plaza de garaje", .garage), ("trastero", .storageRoom),
    ("oficina", .office), ("local comercial", .commercial),
    ("local", .commercial), ("edificio", .building)]

def listingTypeVocab : List (String × ListingType) :=
  [("venta", .sale), ("compra", .sale), ("alquiler", .rent),
    ("arrendamiento", .rent), ("subasta", .auction), ("traspaso", .transfer)]

def landTypeVocab : List (String × LandType) :=
  [("urbano", .urban), ("suelo urbano", .urban), ("urbanizable", .urbanizable),
    ("suelo urbanizable", .urbanizable), ("rustico", .rustic),
    ("rustica", .rustic), ("suelo rustico", .rustic),
    ("no urbanizable", .nonDevelopable),
    ("suelo no urbanizable", .nonDevelopable), ("protegido", .nonDevelopable)]

def provinceAliases : List (String × Province) :=
  [("coruna", .aCoruna), ("la coruna", .aCoruna), ("baleares", .illesBalears),
    ("islas baleares", .illesBalears), ("guipuzcoa", .gipuzkoa),
    ("vizcaya", .bizkaia), ("gerona", .girona), ("lerida", .lleida),
    ("rioja", .laRioja)]

variable [PythonRuntime]

/-- Case and accents folded, as in a text condition, and white space stripped. -/
def normalizeText (text : Text) : Text :=
  Text.strip (Text.casefold (Text.stripAccents text))

/--
The aliases and every name of a province; a lookup takes the first entry, so what
the source sets later stands earlier here.
-/
def provinceVocab : List (Text × Province) :=
  (provinceAliases.map fun (name, province) => (name.toList, province)) ++
    (Province.all.filter (· ≠ .unknown)).reverse.flatMap fun province =>
      (province.displayName.toList.splitOn '/').reverse.map fun part =>
        (normalizeText part, province)

/-- `vocab.get(_normalize_text(text), fallback)`; a missing text is the fallback. -/
def resolve {α : Type} (vocab : List (Text × α)) (fallback : α) :
    Option Text → α
  | none => fallback
  | some text => (vocab.lookup (normalizeText text)).getD fallback

def texts {α : Type} (vocab : List (String × α)) : List (Text × α) :=
  vocab.map fun (term, value) => (term.toList, value)

def resolvePropertyType : Option Text → PropertyType :=
  resolve (texts propertyTypeVocab) .other

def resolveListingType : Option Text → ListingType :=
  resolve (texts listingTypeVocab) .other

def resolveLandType : Option Text → LandType :=
  resolve (texts landTypeVocab) .unknown

def resolveProvince : Option Text → Province :=
  resolve provinceVocab .unknown

end RealEstateTracker.Infrastructure
