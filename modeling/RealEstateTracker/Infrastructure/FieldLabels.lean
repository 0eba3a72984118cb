import RealEstateTracker.Domain.Vocabulary

/-!
# Idealista labels and URL segments

Canonical values become segments of Idealista's URLs and labels on its cards.
A value that is absent or not in a table becomes the default of the table.
-/

namespace RealEstateTracker.Infrastructure

open Foundation Domain

structure Label where
  urlSegment : String
  display : String
  deriving DecidableEq, Repr

def listingTypeTable : List (String × Label) :=
  [("SALE", ⟨"venta", "Venta"⟩), ("RENT", ⟨"alquiler", "Alquiler"⟩)]

def propertyTypeTable : List (String × Label) :=
  [("LAND", ⟨"terrenos", "Suelo"⟩), ("FLAT", ⟨"viviendas", "Piso"⟩),
    ("PENTHOUSE", ⟨"viviendas", "Ático"⟩), ("DUPLEX", ⟨"viviendas", "Dúplex"⟩),
    ("STUDIO", ⟨"viviendas", "Estudio"⟩), ("HOUSE", ⟨"viviendas", "Casa"⟩),
    ("CHALET", ⟨"viviendas", "Chalet"⟩), ("GARAGE", ⟨"garajes", "Garaje"⟩),
    ("STORAGE_ROOM", ⟨"trasteros", "Trastero"⟩),
    ("OFFICE", ⟨"oficinas", "Oficina"⟩), ("COMMERCIAL", ⟨"locales", "Local"⟩),
    ("BUILDING", ⟨"edificios", "Edificio"⟩)]

def defaultListingType : Label := ⟨"venta", "Venta"⟩

def defaultPropertyType : Label := ⟨"viviendas", "Piso"⟩

/-- `table.get(canonical or "", default)`. -/
def labelOf (table : List (String × Label)) (fallback : Label)
    (canonical : Option String) : Label :=
  (table.lookup (canonical.getD "")).getD fallback

def listingTypeUrlSegment (canonical : Option String) : String :=
  (labelOf listingTypeTable defaultListingType canonical).urlSegment

def listingTypeLabel (canonical : Option String) : String :=
  (labelOf listingTypeTable defaultListingType canonical).display

def propertyTypeUrlSegment (canonical : Option String) : String :=
  (labelOf propertyTypeTable defaultPropertyType canonical).urlSegment

def propertyTypeLabel (canonical : Option String) : String :=
  (labelOf propertyTypeTable defaultPropertyType canonical).display

def provinceName (province : Province) : Text :=
  if province = .unknown then []
  else Text.firstPart '/' province.displayName.toList

def provinceLabel (code : Option String) : Text :=
  provinceName (.fromCode (code.getD ""))

/-- The characters that a slug keeps: `[a-z0-9]`. -/
def isSlugChar (c : Char) : Bool :=
  (0x61 ≤ c.toNat && c.toNat ≤ 0x7a) || (0x30 ≤ c.toNat && c.toNat ≤ 0x39)

/-- Each run of other characters becomes one hyphen. -/
def hyphenate : Text → Text
  | [] => []
  | [c] => if isSlugChar c then [c] else ['-']
  | c :: d :: rest =>
      if isSlugChar c then c :: hyphenate (d :: rest)
      else if isSlugChar d then '-' :: hyphenate (d :: rest)
      else hyphenate (d :: rest)

/-- `t.strip("-")`. -/
def stripHyphens (t : Text) : Text :=
  (t.dropWhile (· == '-')).rdropWhile (· == '-')

variable [PythonRuntime]

def slugify (text : Text) : Text :=
  stripHyphens (hyphenate (Text.lower (Text.stripAccents text)))

def provinceUrlSlug (code : Option String) : Text :=
  slugify (provinceLabel code)

end RealEstateTracker.Infrastructure
