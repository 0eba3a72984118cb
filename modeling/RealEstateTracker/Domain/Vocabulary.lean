import RealEstateTracker.Foundation.Decimal

/-!
# Controlled vocabularies and exceptions

Each enumeration has the constructors of the source and, as `value`, the string
that the source stores for it.
-/

namespace RealEstateTracker.Domain

open Foundation

inductive PyError where
  | valueError (message : String)
  | typeError (message : String)
  | keyError (key : String)
  | assertionError
  | decimal (signal : DecimalSignal)
  | invalidCondition (message : String)
  | invalidAlert (message : String)
  | alertNotFound (message : String)
  | scraperError (message : String)
  | notifierError (message : String)
  | integrityError
  | otherError (description : String)
  deriving DecidableEq, Repr

/-- `repr(s)` for a string. -/
def pyRepr [PythonRuntime] (s : String) : String :=
  String.ofList (Text.repr s.toList)

/-- `s.strip()` is empty. -/
def isBlank (s : String) : Bool := (Text.strip s.toList).isEmpty

/-- `Enum(s)`: the member of an enumeration with value `s`. -/
def memberOf [PythonRuntime] {α : Type} (name : String) (all : List α)
    (value : α → String) (s : String) : Except PyError α :=
  match all.find? (value · == s) with
  | some member => .ok member
  | none => .error (.valueError (pyRepr s ++ " is not a valid " ++ name))

inductive Currency where
  | eur
  deriving DecidableEq, Repr

namespace Currency

def value : Currency → String
  | eur => "EUR"

def all : List Currency := [eur]

def ofValue [PythonRuntime] : String → Except PyError Currency :=
  memberOf "Currency" all value

@[simp] theorem ofValue_value [PythonRuntime] (member : Currency) :
    ofValue member.value = .ok member := by
  cases member
  rfl

end Currency

inductive ListingType where
  | sale
  | rent
  | auction
  | transfer
  | other
  deriving DecidableEq, Repr

namespace ListingType

def value : ListingType → String
  | sale => "SALE"
  | rent => "RENT"
  | auction => "AUCTION"
  | transfer => "TRANSFER"
  | other => "OTHER"

def all : List ListingType := [sale, rent, auction, transfer, other]

def ofValue [PythonRuntime] : String → Except PyError ListingType :=
  memberOf "ListingType" all value

@[simp] theorem ofValue_value [PythonRuntime] (member : ListingType) :
    ofValue member.value = .ok member := by
  cases member
  all_goals rfl

end ListingType

inductive ListingStatus where
  | active
  | inactive
  | unknown
  deriving DecidableEq, Repr

namespace ListingStatus

def value : ListingStatus → String
  | active => "ACTIVE"
  | inactive => "INACTIVE"
  | unknown => "UNKNOWN"

def all : List ListingStatus := [active, inactive, unknown]

def ofValue [PythonRuntime] : String → Except PyError ListingStatus :=
  memberOf "ListingStatus" all value

@[simp] theorem ofValue_value [PythonRuntime] (member : ListingStatus) :
    ofValue member.value = .ok member := by
  cases member
  all_goals rfl

end ListingStatus

inductive PropertyType where
  | flat
  | penthouse
  | duplex
  | studio
  | house
  | chalet
  | land
  | garage
  | storageRoom
  | office
  | commercial
  | building
  | other
  deriving DecidableEq, Repr

namespace PropertyType

def value : PropertyType → String
  | flat => "FLAT"
  | penthouse => "PENTHOUSE"
  | duplex => "DUPLEX"
  | studio => "STUDIO"
  | house => "HOUSE"
  | chalet => "CHALET"
  | land => "LAND"
  | garage => "GARAGE"
  | storageRoom => "STORAGE_ROOM"
  | office => "OFFICE"
  | commercial => "COMMERCIAL"
  | building => "BUILDING"
  | other => "OTHER"

def all : List PropertyType :=
  [flat, penthouse, duplex, studio, house, chalet, land, garage, storageRoom,
    office, commercial, building, other]

def ofValue [PythonRuntime] : String → Except PyError PropertyType :=
  memberOf "PropertyType" all value

@[simp] theorem ofValue_value [PythonRuntime] (member : PropertyType) :
    ofValue member.value = .ok member := by
  cases member
  all_goals rfl

end PropertyType

inductive LandType where
  | urban
  | urbanizable
  | rustic
  | nonDevelopable
  | unknown
  deriving DecidableEq, Repr

namespace LandType

def value : LandType → String
  | urban => "URBAN"
  | urbanizable => "URBANIZABLE"
  | rustic => "RUSTIC"
  | nonDevelopable => "NON_DEVELOPABLE"
  | unknown => "UNKNOWN"

def all : List LandType := [urban, urbanizable, rustic, nonDevelopable, unknown]

def ofValue [PythonRuntime] : String → Except PyError LandType :=
  memberOf "LandType" all value

@[simp] theorem ofValue_value [PythonRuntime] (member : LandType) :
    ofValue member.value = .ok member := by
  cases member
  all_goals rfl

end LandType

/-! ## Geography -/

/-- The 52 Spanish provinces and the fallback for one that could not be resolved. -/
inductive Province where
  | unknown | araba | albacete | alicante | almeria | avila | badajoz
  | illesBalears | barcelona | burgos | caceres | cadiz | castellon | ciudadReal
  | cordoba | aCoruna | cuenca | girona | granada | guadalajara | gipuzkoa
  | huelva | huesca | jaen | leon | lleida | laRioja | lugo | madrid | malaga
  | murcia | navarra | ourense | asturias | palencia | lasPalmas | pontevedra
  | salamanca | santaCruzDeTenerife | cantabria | segovia | sevilla | soria
  | tarragona | teruel | toledo | valencia | valladolid | bizkaia | zamora
  | zaragoza | ceuta | melilla
  deriving DecidableEq, Repr

namespace Province

/-- The INE code and the display name of every province, in the order of the source. -/
def table : List (Province × String × String) :=
  [(unknown, "00", "Unknown"), (araba, "01", "Araba/Álava"),
    (albacete, "02", "Albacete"), (alicante, "03", "Alicante/Alacant"),
    (almeria, "04", "Almería"), (avila, "05", "Ávila"),
    (badajoz, "06", "Badajoz"), (illesBalears, "07", "Illes Balears"),
    (barcelona, "08", "Barcelona"), (burgos, "09", "Burgos"),
    (caceres, "10", "Cáceres"), (cadiz, "11", "Cádiz"),
    (castellon, "12", "Castellón/Castelló"), (ciudadReal, "13", "Ciudad Real"),
    (cordoba, "14", "Córdoba"), (aCoruna, "15", "A Coruña"),
    (cuenca, "16", "Cuenca"), (girona, "17", "Girona"),
    (granada, "18", "Granada"), (guadalajara, "19", "Guadalajara"),
    (gipuzkoa, "20", "Gipuzkoa"), (huelva, "21", "Huelva"),
    (huesca, "22", "Huesca"), (jaen, "23", "Jaén"), (leon, "24", "León"),
    (lleida, "25", "Lleida"), (laRioja, "26", "La Rioja"), (lugo, "27", "Lugo"),
    (madrid, "28", "Madrid"), (malaga, "29", "Málaga"), (murcia, "30", "Murcia"),
    (navarra, "31", "Navarra"), (ourense, "32", "Ourense"),
    (asturias, "33", "Asturias"), (palencia, "34", "Palencia"),
    (lasPalmas, "35", "Las Palmas"), (pontevedra, "36", "Pontevedra"),
    (salamanca, "37", "Salamanca"),
    (santaCruzDeTenerife, "38", "Santa Cruz de Tenerife"),
    (cantabria, "39", "Cantabria"), (segovia, "40", "Segovia"),
    (sevilla, "41", "Sevilla"), (soria, "42", "Soria"),
    (tarragona, "43", "Tarragona"), (teruel, "44", "Teruel"),
    (toledo, "45", "Toledo"), (valencia, "46", "Valencia/València"),
    (valladolid, "47", "Valladolid"), (bizkaia, "48", "Bizkaia"),
    (zamora, "49", "Zamora"), (zaragoza, "50", "Zaragoza"),
    (ceuta, "51", "Ceuta"), (melilla, "52", "Melilla")]

def all : List Province := table.map (·.1)

def code (p : Province) : String := ((table.lookup p).map (·.1)).getD ""

def displayName (p : Province) : String := ((table.lookup p).map (·.2)).getD ""

def fromCode (code : String) : Province :=
  (all.find? (·.code == code)).getD unknown

@[simp] theorem fromCode_code (p : Province) : fromCode p.code = p := by
  cases p <;> rfl

end Province

end RealEstateTracker.Domain
