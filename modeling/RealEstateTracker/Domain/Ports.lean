import RealEstateTracker.Domain.Values
import RealEstateTracker.Foundation.Dict

/-!
# Scraper and normalizer ports

What a scraper is asked for and returns, and what a normalizer makes of it.
-/

namespace RealEstateTracker.Domain

open Foundation

/-- JSON as portals return it; a float keeps the text that `repr` gives it. -/
inductive Json where
  | null
  | bool (b : Bool)
  | int (n : Int)
  | float (repr : String)
  | str (s : String)
  | list (items : List Json)
  | obj (fields : List (String × Json))

abbrev RawPayload := Dict String Json

structure PortalQuery where
  portalSlug : String
  params : Dict String String

structure RawListing where
  portalSlug : String
  externalId : String
  url : String
  scrapedAt : DateTime
  raw : RawPayload

structure NormalizationIssue where
  field : String
  message : String
  rawValue : Option String
  deriving DecidableEq, Repr

structure NormalizationResult where
  property : Option Property
  issues : List NormalizationIssue
  deriving DecidableEq, Repr

end RealEstateTracker.Domain
