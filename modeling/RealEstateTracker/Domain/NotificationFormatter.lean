import RealEstateTracker.Domain.Values

/-!
# Notification messages

The text that tells the owner of an alert about a new match.
-/

namespace RealEstateTracker.Domain

open Foundation

structure NotificationMessage where
  title : String
  body : String
  url : Option String
  deriving DecidableEq, Repr

/-- A comma before every third digit from the right. -/
def groupThousands (digits : Text) : Text :=
  let reversed := digits.reverse.zipIdx.flatMap fun (digit, place) =>
    if place ≠ 0 ∧ place % 3 = 0 then [',', digit] else [digit]
  reversed.reverse

/-- `f"{amount:,.0f}"`. -/
def wholeAmount : Decimal → Text
  | .finite negative coefficient exponent =>
      let whole := if 0 ≤ exponent then coefficient * 10 ^ exponent.toNat
        else Decimal.dropDigits coefficient (-exponent).toNat
      Decimal.signText negative ++ groupThousands (Text.ofNat whole)
  | amount => amount.toText

def formatMatchMessage (alertName : String) (prop : Property)
    (url : Option String) : NotificationMessage :=
  let price := prop.price.map fun price =>
    wholeAmount price.amount ++ ' ' :: price.currency.value.toList
  let area := prop.area.map fun area =>
    wholeAmount area.squareMeters ++ " m²".toList
  let lines := prop.title :: (price.toList ++ area.toList).map String.ofList
  { title := "New match: " ++ alertName
    body := "\n".intercalate lines
    url }

example : wholeAmount (.finite false 12345675 (-1)) = "1,234,568".toList := by
  decide

end RealEstateTracker.Domain
