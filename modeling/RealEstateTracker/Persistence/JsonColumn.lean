import RealEstateTracker.Domain.Ports

/-!
# Columns of JSON

An update leaves out a JSON column when its new value is `==` to the loaded one.
Python compares `True`, `1` and `1.0` as numbers, and dictionaries without regard to
the order of their keys.
-/

namespace RealEstateTracker.Persistence

open Foundation Domain

/-! ## Numbers -/

/-- The nearest integer that a double holds, half to even. -/
def nearestDouble (n : Nat) : Nat :=
  let unit := 2 ^ (n.log2 - 52)
  let rest := n % unit
  if unit < 2 * rest ∨ (2 * rest = unit ∧ n / unit % 2 = 1) then (n / unit + 1) * unit
  else n / unit * unit

/-- What `==` compares of a number; a float that is no integer keeps its text. -/
inductive JsonNumber where
  | integer (n : Int)
  | float (repr : String)
  deriving DecidableEq, Repr

/-- `repr` is the shortest text of the double, so an integral one has an integral text. -/
def floatNumber (repr : String) : JsonNumber :=
  match Decimal.ofText repr.toList with
  | some (.finite negative coefficient exponent) =>
      let unit := 10 ^ (-exponent).toNat
      if coefficient % unit = 0 then
        let n := nearestDouble (coefficient / unit * 10 ^ exponent.toNat)
        .integer (if negative then -n else n)
      else .float repr
  | _ => .float repr

def jsonNumber : Json → Option JsonNumber
  | .bool b => some (.integer (if b then 1 else 0))
  | .int n => some (.integer n)
  | .float repr => if repr = "nan" then none else some (floatNumber repr)
  | _ => none

/-! ## Equal values -/

mutual

/-- `value == other`. -/
def pyEq : Json → Json → Bool
  | .null, .null => true
  | .str s, .str other => s = other
  | .list items, .list others => itemsEq items others
  | .obj fields, .obj others =>
      fields.length = others.length && fieldsEq fields others
  | value, other =>
      match jsonNumber value, jsonNumber other with
      | some n, some n' => n = n'
      | _, _ => false

def itemsEq : List Json → List Json → Bool
  | [], [] => true
  | item :: items, other :: others => pyEq item other && itemsEq items others
  | _, _ => false

def fieldsEq : List (String × Json) → List (String × Json) → Bool
  | [], _ => true
  | (key, value) :: fields, others =>
      (match others.lookup key with
        | some other => pyEq value other
        | none => false) && fieldsEq fields others

end

def payloadEq (raw raw' : RawPayload) : Bool := pyEq (.obj raw.entries) (.obj raw'.entries)

example : payloadEq (Dict.empty.set "a" (.bool true)) (Dict.empty.set "a" (.int 1)) := by
  decide

end RealEstateTracker.Persistence
