import RealEstateTracker.Domain.Conditions

/-!
# Operator strategies

An operator compares a value extracted from a property with the value of a
condition.  A value the portal did not state fails every comparison but the
test for its absence.  Comparisons follow Python: numbers of different types
compare by value, a NaN raises, and so does an order between unlike types.
-/

namespace RealEstateTracker.Domain

open Foundation

/-! ## Comparing scalars -/

namespace Scalar

/-- The number that an `int`, a `Decimal` or a `bool` is. -/
def number? : Scalar → Option Decimal
  | str _ => none
  | int n => some (.ofInt n)
  | dec d => some d
  | bool b => some (.ofInt (if b then 1 else 0))

def typeName : Scalar → String
  | str _ => "str"
  | int _ => "int"
  | dec _ => "decimal.Decimal"
  | bool _ => "bool"

def pyEq (x y : Scalar) : Except PyError Bool :=
  match x, y with
  | str s, str t => .ok (s == t)
  | x, y =>
      match x.number?, y.number? with
      | some a, some b => (a.eq b).mapError .decimal
      | _, _ => .ok false

def unordered (symbol left right : String) : PyError :=
  .typeError ("'" ++ symbol ++ "' not supported between instances of '" ++ left ++
    "' and '" ++ right ++ "'")

/-- An ordering comparison, by the outcomes of `compare` that satisfy it. -/
def pyOrdered (symbol : String) (accepts : Ordering → Bool) (x y : Scalar) :
    Except PyError Bool :=
  match x, y with
  | str s, str t =>
      .ok (accepts (if s < t then .lt else if s = t then .eq else .gt))
  | x, y =>
      match x.number?, y.number? with
      | some a, some b => (Decimal.ordered accepts a b).mapError .decimal
      | _, _ => .error (unordered symbol x.typeName y.typeName)

def pyLt : Scalar → Scalar → Except PyError Bool := pyOrdered "<" (· == .lt)

def pyLe : Scalar → Scalar → Except PyError Bool := pyOrdered "<=" (· != .gt)

def pyGt : Scalar → Scalar → Except PyError Bool := pyOrdered ">" (· == .gt)

def pyGe : Scalar → Scalar → Except PyError Bool := pyOrdered ">=" (· != .lt)

def pyStr : Scalar → Text
  | str s => s.toList
  | int n => Text.ofInt n
  | dec d => d.toText
  | bool b => (if b then "True" else "False").toList

def pyRepr [PythonRuntime] : Scalar → Text
  | str s => Text.repr s.toList
  | dec d => "Decimal('".toList ++ d.toText ++ "')".toList
  | x => x.pyStr

end Scalar

def commaSeparated : List Text → Text
  | [] => []
  | [item] => item
  | item :: rest => item ++ ", ".toList ++ commaSeparated rest

def ConditionValue.pyStr [PythonRuntime] : ConditionValue → Text
  | scalar s => s.pyStr
  | tuple [item] => '(' :: item.pyRepr ++ ",)".toList
  | tuple items => '(' :: commaSeparated (items.map Scalar.pyRepr) ++ [')']

/-- `str(value)` where the value may be `None`. -/
def valueStr [PythonRuntime] : Option ConditionValue → Text
  | none => "None".toList
  | some value => value.pyStr

def valueTypeName : Option ConditionValue → String
  | none => "NoneType"
  | some (.scalar s) => s.typeName
  | some (.tuple _) => "tuple"

/-! ## Strategies -/

def fold [PythonRuntime] (text : Text) : Text :=
  Text.casefold (Text.stripAccents text)

def equalTo (actual : Scalar) : Option ConditionValue → Except PyError Bool
  | some (.scalar expected) => actual.pyEq expected
  | _ => .ok false

/-- `actual < expected` and its kin. -/
def orderedTo (symbol : String) (compare : Scalar → Scalar → Except PyError Bool)
    (actual : Scalar) : Option ConditionValue → Except PyError Bool
  | some (.scalar expected) => compare actual expected
  | expected => .error
      (Scalar.unordered symbol actual.typeName (valueTypeName expected))

def unpackPair : Option ConditionValue → Except PyError (Scalar × Scalar)
  | some (.tuple [low, high]) => .ok (low, high)
  | some (.tuple _) => .error (.valueError "expected 2 values to unpack")
  | some (.scalar (.str s)) =>
      match s.toList with
      | [low, high] =>
          .ok (.str (String.ofList [low]), .str (String.ofList [high]))
      | _ => .error (.valueError "expected 2 values to unpack")
  | expected => .error (.typeError ("cannot unpack non-iterable " ++
      valueTypeName expected ++ " object"))

/-- `low <= actual <= high`, which stops at the first comparison that fails. -/
def betweenPair (actual : Scalar) (expected : Option ConditionValue) :
    Except PyError Bool := do
  let (low, high) ← unpackPair expected
  if ← low.pyLe actual then actual.pyLe high else return false

/-- Whether some item equals `actual`, looking no further than the first. -/
def anyEqual (actual : Scalar) : List Scalar → Except PyError Bool
  | [] => .ok false
  | item :: rest => do
      if ← item.pyEq actual then return true else anyEqual actual rest

def memberOfValue (actual : Scalar) :
    Option ConditionValue → Except PyError Bool
  | some (.tuple items) => anyEqual actual items
  | some (.scalar (.str expected)) =>
      match actual with
      | .str s => .ok (Text.hasSubtext expected.toList s.toList)
      | actual => .error (.typeError
          ("'in <string>' requires string as left operand, not " ++
            actual.typeName))
  | expected => .error (.typeError ("argument of type '" ++
      valueTypeName expected ++ "' is not iterable"))

def containsText [PythonRuntime] (actual : Scalar)
    (expected : Option ConditionValue) : Bool :=
  Text.hasSubtext (fold actual.pyStr) (fold (valueStr expected))

/-- The strategies by operator; `none` is a value that is not known. -/
def Operator.matches [PythonRuntime] (operator : Operator)
    (actual : Option Scalar) (expected : Option ConditionValue) :
    Except PyError Bool :=
  match operator, actual with
  | .doesExist, actual => .ok actual.isSome
  | .notExists, actual => .ok actual.isNone
  | .eq, none => .ok expected.isNone
  | _, none => .ok false
  | .eq, some actual => equalTo actual expected
  | .neq, some actual => (equalTo actual expected).map not
  | .lt, some actual => orderedTo "<" Scalar.pyLt actual expected
  | .lte, some actual => orderedTo "<=" Scalar.pyLe actual expected
  | .gt, some actual => orderedTo ">" Scalar.pyGt actual expected
  | .gte, some actual => orderedTo ">=" Scalar.pyGe actual expected
  | .between, some actual => betweenPair actual expected
  | .isIn, some actual => memberOfValue actual expected
  | .notIn, some actual => (memberOfValue actual expected).map not
  | .contains, some actual => .ok (containsText actual expected)
  | .notContains, some actual => .ok (!containsText actual expected)

end RealEstateTracker.Domain
