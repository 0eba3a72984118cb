import RealEstateTracker.Domain.FieldRegistry

/-!
# The condition parser

Condition strings are `FIELD:OPERATOR[:VALUE]`.  The value is coerced to the
type of the field, and every string becomes one leaf of an AND group.
-/

namespace RealEstateTracker.Application

open Foundation Domain

variable [PythonRuntime]

def malformed (raw : String) : PyError :=
  .invalidCondition ("malformed condition " ++ pyRepr raw ++
    ", expected FIELD:OPERATOR[:VALUE]")

def notANumber (text : Text) : PyError :=
  .invalidCondition ("expected a number, got " ++
    String.ofList (Text.repr text))

def notAnInteger (text : Text) : PyError :=
  .invalidCondition ("expected an integer, got " ++
    String.ofList (Text.repr text))

def notABoolean (text : Text) : PyError :=
  .invalidCondition ("expected a boolean, got " ++
    String.ofList (Text.repr text))

def trueWords : List String := ["true", "1", "yes"]

def falseWords : List String := ["false", "0", "no"]

def coerceScalar (fieldType : FieldType) (valueText : Text) :
    Except PyError Scalar :=
  match fieldType with
  | .money | .area =>
      match Decimal.ofText valueText with
      | some d => .ok (.dec d)
      | none => .error (notANumber valueText)
  | .numeric =>
      match Text.parseInt valueText with
      | some n => .ok (.int n)
      | none => .error (notAnInteger valueText)
  | .bool =>
      let lowered := String.ofList (Text.lower (Text.strip valueText))
      if lowered ∈ trueWords then .ok (.bool true)
      else if lowered ∈ falseWords then .ok (.bool false)
      else .error (notABoolean valueText)
  | _ => .ok (.str (String.ofList valueText))

def coerceValue (fieldType : FieldType) (operator : Operator)
    (valueText : Option Text) : Except PyError (Option ConditionValue) :=
  if operator.isNullary then .ok none
  else
    match valueText with
    | none => .error (.invalidCondition (operator.value ++ " requires a value"))
    | some valueText =>
        if operator = .between then do
          let (lowText, highText) := Text.partition ',' valueText
          let low ← coerceScalar fieldType (Text.strip lowText)
          let high ← coerceScalar fieldType (Text.strip highText)
          return some (.tuple [low, high])
        else do return some (.scalar (← coerceScalar fieldType valueText))

/-- The parts of `FIELD:OPERATOR[:VALUE]`. -/
def splitCondition (raw : String) :
    Except PyError (Text × Text × Option Text) :=
  match Text.splitMax ':' 2 raw.toList with
  | [fieldKey, operatorName] => .ok (fieldKey, operatorName, none)
  | [fieldKey, operatorName, valueText] =>
      .ok (fieldKey, operatorName, some valueText)
  | _ => .error (malformed raw)

def operatorNamed (name : Text) : Except PyError Operator :=
  match Operator.ofValue (String.ofList (Text.upper name)) with
  | .ok operator => .ok operator
  | .error _ => .error (.invalidCondition ("unknown operator: " ++
      String.ofList (Text.repr name)))

def parseCondition (registry : FieldRegistry) (raw : String) :
    Except PyError AlertCondition := do
  let (fieldText, operatorName, valueText) ← splitCondition raw
  let fieldKey := String.ofList fieldText
  let descriptor ← registry.get fieldKey
  let operator ← operatorNamed operatorName
  if operator ∈ descriptor.allowedOperators then
    let value ← coerceValue descriptor.fieldType operator valueText
    AlertCondition.new fieldKey operator value
  else
    .error (.invalidCondition (operator.value ++ " is not valid for field " ++
      pyRepr fieldKey))

def parseAll (registry : FieldRegistry) :
    List String → Except PyError (List AlertCondition)
  | [] => .ok []
  | raw :: rest => do
      let condition ← parseCondition registry raw
      let conditions ← parseAll registry rest
      return condition :: conditions

def parseConditions (registry : FieldRegistry)
    (conditionStrings : List String) : Except PyError RuleGroup := do
  let conditions ← parseAll registry conditionStrings
  RuleGroup.new .all (conditions.map .leaf)

end RealEstateTracker.Application
