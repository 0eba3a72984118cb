import RealEstateTracker.Domain.Alert
import RealEstateTracker.Domain.Operators
import RealEstateTracker.Domain.Ports

/-!
# The search planner

Due alerts become as few portal queries as possible.  The conditions at the top
of an AND group that a portal can filter by itself become parameters, and alerts
with the same parameters share one query.
-/

namespace RealEstateTracker.Application

open Foundation Domain

structure PortalCapabilities where
  portalSlug : String
  pushableFields : List String
  maxConcurrency : Nat
  deriving DecidableEq, Repr

structure PlannedQuery where
  portalSlug : String
  signature : String
  query : PortalQuery
  alerts : List SearchAlert

abbrev Params := Dict String String

def eqPushableFields : List String := ["province", "property_type", "listing_type"]

variable [runtime : PythonRuntime]

/-- `str(value)` for the value of a condition. -/
def paramValue (value : Option ConditionValue) : String :=
  String.ofList (valueStr value)

def addIfPushable (capabilities : PortalCapabilities) (params : Params)
    (condition : AlertCondition) : Params :=
  if condition.fieldKey ∉ capabilities.pushableFields then params
  else if condition.fieldKey ∈ eqPushableFields then
    if condition.operator = .eq then
      params.set condition.fieldKey (paramValue condition.value)
    else params
  else if condition.fieldKey = "price" then
    match condition.operator, condition.value with
    | .lte, value => params.set "price_max" (paramValue value)
    | .gte, value => params.set "price_min" (paramValue value)
    | .between, some (.tuple [low, high]) =>
        (params.set "price_min" (paramValue (some (.scalar low)))).set
          "price_max" (paramValue (some (.scalar high)))
    | _, _ => params
  else params

/-- Nested groups are not decomposed. -/
def addChild (capabilities : PortalCapabilities) (params : Params) :
    ConditionNode → Params
  | .leaf condition => addIfPushable capabilities params condition
  | .group _ _ _ => params

def pushableParams (capabilities : Dict String PortalCapabilities)
    (alert : SearchAlert) (portalSlug : String) : Params :=
  match capabilities.get portalSlug with
  | none => .empty
  | some found =>
      if alert.conditions.operator = .all then
        alert.conditions.children.foldl (addChild found) .empty
      else .empty

/-- `"&".join(f"{key}={value}" …)` over the sorted items. -/
def canonicalParams (params : Params) : String :=
  "&".intercalate
    ((params.entries.insertionSort fun a b => a.1 ≤ b.1).map
      fun (key, value) => key ++ "=" ++ value)

def signature (portalSlug : String) (params : Params) : String :=
  runtime.sha256 (portalSlug ++ "|" ++ canonicalParams params)

/-- A group of alerts under its key: the portal and the signature. -/
abbrev Groups := Dict (String × String) (Params × List SearchAlert)

def addToGroup (capabilities : Dict String PortalCapabilities)
    (groups : Groups) (alert : SearchAlert) (portalSlug : String) : Groups :=
  let params := pushableParams capabilities alert portalSlug
  let key := (portalSlug, signature portalSlug params)
  match groups.get key with
  | none => groups.set key (params, [alert])
  | some (shared, alerts) => groups.set key (shared, alerts ++ [alert])

def addAlert (capabilities : Dict String PortalCapabilities)
    (groups : Groups) (alert : SearchAlert) : Groups :=
  alert.portalSlugs.sorted.foldl
    (fun groups slug => addToGroup capabilities groups alert slug) groups

def plannedQuery : (String × String) × (Params × List SearchAlert) → PlannedQuery
  | ((portalSlug, signature), (params, alerts)) =>
      { portalSlug, signature, query := ⟨portalSlug, params⟩, alerts }

def plan (capabilities : Dict String PortalCapabilities)
    (dueAlerts : List SearchAlert) : List PlannedQuery :=
  (dueAlerts.foldl (addAlert capabilities) .empty).entries.map plannedQuery

end RealEstateTracker.Application
