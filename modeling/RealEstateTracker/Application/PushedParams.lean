import RealEstateTracker.Application.SearchPlanner
import RealEstateTracker.Foundation.QueryText

/-!
# Pushed parameters

Which parameters the planner pushes, read off the conditions: a later condition
overwrites what an earlier one has written.  The signature depends on the text
of these parameters alone.
-/

namespace RealEstateTracker.Application

open Foundation Domain

/-- The parameters of a query, in the order in which the signature has them. -/
def paramKeys : List String :=
  ["listing_type", "price_max", "price_min", "property_type", "province"]

section Runtime

variable [runtime : PythonRuntime]

def boundWritten (key : String) : Operator → Option ConditionValue → Option String
  | .lte, value => if key = "price_max" then some (paramValue value) else none
  | .gte, value => if key = "price_min" then some (paramValue value) else none
  | .between, some (.tuple [low, high]) =>
      if key = "price_max" then some (paramValue (some (.scalar high)))
      else if key = "price_min" then some (paramValue (some (.scalar low)))
      else none
  | _, _ => none

def writtenBy (capabilities : PortalCapabilities) (key : String)
    (c : AlertCondition) : Option String :=
  if c.fieldKey ∉ capabilities.pushableFields then none
  else if c.fieldKey ∈ eqPushableFields then
    if c.operator = .eq ∧ c.fieldKey = key then some (paramValue c.value) else none
  else if c.fieldKey = "price" then boundWritten key c.operator c.value
  else none

def writtenByChild (capabilities : PortalCapabilities) (key : String) :
    ConditionNode → Option String
  | .leaf c => writtenBy capabilities key c
  | .group _ _ _ => none

def lastWritten (capabilities : PortalCapabilities) (key : String)
    (children : List ConditionNode) : Option String :=
  children.reverse.findSome? (writtenByChild capabilities key)

/-- What the conditions of an alert push to a portal under a parameter. -/
def pushed (capabilities : Dict String PortalCapabilities) (portalSlug : String)
    (alert : SearchAlert) (key : String) : Option String :=
  match capabilities.get portalSlug with
  | none => none
  | some found =>
      if alert.conditions.operator = .all then
        lastWritten found key alert.conditions.children
      else none

/-! ## The planner's fold -/

theorem get_setBounds (params : Params) (key : String) (operator : Operator)
    (value : Option ConditionValue) :
    (match operator, value with
      | .lte, value => params.set "price_max" (paramValue value)
      | .gte, value => params.set "price_min" (paramValue value)
      | .between, some (.tuple [low, high]) =>
          (params.set "price_min" (paramValue (some (.scalar low)))).set
            "price_max" (paramValue (some (.scalar high)))
      | _, _ => params : Params).get key =
      (boundWritten key operator value).or (params.get key) := by
  unfold boundWritten
  split
  · by_cases h : key = "price_max" <;> simp [Dict.get_set, h, eq_comm]
  · by_cases h : key = "price_min" <;> simp [Dict.get_set, h, eq_comm]
  · by_cases hmax : key = "price_max"
    · simp [hmax]
    · by_cases hmin : key = "price_min" <;>
        simp [Dict.get_set, hmax, hmin, eq_comm]
  · rfl

theorem get_addIfPushable (capabilities : PortalCapabilities) (params : Params)
    (c : AlertCondition) (key : String) :
    (addIfPushable capabilities params c).get key =
      (writtenBy capabilities key c).or (params.get key) := by
  unfold addIfPushable writtenBy
  split
  · rfl
  · split
    · by_cases hop : c.operator = .eq
      · by_cases hkey : c.fieldKey = key <;> simp [hop, hkey, Dict.get_set]
      · simp [hop]
    · split
      · exact get_setBounds params key c.operator c.value
      · rfl

theorem get_foldl_addChild (capabilities : PortalCapabilities)
    (children : List ConditionNode) (params : Params) (key : String) :
    (children.foldl (addChild capabilities) params).get key =
      (lastWritten capabilities key children).or (params.get key) := by
  induction children generalizing params with
  | nil => rfl
  | cons child rest ih =>
      have hchild : (addChild capabilities params child).get key =
          (writtenByChild capabilities key child).or (params.get key) := by
        cases child with
        | leaf c => exact get_addIfPushable capabilities params c key
        | group => rfl
      rw [List.foldl_cons, ih, hchild]
      simp [lastWritten, List.findSome?_append, Option.or_assoc]

theorem get_pushableParams (capabilities : Dict String PortalCapabilities)
    (alert : SearchAlert) (portalSlug key : String) :
    (pushableParams capabilities alert portalSlug).get key =
      pushed capabilities portalSlug alert key := by
  unfold pushableParams pushed
  cases capabilities.get portalSlug with
  | none => rfl
  | some found =>
      dsimp only
      split
      · rw [get_foldl_addChild, Dict.get_empty, Option.or_none]
      · rfl

/-! ## The canonical text -/

def pushedItems (capabilities : Dict String PortalCapabilities)
    (portalSlug : String) (alert : SearchAlert) : List (String × String) :=
  paramKeys.filterMap fun key =>
    (pushed capabilities portalSlug alert key).map fun value => (key, value)

theorem mem_paramKeys_of_writtenBy {capabilities : PortalCapabilities}
    {key value : String} {c : AlertCondition}
    (h : writtenBy capabilities key c = some value) : key ∈ paramKeys := by
  have heqFields : ∀ field ∈ eqPushableFields, field ∈ paramKeys := by decide
  have hmax : "price_max" ∈ paramKeys := by decide
  have hmin : "price_min" ∈ paramKeys := by decide
  have hbound : ∀ operator value', boundWritten key operator value' = some value →
      key ∈ paramKeys := by
    intro operator value' h
    unfold boundWritten at h
    split at h
    · by_cases hkey : key = "price_max" <;> simp_all
    · by_cases hkey : key = "price_min" <;> simp_all
    · by_cases hkey : key = "price_max"
      · simp_all
      · by_cases hkey : key = "price_min" <;> simp_all
    · simp at h
  unfold writtenBy at h
  split at h
  · simp at h
  · split at h
    · next hfield =>
      split at h
      · next heq => exact heqFields _ (heq.2 ▸ hfield)
      · simp at h
    · split at h
      · exact hbound _ _ h
      · simp at h

theorem mem_paramKeys_of_pushed {capabilities : Dict String PortalCapabilities}
    {portalSlug key value : String} {alert : SearchAlert}
    (h : pushed capabilities portalSlug alert key = some value) :
    key ∈ paramKeys := by
  unfold pushed at h
  split at h
  · simp at h
  · split at h
    · obtain ⟨child, -, hchild⟩ := List.exists_of_findSome?_eq_some h
      cases child with
      | leaf c => exact mem_paramKeys_of_writtenBy hchild
      | group => simp [writtenByChild] at hchild
    · simp at h

theorem sorted_pushableParams (capabilities : Dict String PortalCapabilities)
    (portalSlug : String) (alert : SearchAlert) :
    (pushableParams capabilities alert portalSlug).entries.insertionSort
        (fun a b => a.1 ≤ b.1) = pushedItems capabilities portalSlug alert := by
  have hsorted : paramKeys.Pairwise (· < ·) := by decide
  rw [Dict.insertionSort_entries hsorted fun key hkey => ?_]
  · simp only [get_pushableParams]
    rfl
  · obtain ⟨value, hvalue⟩ := Option.ne_none_iff_exists'.mp
      fun hnone => Dict.get_eq_none_iff.mp hnone hkey
    rw [get_pushableParams] at hvalue
    exact mem_paramKeys_of_pushed hvalue

/-- The entries of the canonical text. -/
def pushedEntries (capabilities : Dict String PortalCapabilities)
    (portalSlug : String) (alert : SearchAlert) : List QueryText.Entry :=
  (pushedItems capabilities portalSlug alert).map fun item =>
    (item.1.toList, item.2.toList)

theorem canonicalParams_pushableParams
    (capabilities : Dict String PortalCapabilities) (portalSlug : String)
    (alert : SearchAlert) :
    canonicalParams (pushableParams capabilities alert portalSlug) =
      String.ofList (QueryText.joined
        (pushedEntries capabilities portalSlug alert)) := by
  rw [canonicalParams, sorted_pushableParams, ← QueryText.intercalate_entryText,
    pushedEntries, List.map_map, ← String.toList_inj, String.toList_ofList,
    String.toList_intercalate, List.map_map]
  congr 1
  refine List.map_congr_left fun item _ => ?_
  simp [QueryText.entryText]

theorem key_of_mem_pushedEntries {capabilities : Dict String PortalCapabilities}
    {portalSlug : String} {alert : SearchAlert} {entry : QueryText.Entry}
    (h : entry ∈ pushedEntries capabilities portalSlug alert) :
    '=' ∉ entry.1 := by
  have hkeys : ∀ key ∈ paramKeys, '=' ∉ key.toList := by decide
  obtain ⟨item, hitem, rfl⟩ := List.mem_map.mp h
  obtain ⟨key, hkey, hitem⟩ := List.mem_filterMap.mp hitem
  obtain ⟨value, -, rfl⟩ := Option.map_eq_some_iff.mp hitem
  exact hkeys key hkey

end Runtime

end RealEstateTracker.Application
