import RealEstateTracker.Application.EvaluationSafety
import RealEstateTracker.Application.SearchPlanner

/-!
# Pushdown

What the planner pushes to a portal narrows the download only: a property that
satisfies the alert passes every filter that was pushed for it.
-/

namespace RealEstateTracker.Application

open Foundation Domain

/-- The filter of a portal that a parameter stands for. -/
inductive Admits (p : Property) : String → String → Prop
  | province : Admits p "province" p.location.province.code
  | propertyType : Admits p "property_type" p.propertyType.value
  | listingType : Admits p "listing_type" p.listingType.value
  | priceMin {value : String} {price : Money} {bound : Decimal}
      (hprice : p.price = some price)
      (hbound : Decimal.ofText value.toList = some bound)
      (hge : price.amount.ge bound = .ok true) : Admits p "price_min" value
  | priceMax {value : String} {price : Money} {bound : Decimal}
      (hprice : p.price = some price)
      (hbound : Decimal.ofText value.toList = some bound)
      (hle : price.amount.le bound = .ok true) : Admits p "price_max" value

def AdmitsAll (p : Property) (params : Params) : Prop :=
  ∀ key value, params.get key = some value → Admits p key value

/-- A value of the type that the registry gives its field. -/
def TypedValue (fieldType : FieldType) : Option ConditionValue → Prop
  | none => True
  | some (.scalar s) => HasType fieldType s
  | some (.tuple items) => ∀ s ∈ items, HasType fieldType s

def Typed (c : AlertCondition) : Prop :=
  ∀ d, defaultRegistry.get c.fieldKey = .ok d → TypedValue d.fieldType c.value

section Runtime

variable [PythonRuntime]

/-! ## Satisfied leaves -/

def SatisfiesLeaf (p : Property) (c : AlertCondition) : Prop :=
  ∃ d, defaultRegistry.get c.fieldKey = .ok d ∧
    (Specification.field d c.operator c.value).isSatisfiedBy p = .ok true

theorem satisfiesLeaf_of_satisfies {alert : SearchAlert} {p : Property}
    {c : AlertCondition} (hsat : AlertEngine.Satisfies defaultRegistry p alert)
    (hall : alert.conditions.operator = .all)
    (hc : .leaf c ∈ alert.conditions.children) : SatisfiesLeaf p c := by
  obtain ⟨spec, hbuild, hsat⟩ := hsat
  obtain ⟨specs, hspecs, rfl⟩ := SpecificationFactory.build_eq_ok hbuild
  rw [hall, SpecificationFactory.group, Specification.isSatisfiedBy] at hsat
  obtain ⟨spec, hmem, hnode⟩ := SpecificationFactory.exists_of_nodes hspecs _ hc
  rw [SpecificationFactory.node] at hnode
  obtain ⟨d, hget, rfl⟩ := SpecificationFactory.leaf_eq_ok hnode
  exact ⟨d, hget, Specification.allSatisfied_eq_true hsat _ hmem⟩

theorem SatisfiesLeaf.matches {p : Property} {c : AlertCondition}
    (h : SatisfiesLeaf p c) {d : FieldDescriptor} {actual : Option Scalar}
    (hd : defaultRegistry.get c.fieldKey = .ok d)
    (hextract : d.extract p = .ok actual) :
    c.operator.matches actual c.value = .ok true := by
  obtain ⟨d', hd', hholds⟩ := h
  obtain rfl := Except.ok.inj (hd'.symm.trans hd)
  rwa [Specification.isSatisfiedBy, hextract] at hholds

omit [PythonRuntime] in
theorem eq_of_pyEq_str {s : String} {x : Scalar}
    (h : Scalar.pyEq (.str s) x = .ok true) : x = .str s := by
  cases x <;> simp_all [Scalar.pyEq, Scalar.number?]

theorem paramValue_of_equalTo {s : String} {value : Option ConditionValue}
    (h : equalTo (.str s) value = .ok true) : paramValue value = s := by
  unfold equalTo at h
  split at h
  · rw [eq_of_pyEq_str h]
    exact String.ofList_toList
  · simp at h

theorem SatisfiesLeaf.paramValue_eq {p : Property} {c : AlertCondition}
    (h : SatisfiesLeaf p c) (hop : c.operator = .eq) {d : FieldDescriptor}
    {s : String} (hd : defaultRegistry.get c.fieldKey = .ok d)
    (hextract : d.extract p = .ok (some (.str s))) : paramValue c.value = s := by
  have hmatches := h.matches hd hextract
  rw [hop] at hmatches
  exact paramValue_of_equalTo hmatches

/-! ## Bounds on the price -/

theorem ofText_paramValue {bound : Decimal} (h : bound.InRange) :
    Decimal.ofText (paramValue (some (.scalar (.dec bound)))).toList =
      some bound := by
  rw [paramValue, String.toList_ofList]
  exact Decimal.ofText_toText h

omit [PythonRuntime] in
theorem exists_bound {value : Option ConditionValue} {amount : Decimal}
    {symbol : String} {compare : Scalar → Scalar → Except PyError Bool}
    (htyped : TypedValue .money value)
    (h : orderedTo symbol compare (.dec amount) value = .ok true) :
    ∃ bound, value = some (.scalar (.dec bound)) ∧
      compare (.dec amount) (.dec bound) = .ok true := by
  unfold orderedTo at h
  split at h
  · next expected =>
    cases expected with
    | dec bound => exact ⟨bound, rfl, h⟩
    | str s => exact htyped.elim
    | int n => exact htyped.elim
    | bool b => exact htyped.elim
  · simp at h

omit [PythonRuntime] in
theorem of_mapError_decimal {result : Except DecimalSignal Bool}
    (h : result.mapError PyError.decimal = .ok true) : result = .ok true := by
  cases result with
  | error signal => simp [Except.mapError] at h
  | ok value => simpa [Except.mapError] using h

omit [PythonRuntime] in
theorem exists_pair {amount : Decimal} {low high : Scalar}
    (htyped : TypedValue .money (some (.tuple [low, high])))
    (h : betweenPair (.dec amount) (some (.tuple [low, high])) = .ok true) :
    ∃ a b, low = .dec a ∧ high = .dec b ∧ a.le amount = .ok true ∧
      amount.le b = .ok true := by
  cases low with
  | dec a =>
      cases high with
      | dec b =>
          obtain ⟨pair, hpair, h⟩ := bind_eq_ok.mp h
          obtain rfl := Except.ok.inj hpair
          obtain ⟨lower, hlower, h⟩ := bind_eq_ok.mp h
          cases lower with
          | false => simp [pure_eq_ok] at h
          | true => exact ⟨a, b, rfl, rfl, of_mapError_decimal hlower,
              of_mapError_decimal h⟩
      | str s => exact (htyped _ (.tail _ (.head _))).elim
      | int n => exact (htyped _ (.tail _ (.head _))).elim
      | bool b => exact (htyped _ (.tail _ (.head _))).elim
  | str s => exact (htyped _ (.head _)).elim
  | int n => exact (htyped _ (.head _)).elim
  | bool b => exact (htyped _ (.head _)).elim

/-! ## The fold over the children -/

omit [PythonRuntime] in
theorem AdmitsAll.set {p : Property} {params : Params} (h : AdmitsAll p params)
    {key value : String} (hvalue : Admits p key value) :
    AdmitsAll p (params.set key value) := by
  intro key' value' hget
  rw [Dict.get_set] at hget
  split at hget
  · next heq =>
    obtain rfl := Option.some.inj hget
    exact heq ▸ hvalue
  · exact h key' value' hget

theorem admits_of_eq {p : Property} {c : AlertCondition} (h : SatisfiesLeaf p c)
    (hop : c.operator = .eq) (hkey : c.fieldKey ∈ eqPushableFields) :
    Admits p c.fieldKey (paramValue c.value) := by
  have hfields : ∀ key ∈ eqPushableFields, c.fieldKey = key →
      Admits p key (paramValue c.value) := by
    simp only [eqPushableFields, List.forall_mem_cons]
    refine ⟨fun hfield => ?_, fun hfield => ?_, fun hfield => ?_, by simp⟩
    · rw [h.paramValue_eq hop (by rw [hfield]; rfl) rfl]
      exact .province
    · rw [h.paramValue_eq hop (by rw [hfield]; rfl) rfl]
      exact .propertyType
    · rw [h.paramValue_eq hop (by rw [hfield]; rfl) rfl]
      exact .listingType
  exact hfields _ hkey rfl

theorem admitsAll_price {p : Property} {params : Params} {c : AlertCondition}
    (hparams : AdmitsAll p params) (h : SatisfiesLeaf p c)
    (hprice : c.fieldKey = "price") (htyped : TypedValue .money c.value) :
    AdmitsAll p (match c.operator, c.value with
      | .lte, value => params.set "price_max" (paramValue value)
      | .gte, value => params.set "price_min" (paramValue value)
      | .between, some (.tuple [low, high]) =>
          (params.set "price_min" (paramValue (some (.scalar low)))).set
            "price_max" (paramValue (some (.scalar high)))
      | _, _ => params) := by
  have hmatches : c.operator.matches (p.price.map fun m => .dec m.amount)
      c.value = .ok true :=
    h.matches (by rw [hprice]; rfl) rfl
  have hrange := c.inRange
  cases hknown : p.price with
  | none =>
      rw [hknown] at hmatches
      split <;> simp_all [Operator.matches]
  | some price =>
      rw [hknown, Option.map_some] at hmatches
      split
      · next hop =>
        rw [hop] at hmatches
        obtain ⟨bound, hvalue, hle⟩ := exists_bound htyped hmatches
        rw [hvalue] at hrange ⊢
        exact hparams.set (.priceMax hknown (ofText_paramValue (hrange _ rfl))
          (of_mapError_decimal hle))
      · next hop =>
        rw [hop] at hmatches
        obtain ⟨bound, hvalue, hge⟩ := exists_bound htyped hmatches
        rw [hvalue] at hrange ⊢
        exact hparams.set (.priceMin hknown (ofText_paramValue (hrange _ rfl))
          (of_mapError_decimal hge))
      · next low high hop hvalue =>
        rw [hop, hvalue] at hmatches
        rw [hvalue] at htyped hrange
        obtain ⟨a, b, rfl, rfl, hlow, hhigh⟩ := exists_pair htyped hmatches
        have hbounds := hrange _ rfl
        refine (hparams.set (.priceMin hknown (ofText_paramValue
          (hbounds _ (.head _))) ?_)).set (.priceMax hknown (ofText_paramValue
            (hbounds _ (.tail _ (.head _)))) hhigh)
        rw [Decimal.ge_eq_le]
        exact hlow
      · exact hparams

theorem admitsAll_addIfPushable {p : Property} {params : Params}
    {c : AlertCondition} {capabilities : PortalCapabilities}
    (hparams : AdmitsAll p params) (h : SatisfiesLeaf p c) (htyped : Typed c) :
    AdmitsAll p (addIfPushable capabilities params c) := by
  unfold addIfPushable
  split
  · exact hparams
  · split
    · next hkey =>
      split
      · next hop => exact hparams.set (admits_of_eq h hop hkey)
      · exact hparams
    · split
      · next hprice =>
        exact admitsAll_price hparams h hprice
          (htyped (optionalField "price" .money fun p =>
            p.price.map fun m => .dec m.amount) (by rw [hprice]; rfl))
      · exact hparams

theorem admitsAll_foldl {p : Property} {capabilities : PortalCapabilities}
    {children : List ConditionNode}
    (h : ∀ c, .leaf c ∈ children → SatisfiesLeaf p c ∧ Typed c)
    {params : Params} (hparams : AdmitsAll p params) :
    AdmitsAll p (children.foldl (addChild capabilities) params) := by
  induction children generalizing params with
  | nil => exact hparams
  | cons child rest ih =>
      refine ih (fun c hc => h c (.tail _ hc)) ?_
      cases child with
      | group operator first others => exact hparams
      | leaf c =>
          obtain ⟨hsat, htyped⟩ := h c (.head _)
          exact admitsAll_addIfPushable hparams hsat htyped

/-- A property that satisfies the alert passes every filter pushed for it. -/
theorem pushdown_sound (capabilities : Dict String PortalCapabilities)
    {alert : SearchAlert} (portalSlug : String) {p : Property}
    (htyped : ∀ c ∈ alert.conditions.leaves, Typed c)
    (hsat : AlertEngine.Satisfies defaultRegistry p alert) :
    AdmitsAll p (pushableParams capabilities alert portalSlug) := by
  have hempty : AdmitsAll p .empty := fun key value hget => by simp at hget
  unfold pushableParams
  split
  · exact hempty
  · split
    · next hall =>
      exact admitsAll_foldl (fun c hc => ⟨satisfiesLeaf_of_satisfies hsat hall hc,
        htyped c (RuleGroup.mem_leaves hc)⟩) hempty
    · exact hempty

end Runtime

/-! ## A search with two prices -/

def priceUpTo (bound : Decimal) (h : bound.InRange) : AlertCondition :=
  ⟨"price", .lte, some (.scalar (.dec bound)), rfl, fun value hvalue => by
    obtain rfl := Option.some.inj hvalue
    exact h⟩

def firstPrice : AlertCondition := priceUpTo (.ofInt 300000) (by decide)

def secondPrice : AlertCondition := priceUpTo (.ofInt 200000) (by decide)

def pricePortal : Dict String PortalCapabilities :=
  Dict.empty.set "idealista" ⟨"idealista", ["price"], 1⟩

/-- Both conditions write `price_max`. -/
def twoPrices : SearchAlert :=
  { thresholdAlert firstPrice with
    conditions := ⟨.all, .leaf firstPrice, [.leaf secondPrice]⟩ }

theorem pushdown_sound_twoPrices :
    AdmitsAll freeFlat
      (@pushableParams .plain pricePortal twoPrices "idealista") := by
  refine @pushdown_sound .plain _ _ _ _ (fun c hc d hd => ?_) ⟨_, rfl, by decide⟩
  have hprice : c = firstPrice ∨ c = secondPrice := by
    simpa [twoPrices, RuleGroup.leaves, RuleGroup.children, leavesOf,
      ConditionNode.leaves] using hc
  rcases hprice with rfl | rfl
  · obtain rfl := Except.ok.inj hd
    trivial
  · obtain rfl := Except.ok.inj hd
    trivial

end RealEstateTracker.Application
