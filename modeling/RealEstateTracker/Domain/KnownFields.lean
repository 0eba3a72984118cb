import RealEstateTracker.Domain.Specification
import RealEstateTracker.Foundation.Division

/-!
# What is not known never matches

A portal may learn more about a property than it stated before.  A tree of `ALL`
and `ANY` groups that does not test for an absence keeps holding: a leaf that
holds has a known value, and a value that was known stays the same.
-/

namespace RealEstateTracker.Domain

open Foundation

/-! ## Knowing more about a property -/

/-- `m == m'`. -/
def Money.Same (m m' : Money) : Prop :=
  m.amount.eq m'.amount = .ok true ∧ m.currency = m'.currency

/-- `a == a'`. -/
def Area.Same (a a' : Area) : Prop :=
  a.squareMeters.eq a'.squareMeters = .ok true

def KeepsKnown {α : Type} (same : α → α → Prop) (known known' : Option α) :
    Prop :=
  ∀ value ∈ known, ∃ value' ∈ known', same value value'

/-- The second property says of every field what the first does, and may say more. -/
structure KnowsMore (p q : Property) : Prop where
  listingType : q.listingType = p.listingType
  propertyType : q.propertyType = p.propertyType
  province : q.location.province = p.location.province
  status : q.status = p.status
  title : q.title = p.title
  description : q.description = p.description
  price : KeepsKnown Money.Same p.price q.price
  area : KeepsKnown Area.Same p.area q.area
  plotArea : KeepsKnown Area.Same p.plotArea q.plotArea
  rooms : KeepsKnown Eq p.rooms q.rooms
  bathrooms : KeepsKnown Eq p.bathrooms q.bathrooms
  landType : KeepsKnown Eq p.landType q.landType
  municipality : KeepsKnown Eq p.location.municipality q.location.municipality
  district : KeepsKnown Eq p.location.district q.location.district
  postalCode : KeepsKnown Eq p.location.postalCode q.location.postalCode
  features : ∀ flag ∈ Features.flags,
    KeepsKnown Eq (flag.2 p.features) (flag.2 q.features)

/-! ## Extracting -/

/-- Two scalars that no comparison tells apart. -/
inductive Scalar.Same : Scalar → Scalar → Prop
  | refl (s : Scalar) : Same s s
  | amount (a b : Decimal) (h : a.eq b = .ok true) : Same (.dec a) (.dec b)

/-- A value that a field extracts from the first property it extracts from the second. -/
def KeepsExtracted (p q : Property) (d : FieldDescriptor) : Prop :=
  ∀ s actual, d.extract p = .ok (some s) → d.extract q = .ok actual →
    ∃ s', actual = some s' ∧ s.Same s' ∧
      (s = s' ∨ d.allowedOperators = FieldType.numericOperators)

variable {p q : Property}

theorem keepsExtracted_stated {key : String} {fieldType : FieldType}
    {extract : Property → Scalar} (h : extract q = extract p) :
    KeepsExtracted p q (statedField key fieldType extract) := by
  intro s actual hp hq
  simp only [statedField, Except.ok.injEq, Option.some.injEq] at hp hq
  subst hp hq
  exact ⟨extract q, rfl, h ▸ .refl _, .inl h.symm⟩

theorem keepsExtracted_optional {α : Type} {key : String} {fieldType : FieldType}
    {field : Property → Option α} {scalar : α → Scalar}
    (h : KeepsKnown Eq (field p) (field q)) :
    KeepsExtracted p q
      (optionalField key fieldType fun p => (field p).map scalar) := by
  intro s actual hp hq
  simp only [optionalField, Except.ok.injEq, Option.map_eq_some_iff] at hp hq
  obtain ⟨value, hvalue, rfl⟩ := hp
  obtain ⟨_, hknown, rfl⟩ := h value hvalue
  rw [← hq, hknown]
  exact ⟨scalar value, rfl, .refl _, .inl rfl⟩

theorem keepsExtracted_amount {α : Type} {key : String} {fieldType : FieldType}
    {same : α → α → Prop} {field : Property → Option α} {amount : α → Decimal}
    (hfield : fieldType.operators = FieldType.numericOperators)
    (hsame : ∀ value value', same value value' →
      (amount value).eq (amount value') = .ok true)
    (h : KeepsKnown same (field p) (field q)) :
    KeepsExtracted p q (optionalField key fieldType fun p =>
      (field p).map fun value => .dec (amount value)) := by
  intro s actual hp hq
  simp only [optionalField, Except.ok.injEq, Option.map_eq_some_iff] at hp hq
  obtain ⟨value, hvalue, rfl⟩ := hp
  obtain ⟨value', hknown, hvalues⟩ := h value hvalue
  rw [← hq, hknown]
  exact ⟨.dec (amount value'), rfl, .amount _ _ (hsame value value' hvalues),
    .inr hfield⟩

theorem PricePerM2.amount_of_new {amount : Decimal} {currency : Currency}
    {ppm : PricePerM2} (h : new amount currency = .ok ppm) :
    ppm.amount = amount := by
  unfold new at h
  split at h
  · simp at h
  · simp at h
  · rw [← Except.ok.inj h]

theorem PricePerM2.div_eq_ok {price : Money} {area : Area} {ppm : PricePerM2}
    (h : fromPriceAndArea price area = .ok ppm) :
    price.amount.div area.squareMeters = .ok ppm.amount := by
  unfold fromPriceAndArea at h
  split at h
  · simp at h
  · next amount hdiv => rw [hdiv, amount_of_new h]

theorem Area.isZero_eq_false (area : Area) : area.squareMeters.isZero = false := by
  have hpositive := area.positive
  cases hzero : area.squareMeters.isZero with
  | false => rfl
  | true =>
      have hle := PricePerM2.new_of_isZero .eur hzero
      unfold PricePerM2.new at hle
      split at hle <;> simp_all

theorem pricePerM2_eq_some {ppm : PricePerM2}
    (h : p.pricePerM2 = .ok (some ppm)) :
    ∃ price area, p.price = some price ∧ p.area = some area ∧
      PricePerM2.fromPriceAndArea price area = .ok ppm := by
  unfold Property.pricePerM2 at h
  split at h
  · next price area hprice harea =>
    refine ⟨price, area, hprice, harea, ?_⟩
    cases hppm : PricePerM2.fromPriceAndArea price area with
    | error error => simp [hppm, Except.map] at h
    | ok found =>
        simp only [hppm, Except.map, Except.ok.injEq, Option.some.injEq] at h
        rw [h]
  · simp at h

theorem keepsExtracted_pricePerM2 (hprice : KeepsKnown Money.Same p.price q.price)
    (harea : KeepsKnown Area.Same p.area q.area) :
    KeepsExtracted p q pricePerM2Field := by
  intro s actual hp hq
  simp only [pricePerM2Field] at hp hq
  cases hppm : p.pricePerM2 with
  | error error => simp [hppm, Except.map] at hp
  | ok known =>
      cases known with
      | none => simp [hppm, Except.map] at hp
      | some ppm =>
          obtain rfl : Scalar.dec ppm.amount = s := by
            simpa [hppm, Except.map] using hp
          obtain ⟨price, area, hpPrice, hpArea, hratio⟩ := pricePerM2_eq_some hppm
          obtain ⟨price', hqPrice, hsamePrice, -⟩ := hprice price hpPrice
          obtain ⟨area', hqArea, hsameArea⟩ := harea area hpArea
          cases hratio' : PricePerM2.fromPriceAndArea price' area' with
          | error error =>
              rw [Option.mem_def] at hqPrice hqArea
              simp [Property.pricePerM2, hqPrice, hqArea, hratio', Except.map] at hq
          | ok ppm' =>
              have hq' : actual = some (.dec ppm'.amount) := by
                rw [Option.mem_def] at hqPrice hqArea
                simpa [Property.pricePerM2, hqPrice, hqArea, hratio', Except.map,
                  eq_comm] using hq
              exact ⟨.dec ppm'.amount, hq', .amount _ _
                (Decimal.div_congr hsamePrice hsameArea area.isZero_eq_false
                  (PricePerM2.div_eq_ok hratio) (PricePerM2.div_eq_ok hratio')),
                .inr rfl⟩

theorem keepsExtracted_featureField
    (h : ∀ flag ∈ Features.flags,
      KeepsKnown Eq (flag.2 p.features) (flag.2 q.features))
    {name : String} : KeepsExtracted p q (featureField name) := by
  intro s actual hp hq
  simp only [featureField, Features.get] at hp hq
  cases hflag : Features.flags.lookup name with
  | none => simp [hflag, Except.map] at hp
  | some flag =>
      simp only [hflag, Except.map, Except.ok.injEq, Option.map_eq_some_iff] at hp hq
      obtain ⟨value, hvalue, rfl⟩ := hp
      have hmem : (name, flag) ∈ Features.flags := by
        obtain ⟨before, after, heq, -⟩ := List.lookup_eq_some_iff.mp hflag
        simp [heq]
      obtain ⟨_, hknown, rfl⟩ := h (name, flag) hmem value hvalue
      have hknown : flag q.features = some value := hknown
      rw [← hq, hknown]
      exact ⟨.bool value, rfl, .refl _, .inl rfl⟩

theorem keepsExtracted_of_mem (h : KnowsMore p q) {d : FieldDescriptor}
    (hd : d ∈ defaultDescriptors) : KeepsExtracted p q d := by
  have hall : ∀ d ∈ defaultDescriptors, KeepsExtracted p q d := by
    simp only [defaultDescriptors, List.cons_append, List.nil_append,
      List.forall_mem_cons]
    refine ⟨keepsExtracted_stated (by rw [h.province]),
      keepsExtracted_optional h.municipality,
      keepsExtracted_stated (by rw [h.propertyType]),
      keepsExtracted_optional h.landType,
      keepsExtracted_stated (by rw [h.listingType]),
      keepsExtracted_stated (by rw [h.status]),
      keepsExtracted_amount rfl (fun _ _ h => h.1) h.price,
      keepsExtracted_pricePerM2 h.price h.area,
      keepsExtracted_amount rfl (fun _ _ h => h) h.area,
      keepsExtracted_amount rfl (fun _ _ h => h) h.plotArea,
      keepsExtracted_optional h.rooms, keepsExtracted_optional h.bathrooms,
      keepsExtracted_optional h.postalCode, keepsExtracted_optional h.district,
      keepsExtracted_stated (by rw [h.title]),
      keepsExtracted_stated (by rw [h.description]), ?_⟩
    intro d hd
    obtain ⟨name, -, rfl⟩ := List.mem_map.mp hd
    exact keepsExtracted_featureField h.features
  exact hall d hd

/-! ## Comparing -/

section Comparing

variable {x y : Scalar}

theorem Scalar.Same.typeName (h : x.Same y) : x.typeName = y.typeName := by
  cases h <;> rfl

theorem Scalar.Same.pyEq (h : x.Same y) (z : Scalar) : x.pyEq z = y.pyEq z := by
  cases h with
  | refl => rfl
  | amount a b h =>
      cases z <;> simp [Scalar.pyEq, Scalar.number?, Decimal.eq_congr_left h]

theorem Scalar.Same.pyOrdered_left (h : x.Same y) (symbol : String)
    (accepts : Ordering → Bool) (z : Scalar) :
    x.pyOrdered symbol accepts z = y.pyOrdered symbol accepts z := by
  cases h with
  | refl => rfl
  | amount a b h =>
      cases z <;> simp [Scalar.pyOrdered, Scalar.number?, Scalar.typeName,
        Decimal.ordered_congr_left h]

theorem Scalar.Same.pyOrdered_right (h : x.Same y) (symbol : String)
    (accepts : Ordering → Bool) (z : Scalar) :
    z.pyOrdered symbol accepts x = z.pyOrdered symbol accepts y := by
  cases h with
  | refl => rfl
  | amount a b h =>
      cases z <;> simp [Scalar.pyOrdered, Scalar.number?, Scalar.typeName,
        Decimal.ordered_congr_right h]

theorem equalTo_congr (h : x.Same y) (expected : Option ConditionValue) :
    equalTo x expected = equalTo y expected := by
  unfold equalTo
  split
  · rw [h.pyEq]
  · rfl

theorem orderedTo_congr (h : x.Same y) (symbol : String) (accepts : Ordering → Bool)
    (expected : Option ConditionValue) :
    orderedTo symbol (Scalar.pyOrdered symbol accepts) x expected =
      orderedTo symbol (Scalar.pyOrdered symbol accepts) y expected := by
  unfold orderedTo
  split
  · rw [h.pyOrdered_left]
  · rw [h.typeName]

theorem betweenPair_congr (h : x.Same y) (expected : Option ConditionValue) :
    betweenPair x expected = betweenPair y expected := by
  simp only [betweenPair, Scalar.pyLe, h.pyOrdered_left, h.pyOrdered_right]

variable [PythonRuntime]

/-- An operator that a numeric field allows sees a number by its value. -/
theorem matches_congr {operator : Operator} (h : x.Same y)
    (hoperator : operator ∈ FieldType.numericOperators)
    (expected : Option ConditionValue) :
    operator.matches (some x) expected = operator.matches (some y) expected := by
  cases operator with
  | eq => exact equalTo_congr h expected
  | neq => simp only [Operator.matches, equalTo_congr h]
  | lt => exact orderedTo_congr h "<" _ expected
  | lte => exact orderedTo_congr h "<=" _ expected
  | gt => exact orderedTo_congr h ">" _ expected
  | gte => exact orderedTo_congr h ">=" _ expected
  | between => exact betweenPair_congr h expected
  | doesExist => rfl
  | notExists => rfl
  | isIn | notIn | contains | notContains =>
      simp [FieldType.numericOperators] at hoperator

/-- Nothing but its absence can be said of a value that is not known. -/
theorem matches_none {operator : Operator} {expected : Option ConditionValue}
    (hoperator : operator ≠ .notExists)
    (hexpected : operator = .eq → expected ≠ none) :
    operator.matches none expected = .ok false := by
  cases operator with
  | notExists => exact absurd rfl hoperator
  | eq =>
      cases expected with
      | none => exact absurd rfl (hexpected rfl)
      | some value => rfl
  | _ => rfl

end Comparing

/-! ## Trees -/

section Trees

mutual

/-- Only `ALL` and `ANY` groups, and no leaf that asks for an absence. -/
def ConditionNode.Positive : ConditionNode → Prop
  | .leaf condition => condition.operator ≠ .notExists
  | .group operator first rest =>
      operator ≠ .none ∧ first.Positive ∧ AllPositive rest

def AllPositive : List ConditionNode → Prop
  | [] => True
  | node :: rest => node.Positive ∧ AllPositive rest

end

theorem AlertCondition.value_ne_none {c : AlertCondition}
    (h : c.operator = .eq) : c.value ≠ none := by
  intro hnone
  have hvalid := c.valid
  rw [h, hnone, checkCondition] at hvalid
  split at hvalid <;> simp [Operator.isNullary] at hvalid

variable [PythonRuntime]

def Lifts (p q : Property) (spec : Specification) : Prop :=
  spec.isSatisfiedBy p = .ok true →
    ∀ holds, spec.isSatisfiedBy q = .ok holds → holds = true

theorem lifts_leaf (h : KnowsMore p q) {c : AlertCondition}
    (hc : c.operator ≠ .notExists) {spec : Specification}
    (hspec : SpecificationFactory.leaf defaultRegistry c = .ok spec) :
    Lifts p q spec := by
  obtain ⟨d, hget, hspec⟩ := bind_eq_ok.mp hspec
  split at hspec
  next hallowed =>
    obtain rfl := pure_eq_ok.mp hspec
    intro hp holds hq
    obtain ⟨actual, hextract, hmatch⟩ := bind_eq_ok.mp hp
    obtain ⟨actual', hextract', hmatch'⟩ := bind_eq_ok.mp hq
    cases actual with
    | none =>
        rw [matches_none hc AlertCondition.value_ne_none] at hmatch
        simp at hmatch
    | some s =>
        obtain ⟨s', rfl, hsame, hkind⟩ :=
          keepsExtracted_of_mem h (FieldRegistry.get_key hget).1 s actual'
            hextract hextract'
        have hagree : c.operator.matches (some s) c.value =
            c.operator.matches (some s') c.value := by
          rcases hkind with rfl | hnumeric
          · rfl
          · exact matches_congr hsame (hnumeric ▸ hallowed) c.value
        rw [← hagree, hmatch] at hmatch'
        exact (Except.ok.inj hmatch').symm
  next => simp at hspec

theorem lifts_and {specs : List Specification} (h : ∀ spec ∈ specs, Lifts p q spec) :
    Lifts p q (.and specs) := by
  simp only [Lifts, Specification.isSatisfiedBy]
  induction specs with
  | nil =>
      intro _ holds hq
      exact (Except.ok.inj hq).symm
  | cons spec rest ih =>
      obtain ⟨hspec, hrest⟩ := List.forall_mem_cons.mp h
      intro hp holds hq
      obtain ⟨first, hfirst, hp⟩ := bind_eq_ok.mp hp
      obtain ⟨first', hfirst', hq⟩ := bind_eq_ok.mp hq
      cases first with
      | false => simp [pure_eq_ok] at hp
      | true =>
          obtain rfl := hspec hfirst first' hfirst'
          exact ih hrest hp holds hq

theorem lifts_or {specs : List Specification} (h : ∀ spec ∈ specs, Lifts p q spec) :
    Lifts p q (.or specs) := by
  simp only [Lifts, Specification.isSatisfiedBy]
  induction specs with
  | nil =>
      intro hp
      simp [Specification.anySatisfied] at hp
  | cons spec rest ih =>
      obtain ⟨hspec, hrest⟩ := List.forall_mem_cons.mp h
      intro hp holds hq
      obtain ⟨first, hfirst, hp⟩ := bind_eq_ok.mp hp
      obtain ⟨first', hfirst', hq⟩ := bind_eq_ok.mp hq
      cases first' with
      | true => exact (pure_eq_ok.mp hq).symm
      | false =>
          cases first with
          | true => exact absurd (hspec hfirst false hfirst') (by simp)
          | false => exact ih hrest hp holds hq

theorem lifts_nodes {nodes : List ConditionNode} {specs : List Specification}
    (h : ∀ node ∈ nodes, node.Positive → ∀ spec,
      SpecificationFactory.node defaultRegistry node = .ok spec → Lifts p q spec)
    (hpositive : AllPositive nodes)
    (hspecs : SpecificationFactory.nodes defaultRegistry nodes = .ok specs) :
    ∀ spec ∈ specs, Lifts p q spec := by
  induction nodes generalizing specs with
  | nil =>
      obtain rfl := Except.ok.inj hspecs
      simp
  | cons node rest ih =>
      obtain ⟨hnode, hrest⟩ := List.forall_mem_cons.mp h
      obtain ⟨spec, hspec, hspecs⟩ := bind_eq_ok.mp hspecs
      obtain ⟨others, hothers, hspecs⟩ := bind_eq_ok.mp hspecs
      obtain rfl := pure_eq_ok.mp hspecs
      exact List.forall_mem_cons.mpr ⟨hnode hpositive.1 spec hspec,
        ih hrest hpositive.2 hothers⟩

/--
Unknown never counts as a match: a positive tree that holds of a property holds
of every property that states the same and more, if it evaluates on it at all.
-/
theorem satisfied_of_knowsMore {node : ConditionNode} (hpositive : node.Positive)
    {spec : Specification}
    (hspec : SpecificationFactory.node defaultRegistry node = .ok spec)
    {p q : Property} (h : KnowsMore p q) (hp : spec.isSatisfiedBy p = .ok true)
    {holds : Bool} (hq : spec.isSatisfiedBy q = .ok holds) : holds = true := by
  suffices hlifts : Lifts p q spec from hlifts hp holds hq
  clear hp hq
  induction node using ConditionNode.induct generalizing spec with
  | leaf c => exact lifts_leaf h hpositive hspec
  | group operator first rest ih =>
      obtain ⟨hoperator, hfirst, hrest⟩ := hpositive
      obtain ⟨spec', hspec', hspec⟩ := bind_eq_ok.mp hspec
      obtain ⟨specs, hspecs, hspec⟩ := bind_eq_ok.mp hspec
      obtain rfl := pure_eq_ok.mp hspec
      have hchildren : ∀ spec ∈ spec' :: specs, Lifts p q spec := by
        have hnodes : SpecificationFactory.nodes defaultRegistry (first :: rest) =
            .ok (spec' :: specs) := by
          rw [SpecificationFactory.nodes, hspec', hspecs]
          rfl
        exact lifts_nodes (fun node hnode hpositive spec hspec =>
          ih node hnode hpositive hspec) ⟨hfirst, hrest⟩ hnodes
      cases operator with
      | all => exact lifts_and hchildren
      | any => exact lifts_or hchildren
      | none => exact absurd rfl hoperator

end Trees

/-! ## A portal that states more -/

def sparseFlat : Property where
  id := "flat"
  listingType := .sale
  propertyType := .flat
  location := ⟨.pontevedra, "ES", none, none, none, none⟩
  title := "Flat"
  status := .active
  landType := none
  price := some ⟨.ofInt 150000, .eur, by decide⟩
  area := none
  plotArea := none
  rooms := some 3
  bathrooms := none
  features := .empty
  attributes := []
  description := ""
  media := .empty
  publishedAt := none
  landOnly := Property.landOnly_of_none .flat
  roomsNotNegative := by decide
  bathroomsNotNegative := Property.notNegative_of_none

/-- The same flat with its area, and the price written as `1.5E+5`. -/
def statedFlat : Property where
  id := "flat"
  listingType := .sale
  propertyType := .flat
  location := ⟨.pontevedra, "ES", none, some "Centro", none, none⟩
  title := "Flat"
  status := .active
  landType := none
  price := some ⟨.finite false 15 4, .eur, by decide⟩
  area := some ⟨.ofInt 60, by decide⟩
  plotArea := none
  rooms := some 3
  bathrooms := some 1
  features := { Features.empty with hasLift := some true }
  attributes := []
  description := ""
  media := .empty
  publishedAt := none
  landOnly := Property.landOnly_of_none .flat
  roomsNotNegative := by decide
  bathroomsNotNegative := by decide

theorem knowsMore_statedFlat : KnowsMore sparseFlat statedFlat where
  listingType := rfl
  propertyType := rfl
  province := rfl
  status := rfl
  title := rfl
  description := rfl
  price := by
    rintro price ⟨⟩
    exact ⟨_, rfl, by decide, rfl⟩
  area := by rintro area ⟨⟩
  plotArea := by rintro area ⟨⟩
  rooms := by
    rintro rooms ⟨⟩
    exact ⟨_, rfl, rfl⟩
  bathrooms := by rintro bathrooms ⟨⟩
  landType := by rintro landType ⟨⟩
  municipality := by rintro municipality ⟨⟩
  district := by rintro district ⟨⟩
  postalCode := by rintro code ⟨⟩
  features := by
    simp [Features.flags, sparseFlat, Features.empty, KeepsKnown]

/-- `rooms:GTE:2`, and a price of at most 160000 or at most 1000 per square metre. -/
def positiveTree : ConditionNode :=
  .group .all
    (.leaf ⟨"rooms", .gte, some (.scalar (.int 2)), by decide, by decide⟩)
    [.group .any
      (.leaf ⟨"price_per_m2", .lte, some (.scalar (.dec (.ofInt 1000))), by decide,
        by decide⟩)
      [.leaf ⟨"price", .lte, some (.scalar (.dec (.ofInt 160000))), by decide,
        by decide⟩]]

theorem satisfied_of_knowsMore_statedFlat :
    ∃ spec holds,
      @SpecificationFactory.node .plain defaultRegistry positiveTree = .ok spec ∧
      @Specification.isSatisfiedBy .plain sparseFlat spec = .ok true ∧
      @Specification.isSatisfiedBy .plain statedFlat spec = .ok holds ∧
      holds = true :=
  ⟨_, true, rfl, by decide, by decide,
    @satisfied_of_knowsMore .plain positiveTree
      (by simp [positiveTree, ConditionNode.Positive, AllPositive]) _ rfl
      sparseFlat statedFlat knowsMore_statedFlat (by decide) true (by decide)⟩

end RealEstateTracker.Domain
