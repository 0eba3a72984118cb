import RealEstateTracker.Alerts.AdmittedSaves
import RealEstateTracker.Alerts.CreateAlert
import RealEstateTracker.Application.ConditionPrinter

/-!
# The forms of the dashboard

The form that creates an alert writes its widgets as condition strings, which the use
case parses.  What the alert then matches is what the widgets show.  The form that edits
an alert offers whole hours only, so that saving it may change the frequency.
-/

namespace RealEstateTracker.Presentation

open Foundation Domain Application Persistence RealEstateTracker.Cycle Alerts

/-! ## The form that creates an alert -/

/-- A whole number from zero up; the widget keeps to those that a double holds exactly. -/
abbrev NumberInput := Fin (2 ^ 53)

/-- The property types that have a label. -/
def propertyTypeOptions : List PropertyType :=
  [.flat, .penthouse, .duplex, .studio, .house, .chalet, .land, .garage, .storageRoom,
    .office, .commercial, .building]

def operationOptions : List ListingType := [.sale, .rent]

def frequencyHoursOptions : List Nat := [1, 2, 3, 4, 6, 8, 12, 24]

/-- The widgets of `create_alert_form`; a choice is one of the options. -/
structure CreateForm where
  name : String
  idealista : Bool
  propertyType : PropertyType
  listingType : ListingType
  province : Province
  priceMin : NumberInput
  priceMax : NumberInput
  ppm2Min : NumberInput
  ppm2Max : NumberInput
  frequencyHours : Nat
  typeOffered : propertyType ∈ propertyTypeOptions
  operationOffered : listingType ∈ operationOptions
  provinceOffered : province ≠ .unknown
  frequencyOffered : frequencyHours ∈ frequencyHoursOptions

/-- `f"{amount:.0f}"`. -/
def formatWhole (amount : NumberInput) : String := String.ofList (Text.ofNat amount.val)

/-- An optional range, where zero is an open end. -/
def priceConditions (field : String) (low high : NumberInput) : List String :=
  if low ≠ 0 ∧ high ≠ 0 then
    [field ++ ":BETWEEN:" ++ formatWhole low ++ "," ++ formatWhole high]
  else if low ≠ 0 then [field ++ ":GTE:" ++ formatWhole low]
  else if high ≠ 0 then [field ++ ":LTE:" ++ formatWhole high]
  else []

namespace CreateForm

def portals (form : CreateForm) : FrozenSet :=
  if form.idealista then .ofList ["idealista"] else .ofList []

def conditionStrings (form : CreateForm) : List String :=
  ["province:EQ:" ++ form.province.code, "property_type:EQ:" ++ form.propertyType.value,
    "listing_type:EQ:" ++ form.listingType.value] ++
    priceConditions "price" form.priceMin form.priceMax ++
      priceConditions "price_per_m2" form.ppm2Min form.ppm2Max

/-- What a submitted form asks the use case for, or the error that it shows. -/
def submit (form : CreateForm) (userId : UserId) : Except String CreateRequest :=
  if isBlank form.name then .error "Give the alarm a name."
  else if form.portals.sorted = [] then .error "At least one portal must be selected."
  else .ok
    { userId
      name := form.name
      portalSlugs := form.portals
      frequencySeconds := form.frequencyHours * 3600
      conditionStrings := form.conditionStrings }

end CreateForm

/-! ## What condition strings mean -/

section Meanings

variable [PythonRuntime]

/-- The string is read as a condition that holds of the properties that `meaning` says. -/
def Means (raw : String) (meaning : Property → Prop) : Prop :=
  ∃ c spec, parseCondition defaultRegistry raw = .ok c ∧
    SpecificationFactory.leaf defaultRegistry c = .ok spec ∧
      ∀ p, spec.isSatisfiedBy p = .ok true ↔ meaning p

theorem allSatisfied_iff {p : Property} {specs : List Specification} :
    Specification.allSatisfied p specs = .ok true ↔
      ∀ spec ∈ specs, spec.isSatisfiedBy p = .ok true := by
  refine ⟨Specification.allSatisfied_eq_true, fun h => ?_⟩
  induction specs with
  | nil => rfl
  | cons spec specs ih =>
      obtain ⟨hspec, hspecs⟩ := List.forall_mem_cons.mp h
      rw [Specification.allSatisfied, hspec]
      exact ih hspecs

theorem exists_conditions {strings : List String} {meanings : List (Property → Prop)}
    (h : List.Forall₂ Means strings meanings) :
    ∃ conditions specs, parseAll defaultRegistry strings = .ok conditions ∧
      SpecificationFactory.nodes defaultRegistry (conditions.map .leaf) = .ok specs ∧
        ∀ p, (∀ spec ∈ specs, spec.isSatisfiedBy p = .ok true) ↔
          ∀ meaning ∈ meanings, meaning p := by
  induction h with
  | nil => exact ⟨[], [], rfl, rfl, by simp⟩
  | @cons raw meaning strings meanings hraw _ ih =>
      obtain ⟨c, spec, hparse, hleaf, hmeaning⟩ := hraw
      obtain ⟨conditions, specs, hparses, hnodes, hmeanings⟩ := ih
      refine ⟨c :: conditions, spec :: specs, ?_, ?_, fun p => ?_⟩
      · rw [parseAll, hparse, hparses]
        rfl
      · rw [List.map_cons, SpecificationFactory.nodes, SpecificationFactory.node, hleaf,
          hnodes]
        rfl
      · rw [List.forall_mem_cons, List.forall_mem_cons, hmeaning, hmeanings]

/-- A list of condition strings is read as the conjunction of what they mean. -/
theorem parseConditions_means {strings : List String} {meanings : List (Property → Prop)}
    (hstrings : strings ≠ []) (h : List.Forall₂ Means strings meanings) :
    ∃ conditions, parseConditions defaultRegistry strings = .ok conditions ∧
      ∀ alert : SearchAlert, alert.conditions = conditions →
        (∃ spec, SpecificationFactory.build defaultRegistry alert = .ok spec) ∧ ∀ p,
          AlertEngine.Satisfies defaultRegistry p alert ↔
            ∀ meaning ∈ meanings, meaning p := by
  obtain ⟨conditions, specs, hparses, hnodes, hmeanings⟩ := exists_conditions h
  cases conditions with
  | nil =>
      cases strings with
      | nil => exact absurd rfl hstrings
      | cons raw strings =>
          obtain ⟨c, -, hrest⟩ := bind_eq_ok.mp hparses
          obtain ⟨conditions, -, hcons⟩ := bind_eq_ok.mp hrest
          cases hcons
  | cons c conditions =>
      refine ⟨⟨.all, .leaf c, conditions.map .leaf⟩, ?_, fun alert halert => ?_⟩
      · rw [parseConditions, hparses]
        rfl
      · have hbuild : SpecificationFactory.build defaultRegistry alert =
            .ok (.and specs) := by
          rw [SpecificationFactory.build, halert, RuleGroup.node, SpecificationFactory.node]
          rw [List.map_cons, SpecificationFactory.nodes] at hnodes
          obtain ⟨first, hfirst, hrest⟩ := bind_eq_ok.mp hnodes
          obtain ⟨rest, hspecs, heq⟩ := bind_eq_ok.mp hrest
          obtain rfl := pure_eq_ok.mp heq
          dsimp only
          rw [hfirst, hspecs]
          rfl
        refine ⟨⟨_, hbuild⟩, fun p => ?_⟩
        rw [AlertEngine.Satisfies, hbuild, ← hmeanings p, ← allSatisfied_iff]
        simp only [Except.ok.injEq, exists_eq_left', Specification.isSatisfiedBy]

/-! ## The conditions of the form -/

/-- A condition is read back from its text, and means what its leaf does. -/
theorem means_printCondition {c : AlertCondition} {d : FieldDescriptor}
    (hget : defaultRegistry.get c.fieldKey = .ok d)
    (hallowed : c.operator ∈ d.allowedOperators)
    (htype : ∀ v ∈ c.value, ∀ s ∈ v.scalars, HasType d.fieldType s) (h : Writable c)
    {meaning : Property → Prop}
    (hmeaning : ∀ p, (Specification.field d c.operator c.value).isSatisfiedBy p = .ok true ↔
      meaning p) : Means (printCondition c) meaning := by
  refine ⟨c, _, parseCondition_printCondition hget hallowed htype h, ?_, hmeaning⟩
  rw [SpecificationFactory.leaf, hget]
  exact if_pos hallowed

def IsEnumField (key : String) (extract : Property → String) : Prop :=
  defaultRegistry.get key = .ok (statedField key .enum fun p => .str (extract p))

theorem means_choice (key : String) {extract : Property → String}
    (hfield : IsEnumField key extract) (hkey : isBlank key = false) (text : String) :
    Means (key ++ ":EQ:" ++ text) fun p => extract p = text := by
  have hvalid : checkCondition key .eq (some (.scalar (.str text))) = .ok () := by
    simp [checkCondition, hkey, Operator.isNullary]
  let c : AlertCondition := ⟨key, .eq, some (.scalar (.str text)), hvalid, by
    rintro v ⟨⟩
    trivial⟩
  have hprint : printCondition c = key ++ ":EQ:" ++ text := by
    refine String.toList_inj.mp ?_
    simp [printCondition, c, printValue, Scalar.pyStr, Operator.value]
  rw [← hprint]
  have hallowed : Operator.eq ∈ FieldType.enum.operators := by decide
  refine means_printCondition (c := c) hfield hallowed ?_ ⟨by simp [c, IsMembership], ?_⟩
    fun p => ?_
  · rintro v ⟨⟩ s hs
    obtain rfl := List.mem_singleton.mp hs
    trivial
  · rintro v ⟨⟩ s hs
    obtain rfl := List.mem_singleton.mp hs
    trivial
  · change (Except.ok (extract p == text) : Except PyError Bool) = .ok true ↔ _
    simp

/-- `low <= amount` of an amount that is known. -/
def AtLeast (low : NumberInput) (amount : Decimal) : Prop :=
  (Decimal.ofInt low.val).le amount = .ok true

def AtMost (high : NumberInput) (amount : Decimal) : Prop :=
  amount.le (.ofInt high.val) = .ok true

/-- The range of two widgets: zero is an open end, and any other asks for an amount. -/
def Within (low high : NumberInput) (amount : Except PyError (Option Decimal)) : Prop :=
  (low = 0 ∧ high = 0) ∨
    ∃ known, amount = .ok (some known) ∧ (low ≠ 0 → AtLeast low known) ∧
      (high ≠ 0 → AtMost high known)

omit [PythonRuntime] in
theorem inRange_ofInt (n : NumberInput) : (Decimal.ofInt n.val).InRange := by
  have hdigits : Decimal.digitCount n.val ≤ 16 :=
    Text.length_ofNat_le (by decide) (n.isLt.trans (by norm_num))
  rw [Decimal.ofInt, Int.natAbs_natCast]
  generalize n.val = coefficient at hdigits
  cases coefficient with
  | zero => exact ⟨by decide, by decide⟩
  | succ coefficient =>
      refine ⟨by decide, ?_⟩
      have htop : (16 : Int) ≤ Decimal.maxExponent := by decide
      omega

omit [PythonRuntime] in
theorem pyStr_ofInt (n : NumberInput) :
    (Scalar.dec (.ofInt n.val)).pyStr = (formatWhole n).toList := by
  have hlength : 0 < (Text.ofNat n.val).length :=
    List.length_pos_of_ne_nil (Text.ofNat_ne_nil _)
  have hpositive : ¬((n.val : Int) < 0) := by omega
  have hplace : (0 : Int) ≤ 0 ∧ -6 < (0 : Int) + (Text.ofNat n.val).length := by omega
  simp only [Scalar.pyStr, Decimal.ofInt, Int.natAbs_natCast, hpositive, decide_false,
    Decimal.toText, if_pos hplace, Decimal.signText, sub_self, Decimal.exponentText,
    formatWhole, String.toList_ofList, Decimal.pointed]
  have hpoint : ¬((0 : Int) + (Text.ofNat n.val).length ≤ 0) := by omega
  have hwhole : ((Text.ofNat n.val).length : Int) ≤ 0 + (Text.ofNat n.val).length := by omega
  rw [if_neg hpoint, if_pos hwhole]
  simp

/-! ## Ranges -/

def IsMoneyField (key : String) (amount : Property → Except PyError (Option Decimal)) : Prop :=
  ∃ d, defaultRegistry.get key = .ok d ∧ d.fieldType = .money ∧
    d.allowedOperators = FieldType.money.operators ∧
      ∀ p, d.extract p = (amount p).map fun known => known.map .dec

variable {key : String} {amount : Property → Except PyError (Option Decimal)}

/-- A comparison of an amount that may be unknown. -/
theorem means_amount (hfield : IsMoneyField key amount) (operator : Operator)
    (hoperator : operator ∈ [.lte, .gte, .between]) {value : ConditionValue}
    (hvalid : checkCondition key operator (some value) = .ok ())
    (hamounts : ∀ s ∈ value.scalars, ∃ n : NumberInput, s = .dec (.ofInt n.val))
    {accepts : Decimal → Prop}
    (haccepts : ∀ known, operator.matches (some (.dec known)) (some value) = .ok true ↔
      accepts known) {raw : String}
    (hraw : raw.toList = key.toList ++ ':' :: match printValue (some value) with
      | none => operator.value.toList
      | some text => operator.value.toList ++ ':' :: text) :
    Means raw fun p => ∃ known, amount p = .ok (some known) ∧ accepts known := by
  obtain ⟨d, hget, htype, hoperators, hextract⟩ := hfield
  have hscalars : ∀ s ∈ value.scalars, s.InRange ∧ HasType .money s ∧ IntReadable s := by
    intro s hs
    obtain ⟨n, rfl⟩ := hamounts s hs
    exact ⟨inRange_ofInt n, trivial, trivial⟩
  have hrange : value.InRange := by
    cases value with
    | scalar s => exact (hscalars s (.head _)).1
    | tuple items => exact fun s hs => (hscalars s hs).1
  let c : AlertCondition := ⟨key, operator, some value, hvalid, by
    rintro v ⟨⟩
    exact hrange⟩
  obtain rfl : printCondition c = raw := String.toList_inj.mp
    ((String.toList_ofList ..).trans hraw.symm)
  have hsubset : ([.lte, .gte, .between] : List Operator) ⊆ FieldType.money.operators := by
    decide
  refine means_printCondition (c := c) hget (hoperators ▸ hsubset hoperator) ?_ ⟨?_, ?_⟩
    fun p => ?_
  · rintro v ⟨⟩ s hs
    exact htype ▸ (hscalars s hs).2.1
  · rintro (h | h) <;> rw [show c.operator = operator from rfl] at h <;>
      simp [h] at hoperator
  · rintro v ⟨⟩ s hs
    exact (hscalars s hs).2.2
  · change (d.extract p >>= fun actual => operator.matches actual (some value)) = _ ↔ _
    rw [hextract]
    cases amount p with
    | error error => simp [Except.map, bind, Except.bind]
    | ok known =>
        cases known with
        | none =>
            simp only [List.mem_cons, List.not_mem_nil, or_false] at hoperator
            rcases hoperator with rfl | rfl | rfl <;>
              simp [Except.map, bind, Except.bind, Operator.matches]
        | some known => simpa [Except.map, bind, Except.bind] using haccepts known

omit [PythonRuntime] in
theorem pyOrdered_eq_true (symbol : String) (accepts : Ordering → Bool) (x y : Decimal) :
    Scalar.pyOrdered symbol accepts (.dec x) (.dec y) = .ok true ↔
      x.ordered accepts y = .ok true := by
  simp only [Scalar.pyOrdered, Scalar.number?]
  cases x.ordered accepts y <;> simp [Except.mapError]

theorem matches_gte (low : NumberInput) (known : Decimal) :
    Operator.gte.matches (some (.dec known)) (some (.scalar (.dec (.ofInt low.val)))) =
      .ok true ↔ AtLeast low known := by
  rw [AtLeast, ← Decimal.ge_eq_le]
  exact pyOrdered_eq_true ">=" _ known _

theorem matches_lte (high : NumberInput) (known : Decimal) :
    Operator.lte.matches (some (.dec known)) (some (.scalar (.dec (.ofInt high.val)))) =
      .ok true ↔ AtMost high known :=
  pyOrdered_eq_true "<=" _ known _

theorem matches_between (low high : NumberInput) (known : Decimal) :
    Operator.between.matches (some (.dec known))
        (some (.tuple [.dec (.ofInt low.val), .dec (.ofInt high.val)])) = .ok true ↔
      AtLeast low known ∧ AtMost high known := by
  have hlow : Scalar.pyLe (.dec (.ofInt low.val)) (.dec known) = .ok true ↔
      AtLeast low known := pyOrdered_eq_true "<=" _ _ known
  have hhigh : Scalar.pyLe (.dec known) (.dec (.ofInt high.val)) = .ok true ↔
      AtMost high known := pyOrdered_eq_true "<=" _ known _
  rw [← hlow, ← hhigh]
  change (do if ← Scalar.pyLe _ _ then Scalar.pyLe _ _ else return false) = _ ↔ _
  cases Scalar.pyLe (.dec (.ofInt low.val)) (.dec known) with
  | error error => simp [bind, Except.bind]
  | ok atLeast => cases atLeast <;> simp [bind, Except.bind, pure, Except.pure]

theorem means_range (hfield : IsMoneyField key amount) (hkey : isBlank key = false)
    (low high : NumberInput) :
    ∃ meanings : List (Property → Prop),
      List.Forall₂ Means (priceConditions key low high) meanings ∧
        ∀ p, (∀ meaning ∈ meanings, meaning p) ↔ Within low high (amount p) := by
  have hpair : ∀ s ∈ (ConditionValue.tuple [.dec (.ofInt low.val),
      .dec (.ofInt high.val)]).scalars, ∃ n : NumberInput, s = .dec (.ofInt n.val) := by
    intro s hs
    simp only [ConditionValue.scalars, List.mem_cons, List.not_mem_nil, or_false] at hs
    rcases hs with rfl | rfl
    · exact ⟨low, rfl⟩
    · exact ⟨high, rfl⟩
  have hsingle : ∀ n : NumberInput, ∀ s ∈ (ConditionValue.scalar
      (.dec (.ofInt n.val))).scalars, ∃ n : NumberInput, s = .dec (.ofInt n.val) :=
    fun n s hs => ⟨n, List.mem_singleton.mp hs⟩
  unfold priceConditions
  split_ifs with hboth hlow hhigh
  · refine ⟨[_], .cons (means_amount hfield .between (by decide)
      (by simp [checkCondition, hkey, Operator.isNullary]) hpair
      (matches_between low high) ?_) .nil, fun p => ?_⟩
    · simp [printValue, pyStr_ofInt, Operator.value]
    · simp [Within, hboth.1, hboth.2]
  · have hhigh : high = 0 := by
      by_contra hhigh
      exact hboth ⟨hlow, hhigh⟩
    refine ⟨[_], .cons (means_amount hfield .gte (by decide)
      (by simp [checkCondition, hkey, Operator.isNullary]) (hsingle low)
      (matches_gte low) ?_) .nil, fun p => ?_⟩
    · simp [printValue, pyStr_ofInt, Operator.value]
    · simp [Within, hlow, hhigh]
  · have hlow : low = 0 := not_not.mp hlow
    refine ⟨[_], .cons (means_amount hfield .lte (by decide)
      (by simp [checkCondition, hkey, Operator.isNullary]) (hsingle high)
      (matches_lte high) ?_) .nil, fun p => ?_⟩
    · simp [printValue, pyStr_ofInt, Operator.value]
    · simp [Within, hlow, hhigh]
  · exact ⟨[], .nil, fun p => by simp [Within, not_not.mp hlow, not_not.mp hhigh]⟩

/-! ## The alert of the form -/

/-- What the widgets say about a property. -/
structure CreateForm.Selects (form : CreateForm) (p : Property) : Prop where
  province : p.location.province = form.province
  propertyType : p.propertyType = form.propertyType
  listingType : p.listingType = form.listingType
  price : Within form.priceMin form.priceMax (.ok (p.price.map (·.amount)))
  pricePerM2 : Within form.ppm2Min form.ppm2Max
    (p.pricePerM2.map fun ratio => ratio.map (·.amount))

omit [PythonRuntime] in
theorem code_injective : Function.Injective Province.code :=
  Function.LeftInverse.injective Province.fromCode_code

theorem selects_iff {form : CreateForm} {p : Property} : form.Selects p ↔
    (p.location.province.code = form.province.code ∧
      p.propertyType.value = form.propertyType.value ∧
        p.listingType.value = form.listingType.value) ∧
      Within form.priceMin form.priceMax (.ok (p.price.map (·.amount))) ∧
        Within form.ppm2Min form.ppm2Max
          (p.pricePerM2.map fun ratio => ratio.map (·.amount)) := by
  constructor
  · rintro ⟨hprovince, htype, hoperation, hprice, hratio⟩
    exact ⟨⟨congrArg _ hprovince, congrArg _ htype, congrArg _ hoperation⟩, hprice, hratio⟩
  · rintro ⟨⟨hprovince, htype, hoperation⟩, hprice, hratio⟩
    refine ⟨code_injective hprovince, ?_, ?_, hprice, hratio⟩
    · exact Except.ok.inj ((PropertyType.ofValue_value _).symm.trans
        ((congrArg PropertyType.ofValue htype).trans (PropertyType.ofValue_value _)))
    · exact Except.ok.inj ((ListingType.ofValue_value _).symm.trans
        ((congrArg ListingType.ofValue hoperation).trans (ListingType.ofValue_value _)))

theorem conditionStrings_mean (form : CreateForm) :
    ∃ meanings : List (Property → Prop),
      List.Forall₂ Means form.conditionStrings meanings ∧
        ∀ p, (∀ meaning ∈ meanings, meaning p) ↔ form.Selects p := by
  have hprice : IsMoneyField "price" fun p => .ok (p.price.map (·.amount)) :=
    ⟨_, rfl, rfl, rfl, fun p => by simp [optionalField, Except.map, Option.map_map]; rfl⟩
  have hratio : IsMoneyField "price_per_m2" fun p =>
      p.pricePerM2.map fun ratio => ratio.map (·.amount) := by
    refine ⟨pricePerM2Field, rfl, rfl, rfl, fun p => ?_⟩
    cases hppm : p.pricePerM2 with
    | error error => simp [pricePerM2Field, hppm, Except.map]
    | ok ratio => cases ratio <;> simp [pricePerM2Field, hppm, Except.map]
  obtain ⟨prices, hprices, hprice⟩ := means_range hprice (by decide) form.priceMin
    form.priceMax
  obtain ⟨ratios, hratios, hratio⟩ := means_range hratio (by decide) form.ppm2Min
    form.ppm2Max
  have hchoices : List.Forall₂ Means ["province:EQ:" ++ form.province.code,
      "property_type:EQ:" ++ form.propertyType.value,
      "listing_type:EQ:" ++ form.listingType.value]
      [fun p => p.location.province.code = form.province.code,
        fun p => p.propertyType.value = form.propertyType.value,
        fun p => p.listingType.value = form.listingType.value] :=
    .cons (means_choice "province" rfl (by decide) _)
      (.cons (means_choice "property_type" rfl (by decide) _)
        (.cons (means_choice "listing_type" rfl (by decide) _) .nil))
  refine ⟨_, List.rel_append (List.rel_append hchoices hprices) hratios, fun p => ?_⟩
  rw [selects_iff, ← hprice, ← hratio]
  simp only [List.forall_mem_append, List.forall_mem_cons, List.not_mem_nil, false_imp_iff,
    implies_true, true_and, and_assoc]

omit [PythonRuntime] in
theorem request_of_submit {form : CreateForm} {userId : UserId}
    {request : CreateRequest} (h : form.submit userId = .ok request) :
    isBlank form.name = false ∧ form.portals.sorted ≠ [] ∧
      request = ⟨userId, form.name, form.portals, form.frequencyHours * 3600,
        form.conditionStrings⟩ := by
  unfold CreateForm.submit at h
  split_ifs at h with hname hportals
  exact ⟨by simpa using hname, hportals, (Except.ok.inj h).symm⟩

/--
Whatever its widgets say, the form creates an alert: its strings parse and compile, its
name, portals and frequency are accepted, and the alert matches the properties that the
widgets show and no others.
-/
theorem create_form_means_its_selection (form : CreateForm) {userId : UserId}
    {request : CreateRequest} (h : form.submit userId = .ok request) (id : AlertId)
    (now : DateTime) :
    ∃ conditions alert,
      parseConditions defaultRegistry request.conditionStrings = .ok conditions ∧
        SearchAlert.create id request.userId request.name request.portalSlugs
          request.frequencySeconds conditions now = .ok alert ∧
        (∃ spec, SpecificationFactory.build defaultRegistry alert = .ok spec) ∧
        ∀ p, AlertEngine.Satisfies defaultRegistry p alert ↔ form.Selects p := by
  obtain ⟨hname, hportals, rfl⟩ := request_of_submit h
  obtain ⟨meanings, hmeanings, hselects⟩ := conditionStrings_mean form
  obtain ⟨conditions, hparse, hsatisfies⟩ :=
    parseConditions_means (List.cons_ne_nil _ _) hmeanings
  have hhours : ∀ hours ∈ frequencyHoursOptions, 1 ≤ hours := by decide
  have hfrequency : minFrequencySeconds ≤ (form.frequencyHours : Int) * 3600 := by
    have hhour := hhours _ form.frequencyOffered
    have hmin := minFrequencySeconds_le_hour
    omega
  refine ⟨conditions, ⟨id, userId, form.name, form.portals, form.frequencyHours * 3600,
    conditions, now, now, true, none, hname, hportals, hfrequency⟩, hparse, ?_,
    (hsatisfies _ rfl).1, fun p => ((hsatisfies _ rfl).2 p).trans (hselects p)⟩
  rw [SearchAlert.create, SearchAlert.new, dif_pos hname, dif_pos hportals,
    dif_pos hfrequency]

end Meanings

/-! ## The form that edits an alert -/

def isLineBreak (c : Char) : Bool :=
  [0x0a, 0x0b, 0x0c, 0x0d, 0x1c, 0x1d, 0x1e, 0x85, 0x2028, 0x2029].contains c.toNat

/-- `str.splitlines`, where `line` is what was read of the current line. -/
def splitLines (line : Text) : Text → List Text
  | [] => if line = [] then [] else [line]
  | '\r' :: '\n' :: rest => line :: splitLines [] rest
  | c :: rest =>
      if isLineBreak c then line :: splitLines [] rest else splitLines (line ++ [c]) rest

/-- The first of the options that are closest to the frequency. -/
def closestHours (frequencySeconds : Int) : Nat :=
  (frequencyHoursOptions.argmin fun hours : Nat =>
    ((hours : Int) * 3600 - frequencySeconds).natAbs).getD 1

theorem closestHours_mem_argmin (frequencySeconds : Int) :
    closestHours frequencySeconds ∈ frequencyHoursOptions.argmin fun hours : Nat =>
      ((hours : Int) * 3600 - frequencySeconds).natAbs := by
  unfold closestHours
  cases hclosest : frequencyHoursOptions.argmin fun hours : Nat =>
      ((hours : Int) * 3600 - frequencySeconds).natAbs with
  | none => exact absurd (List.argmin_eq_none.mp hclosest) (by decide)
  | some hours => rfl

theorem closestHours_offered (frequencySeconds : Int) :
    closestHours frequencySeconds ∈ frequencyHoursOptions :=
  List.argmin_mem (closestHours_mem_argmin frequencySeconds)

structure EditForm where
  name : String
  hours : Nat
  isActive : Bool
  rawConditions : String
  hoursOffered : hours ∈ frequencyHoursOptions

namespace EditForm

/-- The form as it is shown, before anything in it is touched. -/
def shown (alert : SearchAlert) : EditForm where
  name := alert.name
  hours := closestHours alert.frequencySeconds
  isActive := alert.isActive
  rawConditions := ""
  hoursOffered := closestHours_offered alert.frequencySeconds

def request (form : EditForm) (alert : SearchAlert) : UpdateRequest where
  alertId := alert.id
  name := if form.name ≠ alert.name then some form.name else none
  frequencySeconds := some (form.hours * 3600)
  isActive := some form.isActive
  conditionStrings :=
    if isBlank form.rawConditions then none
    else some (((splitLines [] form.rawConditions.toList).map String.ofList).filter
      fun line => !isBlank line)

end EditForm

section Edits

variable [PythonRuntime]

omit [PythonRuntime] in
theorem frequency_of_offered {hours : Nat} (h : hours ∈ frequencyHoursOptions) :
    minFrequencySeconds ≤ (hours : Int) * 3600 := by
  have hhours : ∀ hours ∈ frequencyHoursOptions, 1 ≤ hours := by decide
  have hhour := hhours hours h
  have hmin := minFrequencySeconds_le_hour
  omega

theorem edit_shown (update : UpdateAlert) (alert : SearchAlert) (now : DateTime) :
    update.edit ((EditForm.shown alert).request alert) now alert =
      .ok { alert with
        frequencySeconds := closestHours alert.frequencySeconds * 3600
        seldom := frequency_of_offered (closestHours_offered alert.frequencySeconds)
        updatedAt := now } := by
  have hblank : isBlank "" = true := by decide
  have hfrequency := frequency_of_offered (closestHours_offered alert.frequencySeconds)
  unfold UpdateAlert.edit
  simp only [EditForm.request, EditForm.shown, ne_eq, not_true_eq_false, if_false, hblank,
    if_true, whenGiven, SearchAlert.setFrequency, dif_pos hfrequency, bind, Except.bind,
    SearchAlert.activate, SearchAlert.deactivate]
  split
  · next hactive => simp [hactive]
  · next hactive => simp [hactive]

omit [PythonRuntime] in
theorem distance_closestHours_le (frequencySeconds : Int) {hours : Nat}
    (h : hours ∈ frequencyHoursOptions) :
    ((closestHours frequencySeconds : Int) * 3600 - frequencySeconds).natAbs ≤
      ((hours : Int) * 3600 - frequencySeconds).natAbs :=
  List.le_of_mem_argmin (f := fun hours : Nat =>
    ((hours : Int) * 3600 - frequencySeconds).natAbs) h
      (closestHours_mem_argmin frequencySeconds)

/-- The alert as it is once the form is saved as it is shown. -/
structure Untouched (alert edited : SearchAlert) (now : DateTime) : Prop where
  rest : edited = { alert with
    frequencySeconds := edited.frequencySeconds
    seldom := edited.seldom
    updatedAt := now }
  frequency : ∃ hours ∈ frequencyHoursOptions,
    edited.frequencySeconds = (hours : Int) * 3600 ∧
      ∀ other ∈ frequencyHoursOptions,
        (edited.frequencySeconds - alert.frequencySeconds).natAbs ≤
          ((other : Int) * 3600 - alert.frequencySeconds).natAbs
  same : edited.frequencySeconds = alert.frequencySeconds ↔
    ∃ hours ∈ frequencyHoursOptions, alert.frequencySeconds = (hours : Int) * 3600

theorem untouched_shown (update : UpdateAlert) (alert : SearchAlert) (now : DateTime) :
    ∃ edited, update.edit ((EditForm.shown alert).request alert) now alert = .ok edited ∧
      Untouched alert edited now := by
  have hoffered := closestHours_offered alert.frequencySeconds
  refine ⟨_, edit_shown update alert now, rfl, ⟨_, hoffered, rfl, fun other hother =>
    distance_closestHours_le _ hother⟩, ?_⟩
  constructor
  · intro hsame
    exact ⟨closestHours alert.frequencySeconds, hoffered, hsame.symm⟩
  · rintro ⟨hours, hhours, hfrequency⟩
    have hle := distance_closestHours_le alert.frequencySeconds hhours
    show (closestHours alert.frequencySeconds : Int) * 3600 = alert.frequencySeconds
    omega

/--
Saving the form as it is shown always succeeds, if the alert is still stored as it is
shown.  It changes nothing but the time of the update and the frequency, which becomes
the closest of the options, and it leaves the frequency alone only where that is one of
the options.
-/
theorem untouched_edit_rounds_the_frequency (update : UpdateAlert) {store : Store}
    (hfresh : FreshRows store) {alert : SearchAlert}
    (hshown : AlertRepository.get alert.id store = .ok (some alert))
    (answers : Nat → (request : CycleCall) → CycleAnswer request) (i : Nat) :
    let ended := (update.run ((EditForm.shown alert).request alert)).eval answers
      (.start i) store
    ∃ edited, ended.outcome = .ok edited ∧
      AlertRepository.get alert.id ended.store = .ok (some edited) ∧
      Untouched alert edited (answers 0 .clock) ∧
      (∀ id, id ≠ alert.id →
        AlertRepository.get id ended.store = AlertRepository.get id store) ∧
      withAlertsOf store ended.store = store := by
  intro ended
  obtain ⟨edited, hedit, huntouched⟩ := untouched_shown update alert (answers 0 .clock)
  obtain ⟨houtcome, hsaved⟩ := eval_run_of_edit answers i hfresh hshown hedit
  have hid : edited.id = alert.id := by rw [huntouched.rest]
  refine ⟨edited, houtcome, ?_, huntouched, ?_, hsaved.frame⟩
  · rw [← hid]
    exact hsaved.self
  · rw [← hid]
    exact hsaved.others

end Edits

/-- An alert that was created from the command line, every 5000 seconds. -/
def unevenAlert : SearchAlert :=
  { salesAlert with frequencySeconds := 5000, seldom := by decide }

def unevenStore : Store :=
  { salesStore with alerts := [AlertRepository.toModel unevenAlert] }

theorem untouched_edit_rounds_the_frequency_uneven :
    let request := (EditForm.shown unevenAlert).request unevenAlert
    let ended := (@UpdateAlert.run .plain ⟨defaultRegistry, fun _ => "alert"⟩ request).eval
      (quietOracle 0) (.start 0) unevenStore
    ∃ edited, ended.outcome = .ok edited ∧
      @AlertRepository.get .plain unevenAlert.id ended.store = .ok (some edited) ∧
      Untouched unevenAlert edited 1 ∧
      (∀ id, id ≠ unevenAlert.id → @AlertRepository.get .plain id ended.store =
        @AlertRepository.get .plain id unevenStore) ∧
      withAlertsOf unevenStore ended.store = unevenStore :=
  @untouched_edit_rounds_the_frequency .plain ⟨defaultRegistry, fun _ => "alert"⟩
    unevenStore ⟨freshRows_salesStore.primaryKey, freshRows_salesStore.notDrawn⟩ unevenAlert
    rfl (quietOracle 0) 0

def pontevedraForm : CreateForm where
  name := "Land in Pontevedra"
  idealista := true
  propertyType := .land
  listingType := .sale
  province := .pontevedra
  priceMin := 0
  priceMax := 30000
  ppm2Min := 5
  ppm2Max := 20
  frequencyHours := 4
  typeOffered := by decide
  operationOffered := by decide
  provinceOffered := by decide
  frequencyOffered := by decide

theorem create_form_means_its_selection_pontevedra :
    ∃ conditions alert,
      @parseConditions .plain defaultRegistry ["province:EQ:36", "property_type:EQ:LAND",
        "listing_type:EQ:SALE", "price:LTE:30000", "price_per_m2:BETWEEN:5,20"] =
          .ok conditions ∧
        SearchAlert.create (.given 1) (.given 0) "Land in Pontevedra" (.ofList ["idealista"])
          14400 conditions 7 = .ok alert ∧
        (∃ spec, @SpecificationFactory.build .plain defaultRegistry alert = .ok spec) ∧
        ∀ p, @AlertEngine.Satisfies .plain defaultRegistry p alert ↔
          pontevedraForm.Selects p :=
  @create_form_means_its_selection .plain pontevedraForm (.given 0)
    ⟨.given 0, "Land in Pontevedra", .ofList ["idealista"], 14400,
      ["province:EQ:36", "property_type:EQ:LAND", "listing_type:EQ:SALE", "price:LTE:30000",
        "price_per_m2:BETWEEN:5,20"]⟩ rfl (.given 1) 7

end RealEstateTracker.Presentation
