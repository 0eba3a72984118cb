import RealEstateTracker.Application.ConditionParser
import RealEstateTracker.Domain.Specification
import RealEstateTracker.Foundation.Outcome

/-!
# When evaluation raises

The parser gives every condition a value of the type of its field, so the only
exceptions left are those of decimals: a threshold that is not a number, and a
price per square metre that its own constructor rejects.
-/

namespace RealEstateTracker.Application

open Foundation Domain

/-! ## The types of the default fields -/

/-- The scalars that a field of a type holds. -/
def HasType : FieldType → Scalar → Prop
  | .money, .dec _ | .area, .dec _ => True
  | .numeric, .int _ => True
  | .enum, .str _ | .text, .str _ => True
  | .bool, .bool _ => True
  | _, _ => False

def IsNumber : Scalar → Prop
  | .dec d => d.isNaN = false
  | _ => True

/-- A price per square metre that cannot be computed although price and area are known. -/
def PricePerM2Fails (p : Property) : Prop :=
  ∃ price area, p.price = some price ∧ p.area = some area ∧
    Raises (PricePerM2.fromPriceAndArea price area)

structure Sound (d : FieldDescriptor) : Prop where
  operators : d.allowedOperators = d.fieldType.operators
  typed : ∀ p actual, d.extract p = .ok (some actual) →
    HasType d.fieldType actual ∧ IsNumber actual
  raises : ∀ p, Raises (d.extract p) ↔
    d.key = pricePerM2Field.key ∧ PricePerM2Fails p

theorem sound_stated {key : String} {fieldType : FieldType}
    {extract : Property → Scalar} (hkey : key ≠ pricePerM2Field.key)
    (htype : ∀ p, HasType fieldType (extract p) ∧ IsNumber (extract p)) :
    Sound (statedField key fieldType extract) where
  operators := rfl
  typed p actual h := by
    obtain rfl : extract p = actual := by simpa [statedField] using h
    exact htype p
  raises p := by simp [statedField, hkey]

theorem sound_optional {key : String} {fieldType : FieldType}
    {extract : Property → Option Scalar} (hkey : key ≠ pricePerM2Field.key)
    (htype : ∀ p, ∀ actual ∈ extract p,
      HasType fieldType actual ∧ IsNumber actual) :
    Sound (optionalField key fieldType extract) where
  operators := rfl
  typed p actual h := htype p actual (by simpa [optionalField] using h)
  raises p := by simp [optionalField, hkey]

theorem sound_featureField {flag : String} (hflag : flag ∈ featureFlags) :
    Sound (featureField flag) where
  operators := rfl
  typed p actual h := by
    simp only [featureField] at h
    cases hget : p.features.get flag with
    | error error => simp [hget, Except.map] at h
    | ok value =>
        cases value with
        | none => simp [hget, Except.map] at h
        | some b =>
            obtain rfl : Scalar.bool b = actual := by
              simpa [hget, Except.map] using h
            exact ⟨trivial, trivial⟩
  raises p := by
    have hkey : (featureField flag).key ≠ pricePerM2Field.key := by
      revert flag
      decide
    have hget : ∃ value, p.features.get flag = .ok value := by
      simp only [featureFlags, List.mem_cons, List.not_mem_nil, or_false] at hflag
      obtain rfl | rfl | rfl | rfl | rfl | rfl := hflag <;> exact ⟨_, rfl⟩
    obtain ⟨value, hget⟩ := hget
    simp only [hkey, false_and, iff_false]
    simp [featureField, hget, Except.map]

theorem isNaN_of_ordered {accepts : Ordering → Bool} {x y : Decimal} {b : Bool}
    (h : Decimal.ordered accepts x y = .ok b) : x.isNaN = false := by
  by_contra hx
  obtain ⟨signal, herror⟩ := (Decimal.exists_ordered_iff accepts (y := y)).mpr
    (.inl (by simpa using hx))
  rw [herror] at h
  simp at h

theorem sound_pricePerM2Field : Sound pricePerM2Field where
  operators := rfl
  typed p actual h := by
    simp only [pricePerM2Field] at h
    cases hprice : p.pricePerM2 with
    | error error => simp [hprice, Except.map] at h
    | ok value =>
        cases value with
        | none => simp [hprice, Except.map] at h
        | some ppm =>
            obtain rfl : Scalar.dec ppm.amount = actual := by
              simpa [hprice, Except.map] using h
            exact ⟨trivial, isNaN_of_ordered ppm.positive⟩
  raises p := by
    simp only [pricePerM2Field, raises_map, true_and, Property.pricePerM2,
      PricePerM2Fails]
    split
    · next price area hprice harea => simp [hprice, harea]
    · next hnone =>
      simp only [not_raises_ok, false_iff, not_exists, not_and]
      intro price area hprice harea
      exact absurd harea (hnone price area hprice)

theorem sound_of_mem {d : FieldDescriptor} (hd : d ∈ defaultDescriptors) :
    Sound d := by
  have hall : ∀ d ∈ defaultDescriptors, Sound d := by
    simp only [defaultDescriptors, List.cons_append, List.nil_append,
      List.forall_mem_cons]
    refine ⟨sound_stated (by decide) ?_, sound_optional (by decide) ?_,
      sound_stated (by decide) ?_, sound_optional (by decide) ?_,
      sound_stated (by decide) ?_, sound_stated (by decide) ?_,
      sound_optional (by decide) ?_, sound_pricePerM2Field,
      sound_optional (by decide) ?_, sound_optional (by decide) ?_,
      sound_optional (by decide) ?_, sound_optional (by decide) ?_,
      sound_optional (by decide) ?_, sound_optional (by decide) ?_,
      sound_stated (by decide) ?_, sound_stated (by decide) ?_, ?_⟩
    case refine_7 =>
      intro p actual hactual
      obtain ⟨price, -, rfl⟩ := Option.map_eq_some_iff.mp hactual
      exact ⟨trivial, isNaN_of_ordered price.notNegative⟩
    case refine_8 | refine_9 =>
      intro p actual hactual
      obtain ⟨area, -, rfl⟩ := Option.map_eq_some_iff.mp hactual
      exact ⟨trivial, isNaN_of_ordered area.positive⟩
    case refine_16 =>
      intro d hd
      obtain ⟨flag, hflag, rfl⟩ := List.mem_map.mp hd
      exact sound_featureField hflag
    all_goals intro p
    case refine_1 | refine_3 | refine_5 | refine_6 | refine_14 | refine_15 =>
      exact ⟨trivial, trivial⟩
    all_goals
      intro actual hactual
      obtain ⟨value, -, rfl⟩ := Option.map_eq_some_iff.mp hactual
      exact ⟨trivial, trivial⟩
  exact hall d hd

/-! ## Comparing scalars of one type -/

/-- Two scalars of one type compare without an exception, or are decimals. -/
inductive SameKind : Scalar → Scalar → Prop
  | plain (x y : Scalar)
      (hordered : ∀ symbol accepts, ¬Raises (x.pyOrdered symbol accepts y))
      (hequal : ¬Raises (x.pyEq y)) (hx : ∀ d, x ≠ .dec d)
      (hy : ∀ d, y ≠ .dec d) : SameKind x y
  | amounts (x y : Decimal) : SameKind (.dec x) (.dec y)

theorem sameKind_of_hasType {fieldType : FieldType} {x y : Scalar}
    (hx : HasType fieldType x) (hy : HasType fieldType y) : SameKind x y := by
  have hint : ∀ (m n : Int) symbol accepts,
      ¬Raises (Scalar.pyOrdered symbol accepts (.int m) (.int n)) := by
    intro m n symbol accepts
    simp only [Scalar.pyOrdered, Scalar.number?, raises_mapError]
    rw [Raises, Decimal.exists_ordered_iff]
    simp [Decimal.isNaN_ofInt]
  have hbool : ∀ (a b : Bool) symbol accepts,
      ¬Raises (Scalar.pyOrdered symbol accepts (.bool a) (.bool b)) := by
    intro a b symbol accepts
    simp only [Scalar.pyOrdered, Scalar.number?, raises_mapError]
    rw [Raises, Decimal.exists_ordered_iff]
    simp [Decimal.isNaN_ofInt]
  have hnumbers : ∀ m n : Int,
      ¬Raises ((Decimal.ofInt m).eq (Decimal.ofInt n)) := by
    intro m n
    rw [Raises, Decimal.exists_eq_iff (Decimal.isNaN_ofInt m)]
    simp [Decimal.ofInt, Decimal.isSignaling]
  cases x with
  | dec a =>
      cases y with
      | dec b => exact .amounts a b
      | str t => cases fieldType <;> first | exact hx.elim | exact hy.elim
      | int n => cases fieldType <;> first | exact hx.elim | exact hy.elim
      | bool b => cases fieldType <;> first | exact hx.elim | exact hy.elim
  | str s =>
      cases y with
      | str t =>
          exact .plain _ _ (fun _ _ => not_raises_ok _) (not_raises_ok _)
            (by simp) (by simp)
      | dec b => cases fieldType <;> first | exact hx.elim | exact hy.elim
      | int n => cases fieldType <;> first | exact hx.elim | exact hy.elim
      | bool b => cases fieldType <;> first | exact hx.elim | exact hy.elim
  | int m =>
      cases y with
      | int n =>
          exact .plain _ _ (hint m n)
            (by simpa [Scalar.pyEq, Scalar.number?] using hnumbers m n)
            (by simp) (by simp)
      | dec b => cases fieldType <;> first | exact hx.elim | exact hy.elim
      | str t => cases fieldType <;> first | exact hx.elim | exact hy.elim
      | bool b => cases fieldType <;> first | exact hx.elim | exact hy.elim
  | bool a =>
      cases y with
      | bool b =>
          exact .plain _ _ (hbool a b)
            (by simpa [Scalar.pyEq, Scalar.number?] using hnumbers _ _)
            (by simp) (by simp)
      | dec b => cases fieldType <;> first | exact hx.elim | exact hy.elim
      | str t => cases fieldType <;> first | exact hx.elim | exact hy.elim
      | int n => cases fieldType <;> first | exact hx.elim | exact hy.elim

theorem raises_pyOrdered_iff {x y : Scalar} (h : SameKind x y)
    (symbol : String) (accepts : Ordering → Bool) :
    Raises (x.pyOrdered symbol accepts y) ↔
      ∃ a b, x = .dec a ∧ y = .dec b ∧ (a.isNaN = true ∨ b.isNaN = true) := by
  cases h with
  | plain x y hordered hequal hx hy =>
      exact iff_of_false (hordered symbol accepts)
        fun ⟨a, _, ha, _⟩ => hx a ha
  | amounts a b =>
      simp only [Scalar.pyOrdered, Scalar.number?, raises_mapError]
      rw [Raises, Decimal.exists_ordered_iff]
      simp

theorem raises_pyEq_iff {x y : Scalar} (h : SameKind x y) (hx : IsNumber x) :
    Raises (x.pyEq y) ↔
      ∃ b, y = .dec b ∧ b.isSignaling = true := by
  cases h with
  | plain x y hordered hequal hx hy =>
      exact iff_of_false hequal fun ⟨b, hb, _⟩ => hy b hb
  | amounts a b =>
      simp only [Scalar.pyEq, Scalar.number?, raises_mapError]
      rw [Raises, Decimal.exists_eq_iff hx]
      simp

/-! ## What the parser produces -/

section Parser

variable [PythonRuntime]

/-- The shapes of a parsed value, by operator. -/
inductive Shape (fieldType : FieldType) :
    Operator → Option ConditionValue → Prop
  | absent (operator : Operator) (h : operator.isNullary = true) :
      Shape fieldType operator none
  | pair (low high : Scalar) (hlow : HasType fieldType low)
      (hhigh : HasType fieldType high) :
      Shape fieldType .between (some (.tuple [low, high]))
  | single (operator : Operator) (s : Scalar) (hs : HasType fieldType s)
      (h : operator ∉ [.between, .isIn, .notIn, .doesExist, .notExists]) :
      Shape fieldType operator (some (.scalar s))

theorem hasType_coerceScalar {fieldType : FieldType} {text : Text} {s : Scalar}
    (hgeo : fieldType ≠ .geo) (h : coerceScalar fieldType text = .ok s) :
    HasType fieldType s := by
  unfold coerceScalar at h
  split at h
  · split at h
    · obtain rfl := Except.ok.inj h; trivial
    · simp at h
  · split at h
    · obtain rfl := Except.ok.inj h; trivial
    · simp at h
  · split at h
    · obtain rfl := Except.ok.inj h; trivial
    · simp at h
  · dsimp only at h
    split at h
    · obtain rfl := Except.ok.inj h; trivial
    · split at h
      · obtain rfl := Except.ok.inj h; trivial
      · simp at h
  · obtain rfl := Except.ok.inj h
    cases fieldType <;> simp_all [HasType]

theorem shape_of_coerceValue {fieldType : FieldType} {operator : Operator}
    {text : Option Text} {value : Option ConditionValue} {key : String}
    (hgeo : fieldType ≠ .geo)
    (h : coerceValue fieldType operator text = .ok value)
    (hvalid : checkCondition key operator value = .ok ()) :
    Shape fieldType operator value := by
  unfold coerceValue at h
  split at h
  · next hnullary =>
    obtain rfl := Except.ok.inj h
    exact .absent operator hnullary
  · next hnullary =>
    split at h
    · simp at h
    · next valueText =>
      split at h
      · next hbetween =>
        subst hbetween
        simp only [bind_eq_ok, pure_eq_ok] at h
        obtain ⟨low, hlow, high, hhigh, rfl⟩ := h
        exact .pair low high (hasType_coerceScalar hgeo hlow)
          (hasType_coerceScalar hgeo hhigh)
      · next hbetween =>
        simp only [bind_eq_ok, pure_eq_ok] at h
        obtain ⟨s, hs, rfl⟩ := h
        refine .single operator s (hasType_coerceScalar hgeo hs) ?_
        -- a single value never passes the check of `IN` and `NOT_IN`
        unfold checkCondition at hvalid
        split at hvalid
        · simp at hvalid
        · cases operator <;> simp_all [Operator.isNullary]

/-- A leaf that the parser produced from a condition string. -/
structure Parsed (c : AlertCondition) (d : FieldDescriptor) : Prop where
  registered : defaultRegistry.get c.fieldKey = .ok d
  allowed : c.operator ∈ d.allowedOperators
  shape : Shape d.fieldType c.operator c.value

omit [PythonRuntime] in
theorem sound_of_get {key : String} {d : FieldDescriptor}
    (h : defaultRegistry.get key = .ok d) : Sound d ∧ d.key = key := by
  obtain ⟨hmem, hkey⟩ := FieldRegistry.get_key h
  exact ⟨sound_of_mem hmem, hkey⟩

omit [PythonRuntime] in
theorem new_eq_ok {key : String} {operator : Operator}
    {value : Option ConditionValue} {c : AlertCondition}
    (h : AlertCondition.new key operator value = .ok c) :
    c.fieldKey = key ∧ c.operator = operator ∧ c.value = value := by
  unfold AlertCondition.new at h
  split at h
  · simp at h
  · split at h
    · obtain rfl := Except.ok.inj h
      exact ⟨rfl, rfl, rfl⟩
    · simp at h

theorem parsed_of_parseCondition {raw : String} {c : AlertCondition}
    (h : parseCondition defaultRegistry raw = .ok c) : ∃ d, Parsed c d := by
  simp only [parseCondition, bind_eq_ok] at h
  obtain ⟨⟨fieldText, operatorName, valueText⟩, -, d, hget, operator, -, h⟩ := h
  split at h
  · next hallowed =>
    obtain ⟨value, hvalue, hnew⟩ := bind_eq_ok.mp h
    obtain ⟨hkey, rfl, rfl⟩ := new_eq_ok hnew
    have hgeo : d.fieldType ≠ .geo := by
      intro hgeo
      rw [(sound_of_get hget).1.operators, hgeo] at hallowed
      simp [FieldType.operators] at hallowed
    exact ⟨d, by rw [hkey]; exact hget, hallowed,
      shape_of_coerceValue hgeo hvalue c.valid⟩
  · simp at h

theorem parsed_of_parseAll {strings : List String} {cs : List AlertCondition}
    (h : parseAll defaultRegistry strings = .ok cs) :
    ∀ c ∈ cs, ∃ d, Parsed c d := by
  induction strings generalizing cs with
  | nil =>
      obtain rfl := Except.ok.inj h
      simp
  | cons raw rest ih =>
      simp only [parseAll, bind_eq_ok, pure_eq_ok] at h
      obtain ⟨c, hc, cs, hcs, rfl⟩ := h
      exact List.forall_mem_cons.mpr ⟨parsed_of_parseCondition hc, ih hcs⟩

theorem exists_leaves {strings : List String} {group : RuleGroup}
    (h : parseConditions defaultRegistry strings = .ok group) :
    ∃ cs : List AlertCondition, group.operator = .all ∧
      group.children = cs.map .leaf ∧ ∀ c ∈ cs, ∃ d, Parsed c d := by
  simp only [parseConditions, bind_eq_ok] at h
  obtain ⟨cs, hcs, hnew⟩ := h
  refine ⟨cs, ?_, ?_, parsed_of_parseAll hcs⟩ <;>
  · cases cs with
    | nil => simp [RuleGroup.new] at hnew
    | cons c cs =>
        obtain rfl := Except.ok.inj hnew
        rfl

end Parser

/-! ## The leaves that raise -/

def KnownAmount (p : Property) (key : String) (amount : Decimal) : Prop :=
  ∃ d, defaultRegistry.get key = .ok d ∧
    d.extract p = .ok (some (.dec amount))

inductive Unsafe (p : Property) (c : AlertCondition) : Prop
  | price (hkey : c.fieldKey = pricePerM2Field.key) (hfails : PricePerM2Fails p)
  | equality (amount threshold : Decimal)
      (hknown : KnownAmount p c.fieldKey amount)
      (hoperator : c.operator ∈ [.eq, .neq])
      (hvalue : c.value = some (.scalar (.dec threshold)))
      (hsignaling : threshold.isSignaling = true)
  | order (amount threshold : Decimal)
      (hknown : KnownAmount p c.fieldKey amount)
      (hoperator : c.operator ∈ [.lt, .lte, .gt, .gte])
      (hvalue : c.value = some (.scalar (.dec threshold)))
      (hnan : threshold.isNaN = true)
  | low (amount low high : Decimal)
      (hknown : KnownAmount p c.fieldKey amount)
      (hoperator : c.operator = .between)
      (hvalue : c.value = some (.tuple [.dec low, .dec high]))
      (hnan : low.isNaN = true)
  | high (amount low high : Decimal)
      (hknown : KnownAmount p c.fieldKey amount)
      (hoperator : c.operator = .between)
      (hvalue : c.value = some (.tuple [.dec low, .dec high]))
      (hle : low.le amount = .ok true) (hnan : high.isNaN = true)

section Leaves

variable [PythonRuntime]

theorem not_raises_matches_none (operator : Operator)
    (expected : Option ConditionValue) :
    ¬Raises (operator.matches none expected) := by
  cases operator <;> exact not_raises_ok _

/-- The comparisons of a known value that raise. -/
def Clash (actual : Scalar) (operator : Operator)
    (value : Option ConditionValue) : Prop :=
  ∃ amount, actual = .dec amount ∧
    ((operator ∈ [.eq, .neq] ∧ ∃ threshold,
        value = some (.scalar (.dec threshold)) ∧
          threshold.isSignaling = true) ∨
      (operator ∈ [.lt, .lte, .gt, .gte] ∧ ∃ threshold,
        value = some (.scalar (.dec threshold)) ∧ threshold.isNaN = true) ∨
      (operator = .between ∧ ∃ low high,
        value = some (.tuple [.dec low, .dec high]) ∧
          (low.isNaN = true ∨
            (low.le amount = .ok true ∧ high.isNaN = true))))

omit [PythonRuntime] in
theorem raises_equalTo_iff {fieldType : FieldType} {actual s : Scalar}
    {operator : Operator} (hactual : HasType fieldType actual)
    (hnumber : IsNumber actual) (hs : HasType fieldType s)
    (hoperator : operator ∈ [.eq, .neq]) :
    Raises (actual.pyEq s) ↔ Clash actual operator (some (.scalar s)) := by
  have hkind := sameKind_of_hasType hactual hs
  rw [raises_pyEq_iff hkind hnumber]
  constructor
  · rintro ⟨threshold, rfl, hsignaling⟩
    cases hkind with
    | plain _ _ _ _ _ hy => exact absurd rfl (hy threshold)
    | amounts amount threshold =>
        exact ⟨amount, rfl, .inl ⟨hoperator, threshold, rfl, hsignaling⟩⟩
  · rintro ⟨amount, rfl, ⟨-, threshold, hvalue, hsignaling⟩ | ⟨hother, -⟩ |
      ⟨rfl, -⟩⟩
    · simp only [Option.some.injEq, ConditionValue.scalar.injEq] at hvalue
      exact ⟨threshold, hvalue, hsignaling⟩
    · cases operator <;> simp_all
    · simp at hoperator

omit [PythonRuntime] in
theorem raises_orderedTo_iff {fieldType : FieldType} {actual s : Scalar}
    {operator : Operator} (hactual : HasType fieldType actual)
    (hnumber : IsNumber actual) (hs : HasType fieldType s)
    (hoperator : operator ∈ [.lt, .lte, .gt, .gte]) (symbol : String)
    (accepts : Ordering → Bool) :
    Raises (actual.pyOrdered symbol accepts s) ↔
      Clash actual operator (some (.scalar s)) := by
  rw [raises_pyOrdered_iff (sameKind_of_hasType hactual hs)]
  constructor
  · rintro ⟨amount, threshold, rfl, rfl, hnan | hnan⟩
    · simp [IsNumber, hnan] at hnumber
    · exact ⟨amount, rfl, .inr (.inl ⟨hoperator, threshold, rfl, hnan⟩)⟩
  · rintro ⟨amount, rfl, ⟨hother, -⟩ | ⟨-, threshold, hvalue, hnan⟩ | ⟨rfl, -⟩⟩
    · cases operator <;> simp_all
    · simp only [Option.some.injEq, ConditionValue.scalar.injEq] at hvalue
      exact ⟨amount, threshold, rfl, hvalue, .inr hnan⟩
    · simp at hoperator

omit [PythonRuntime] in
theorem raises_betweenPair_iff {fieldType : FieldType}
    {actual low high : Scalar} (hactual : HasType fieldType actual)
    (hnumber : IsNumber actual) (hlow : HasType fieldType low)
    (hhigh : HasType fieldType high) :
    Raises (betweenPair actual (some (.tuple [low, high]))) ↔
      Clash actual .between (some (.tuple [low, high])) := by
  have hlowKind := sameKind_of_hasType hlow hactual
  have hhighKind := sameKind_of_hasType hactual hhigh
  have hbetween : betweenPair actual (some (.tuple [low, high])) =
      (low.pyLe actual).bind
        fun holds => if holds then actual.pyLe high else .ok false := rfl
  rw [hbetween]
  change Raises (low.pyLe actual >>= _) ↔ _
  rw [raises_bind, Scalar.pyLe, raises_pyOrdered_iff hlowKind]
  constructor
  · rintro (⟨lowAmount, amount, rfl, rfl, hnan | hnan⟩ | ⟨holds, hle, hraises⟩)
    · cases hhighKind with
      | plain _ _ _ _ hx _ => exact absurd rfl (hx amount)
      | amounts amount highAmount =>
          exact ⟨amount, rfl, .inr (.inr
            ⟨rfl, lowAmount, highAmount, rfl, .inl hnan⟩)⟩
    · simp [IsNumber, hnan] at hnumber
    · cases holds with
      | false => simp at hraises
      | true =>
          rw [if_pos rfl] at hraises
          have hraises := (raises_pyOrdered_iff hhighKind "<=" _).mp hraises
          obtain ⟨amount, highAmount, rfl, rfl, hnan | hnan⟩ := hraises
          · simp [IsNumber, hnan] at hnumber
          · cases hlowKind with
            | plain _ _ _ _ _ hy => exact absurd rfl (hy amount)
            | amounts lowAmount amount =>
                refine ⟨amount, rfl, .inr (.inr
                  ⟨rfl, lowAmount, highAmount, rfl, .inr ⟨?_, hnan⟩⟩)⟩
                simp only [Scalar.pyOrdered, Scalar.number?] at hle
                cases hcompare : lowAmount.le amount with
                | error signal =>
                    rw [Decimal.le] at hcompare
                    simp [hcompare, Except.mapError] at hle
                | ok holds =>
                    rw [Decimal.le] at hcompare
                    simpa [hcompare, Except.mapError] using hle
  · rintro ⟨amount, rfl, ⟨hother, -⟩ | ⟨hother, -⟩ |
      ⟨-, lowAmount, highAmount, hvalue, hnan⟩⟩
    · simp at hother
    · simp at hother
    · simp only [Option.some.injEq, ConditionValue.tuple.injEq, List.cons.injEq,
        and_true] at hvalue
      obtain ⟨rfl, rfl⟩ := hvalue
      obtain hnan | ⟨hle, hnan⟩ := hnan
      · exact .inl ⟨lowAmount, amount, rfl, rfl, .inl hnan⟩
      · refine .inr ⟨true, ?_, ?_⟩
        · rw [Decimal.le] at hle
          simp [Scalar.pyOrdered, Scalar.number?, hle, Except.mapError]
        · exact (raises_pyOrdered_iff hhighKind "<=" _).mpr
            ⟨amount, highAmount, rfl, rfl, .inr hnan⟩

theorem raises_matches_iff {fieldType : FieldType} {actual : Scalar}
    {operator : Operator} {value : Option ConditionValue}
    (hactual : HasType fieldType actual) (hnumber : IsNumber actual)
    (hshape : Shape fieldType operator value) :
    Raises (operator.matches (some actual) value) ↔
      Clash actual operator value := by
  cases hshape with
  | absent operator h =>
      refine iff_of_false ?_ ?_
      · cases operator <;> first | exact not_raises_ok _ | simp [Operator.isNullary] at h
      · rintro ⟨amount, rfl, ⟨hother, -⟩ | ⟨hother, -⟩ | ⟨rfl, -⟩⟩
        · cases operator <;> simp_all [Operator.isNullary]
        · cases operator <;> simp_all [Operator.isNullary]
        · simp [Operator.isNullary] at h
  | pair low high hlow hhigh =>
      exact raises_betweenPair_iff hactual hnumber hlow hhigh
  | single operator s hs h =>
      cases operator with
      | eq => exact raises_equalTo_iff hactual hnumber hs (by simp)
      | neq =>
          rw [Operator.matches, raises_map]
          exact raises_equalTo_iff hactual hnumber hs (by simp)
      | lt =>
          have hop : Operator.lt ∈ [.lt, .lte, .gt, .gte] := by simp
          exact raises_orderedTo_iff hactual hnumber hs hop "<" (· == .lt)
      | lte =>
          have hop : Operator.lte ∈ [.lt, .lte, .gt, .gte] := by simp
          exact raises_orderedTo_iff hactual hnumber hs hop "<=" (· != .gt)
      | gt =>
          have hop : Operator.gt ∈ [.lt, .lte, .gt, .gte] := by simp
          exact raises_orderedTo_iff hactual hnumber hs hop ">" (· == .gt)
      | gte =>
          have hop : Operator.gte ∈ [.lt, .lte, .gt, .gte] := by simp
          exact raises_orderedTo_iff hactual hnumber hs hop ">=" (· != .lt)
      | contains => exact iff_of_false (not_raises_ok _) (by simp [Clash])
      | notContains => exact iff_of_false (not_raises_ok _) (by simp [Clash])
      | between => simp at h
      | isIn => simp at h
      | notIn => simp at h
      | doesExist => simp at h
      | notExists => simp at h

omit [PythonRuntime] in
theorem knownAmount_iff {p : Property} {c : AlertCondition}
    {d : FieldDescriptor} (hget : defaultRegistry.get c.fieldKey = .ok d)
    (amount : Decimal) : KnownAmount p c.fieldKey amount ↔
      d.extract p = .ok (some (.dec amount)) := by
  simp [KnownAmount, hget]

omit [PythonRuntime] in
theorem unsafe_iff {p : Property} {c : AlertCondition} {d : FieldDescriptor}
    (hget : defaultRegistry.get c.fieldKey = .ok d) :
    Unsafe p c ↔ Raises (d.extract p) ∨
      ∃ actual, d.extract p = .ok (some actual) ∧
        Clash actual c.operator c.value := by
  obtain ⟨hsound, hkey⟩ := sound_of_get hget
  rw [hsound.raises, hkey]
  constructor
  · rintro (⟨hkey, hfails⟩ | ⟨amount, threshold, hknown, hop, hvalue, h⟩ |
      ⟨amount, threshold, hknown, hop, hvalue, h⟩ |
      ⟨amount, low, high, hknown, hop, hvalue, h⟩ |
      ⟨amount, low, high, hknown, hop, hvalue, hle, h⟩)
    · exact .inl ⟨hkey, hfails⟩
    all_goals
      refine .inr ⟨_, (knownAmount_iff hget amount).mp hknown, amount, rfl, ?_⟩
    · exact .inl ⟨hop, threshold, hvalue, h⟩
    · exact .inr (.inl ⟨hop, threshold, hvalue, h⟩)
    · exact .inr (.inr ⟨hop, low, high, hvalue, .inl h⟩)
    · exact .inr (.inr ⟨hop, low, high, hvalue, .inr ⟨hle, h⟩⟩)
  · rintro (⟨hkey, hfails⟩ | ⟨_, hextract, amount, rfl, h⟩)
    · exact .price hkey hfails
    · have hknown := (knownAmount_iff hget amount).mpr hextract
      obtain ⟨hop, threshold, hvalue, h⟩ | ⟨hop, threshold, hvalue, h⟩ |
        ⟨hop, low, high, hvalue, h | ⟨hle, h⟩⟩ := h
      · exact .equality amount threshold hknown hop hvalue h
      · exact .order amount threshold hknown hop hvalue h
      · exact .low amount low high hknown hop hvalue h
      · exact .high amount low high hknown hop hvalue hle h

theorem raises_field_iff {p : Property} {c : AlertCondition}
    {d : FieldDescriptor} (h : Parsed c d) :
    Raises ((Specification.field d c.operator c.value).isSatisfiedBy p) ↔
      Unsafe p c := by
  rw [Specification.isSatisfiedBy, raises_bind, unsafe_iff h.registered]
  apply or_congr_right
  constructor
  · rintro ⟨actual, hextract, hraises⟩
    cases actual with
    | none => exact absurd hraises (not_raises_matches_none _ _)
    | some actual =>
        obtain ⟨htype, hnumber⟩ :=
          (sound_of_get h.registered).1.typed p actual hextract
        exact ⟨actual, hextract,
          (raises_matches_iff htype hnumber h.shape).mp hraises⟩
  · rintro ⟨actual, hextract, hclash⟩
    obtain ⟨htype, hnumber⟩ :=
      (sound_of_get h.registered).1.typed p actual hextract
    exact ⟨some actual, hextract,
      (raises_matches_iff htype hnumber h.shape).mpr hclash⟩

end Leaves

/-! ## Whole alerts -/

section Alerts

variable [PythonRuntime]

def Satisfies (p : Property) (c : AlertCondition) : Prop :=
  ∃ d, defaultRegistry.get c.fieldKey = .ok d ∧
    (Specification.field d c.operator c.value).isSatisfiedBy p = .ok true

/-- No unsafe condition comes after conditions that the property all satisfies. -/
def ReachesNoUnsafe (p : Property) (cs : List AlertCondition) : Prop :=
  ∀ before c after, cs = before ++ c :: after →
    (∀ b ∈ before, Satisfies p b) → ¬Unsafe p c

theorem reachesNoUnsafe_cons {p : Property} {c : AlertCondition}
    {cs : List AlertCondition} :
    ReachesNoUnsafe p (c :: cs) ↔
      ¬Unsafe p c ∧ (Satisfies p c → ReachesNoUnsafe p cs) :=
  forall_reached_cons (P := fun c => ¬Unsafe p c)

theorem nodes_leaves {cs : List AlertCondition} {ds : List FieldDescriptor}
    (h : List.Forall₂ Parsed cs ds) :
    SpecificationFactory.nodes defaultRegistry (cs.map .leaf) =
      .ok (cs.zipWith (fun c d => .field d c.operator c.value) ds) := by
  induction h with
  | nil => rfl
  | cons hparsed _ ih =>
      rw [List.map_cons, SpecificationFactory.nodes, SpecificationFactory.node,
        SpecificationFactory.leaf, hparsed.registered, ih]
      simp only [bind, Except.bind, if_pos hparsed.allowed]
      rfl

theorem raises_allSatisfied_iff {p : Property} {cs : List AlertCondition}
    {ds : List FieldDescriptor} (h : List.Forall₂ Parsed cs ds) :
    ¬Raises (Specification.allSatisfied p
      (cs.zipWith (fun c d => .field d c.operator c.value) ds)) ↔
      ReachesNoUnsafe p cs := by
  induction h with
  | nil =>
      refine iff_of_true (not_raises_ok _) fun before c after heq => ?_
      simp at heq
  | @cons c d cs ds hparsed _ ih =>
      rw [List.zipWith_cons_cons, Specification.allSatisfied, raises_bind,
        raises_field_iff hparsed, reachesNoUnsafe_cons, not_or]
      apply and_congr_right
      intro hsafe
      have hsatisfies : Satisfies p c ↔
          (Specification.field d c.operator c.value).isSatisfiedBy p =
            .ok true := by
        simp [Satisfies, hparsed.registered]
      rw [hsatisfies, ← ih]
      constructor
      · intro hnone htrue hraises
        exact hnone ⟨true, htrue, by simpa using hraises⟩
      · rintro hrest ⟨holds, hholds, hraises⟩
        cases holds with
        | false =>
            rw [if_neg (by simp)] at hraises
            exact absurd hraises (not_raises_ok false)
        | true => exact hrest hholds (by simpa using hraises)

/--
An alert with parsed conditions compiles, and evaluating it on a property
returns a boolean if and only if no unsafe condition is reached.
-/
theorem evaluation_returns_iff {strings : List String} {alert : SearchAlert}
    (h : parseConditions defaultRegistry strings = .ok alert.conditions)
    (p : Property) :
    ∃ cs : List AlertCondition, alert.conditions.children = cs.map .leaf ∧
      ((∃ spec holds,
          SpecificationFactory.build defaultRegistry alert = .ok spec ∧
            spec.isSatisfiedBy p = .ok holds) ↔ ReachesNoUnsafe p cs) := by
  obtain ⟨cs, hoperator, hchildren, hparsed⟩ := exists_leaves h
  obtain ⟨ds, hds⟩ : ∃ ds, List.Forall₂ Parsed cs ds := by
    clear hchildren
    induction cs with
    | nil => exact ⟨[], .nil⟩
    | cons c cs ih =>
        obtain ⟨⟨d, hd⟩, hcs⟩ := List.forall_mem_cons.mp hparsed
        obtain ⟨ds, hds⟩ := ih hcs
        exact ⟨d :: ds, .cons hd hds⟩
  have hbuild : SpecificationFactory.build defaultRegistry alert =
      .ok (.and (cs.zipWith (fun c d => .field d c.operator c.value) ds)) := by
    have hnodes := nodes_leaves hds
    rw [← hchildren, RuleGroup.children, SpecificationFactory.nodes] at hnodes
    rw [SpecificationFactory.build, RuleGroup.node, SpecificationFactory.node]
    obtain ⟨first, hfirst, hrest⟩ := bind_eq_ok.mp hnodes
    obtain ⟨rest, hrest, heq⟩ := bind_eq_ok.mp hrest
    rw [pure_eq_ok] at heq
    rw [hfirst, hrest, ← heq, hoperator]
    rfl
  refine ⟨cs, hchildren, ?_⟩
  rw [← raises_allSatisfied_iff hds, not_raises_iff]
  simp only [hbuild, Except.ok.injEq]
  constructor
  · rintro ⟨spec, holds, rfl, hholds⟩
    exact ⟨holds, hholds⟩
  · rintro ⟨holds, hholds⟩
    exact ⟨_, holds, rfl, hholds⟩

end Alerts

/-! ## Accepted thresholds that raise -/

def thresholdAlert (condition : AlertCondition) : SearchAlert where
  id := .given 1
  userId := .given 0
  name := "Thresholds"
  portalSlugs := .ofList ["idealista"]
  frequencySeconds := 3600
  conditions := ⟨.all, .leaf condition, []⟩
  createdAt := 0
  updatedAt := 0
  isActive := true
  lastRunAt := none
  named := by decide
  monitored := FrozenSet.sorted_singleton_ne_nil "idealista"
  seldom := minFrequencySeconds_le_hour

/-- `price:LTE:NaN`. -/
def nanThreshold : AlertCondition :=
  ⟨"price", .lte, some (.scalar (.dec (.nan false false 0))), by decide,
    by decide⟩

/-- `price_per_m2:LTE:3000`. -/
def ratioThreshold : AlertCondition :=
  ⟨"price_per_m2", .lte, some (.scalar (.dec (.ofInt 3000))), by decide,
    by decide⟩

def freeFlat : Property where
  id := "free"
  listingType := .sale
  propertyType := .flat
  location := ⟨.pontevedra, "ES", none, none, none, none⟩
  title := "Flat"
  status := .active
  landType := none
  price := some ⟨.ofInt 0, .eur, by decide⟩
  area := some ⟨.ofInt 50, by decide⟩
  plotArea := none
  rooms := none
  bathrooms := none
  features := .empty
  attributes := []
  description := ""
  media := .empty
  publishedAt := none
  landOnly := Property.landOnly_of_none .flat
  roomsNotNegative := Property.notNegative_of_none
  bathroomsNotNegative := Property.notNegative_of_none

theorem parsed_nanThreshold :
    @parseConditions .plain defaultRegistry ["price:LTE:NaN"] =
      .ok (thresholdAlert nanThreshold).conditions := by
  rfl

/-- Neither a NaN threshold nor a ratio of a price of zero can be evaluated. -/
theorem accepted_alerts_raise :
    (∃ spec, @SpecificationFactory.build .plain defaultRegistry
        (thresholdAlert nanThreshold) = .ok spec ∧
      @parseConditions .plain defaultRegistry ["price:LTE:NaN"] =
        .ok (thresholdAlert nanThreshold).conditions ∧
      @Specification.isSatisfiedBy .plain freeFlat spec =
        .error (.decimal .invalidOperation)) ∧
    ∃ spec, @SpecificationFactory.build .plain defaultRegistry
        (thresholdAlert ratioThreshold) = .ok spec ∧
      @parseConditions .plain defaultRegistry ["price_per_m2:LTE:3000"] =
        .ok (thresholdAlert ratioThreshold).conditions ∧
      @Specification.isSatisfiedBy .plain freeFlat spec =
        .error (.valueError "PricePerM2.amount must be positive") :=
  ⟨⟨_, rfl, parsed_nanThreshold, by decide⟩, ⟨_, rfl, rfl, by decide⟩⟩

theorem evaluation_returns_iff_nanThreshold :
    ∃ cs : List AlertCondition,
      (thresholdAlert nanThreshold).conditions.children = cs.map .leaf ∧
      ((∃ spec holds,
          @SpecificationFactory.build .plain defaultRegistry
            (thresholdAlert nanThreshold) = .ok spec ∧
          @Specification.isSatisfiedBy .plain freeFlat spec = .ok holds) ↔
        @ReachesNoUnsafe .plain freeFlat cs) :=
  @evaluation_returns_iff .plain ["price:LTE:NaN"]
    (thresholdAlert nanThreshold) parsed_nanThreshold freeFlat

end RealEstateTracker.Application
