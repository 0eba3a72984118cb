import RealEstateTracker.Application.ConditionErrors

/-!
# Writing conditions

A condition is written as its field, its operator and the text of its value.
The parser reads that text back, whatever the value; what it cannot read from
any text is a list of values and an integer of too many digits.
-/

namespace RealEstateTracker.Application

open Foundation Domain

/-! ## The text of a condition -/

def printValue : Option ConditionValue → Option Text
  | some (.scalar s) => some s.pyStr
  | some (.tuple [low, high]) => some (low.pyStr ++ ',' :: high.pyStr)
  | _ => none

def printCondition (c : AlertCondition) : String :=
  String.ofList (c.fieldKey.toList ++ ':' ::
    match printValue c.value with
    | none => c.operator.value.toList
    | some text => c.operator.value.toList ++ ':' :: text)

def IntReadable : Scalar → Prop
  | .int n => (Text.ofNat n.natAbs).length ≤ Text.maxIntDigits
  | _ => True

/-- No list of values, and no integer that is too long. -/
structure Writable (c : AlertCondition) : Prop where
  operator : ¬IsMembership c.operator
  readable : ∀ v ∈ c.value, ∀ s ∈ v.scalars, IntReadable s

/-! ## Reading a scalar back -/

section Reading

variable [PythonRuntime] {fieldType : FieldType}

theorem coerceScalar_pyStr {s : Scalar} (htype : HasType fieldType s)
    (hrange : s.InRange) (hreadable : IntReadable s) :
    coerceScalar fieldType s.pyStr = .ok s := by
  cases s with
  | str s => cases fieldType <;> simp_all [HasType, coerceScalar, Scalar.pyStr]
  | int n =>
      cases fieldType with
      | numeric =>
          rw [coerceScalar, Scalar.pyStr, Text.parseInt_ofInt hreadable]
      | _ => exact htype.elim
  | dec d =>
      cases fieldType with
      | money | area =>
          rw [coerceScalar, Scalar.pyStr, Decimal.ofText_toText hrange]
      | _ => exact htype.elim
  | bool b =>
      cases fieldType with
      | bool => cases b <;> rfl
      | _ => exact htype.elim

theorem intReadable_of_coerceScalar {text : Text} {s : Scalar}
    (h : coerceScalar fieldType text = .ok s) : IntReadable s := by
  unfold coerceScalar at h
  split at h
  · split at h
    · obtain rfl := Except.ok.inj h; trivial
    · cases h
  · split at h
    · cases h; trivial
    · cases h
  · split at h
    · next n hn =>
      obtain rfl := Except.ok.inj h
      exact Text.length_le_of_parseInt hn
    · cases h
  · dsimp only at h
    split at h
    · cases h; trivial
    · split at h
      · cases h; trivial
      · cases h
  · cases h; trivial

theorem intReadable_of_coerceValue {operator : Operator} {text : Option Text}
    {value : Option ConditionValue}
    (h : coerceValue fieldType operator text = .ok value) :
    ∀ v ∈ value, ∀ s ∈ v.scalars, IntReadable s := by
  unfold coerceValue at h
  split at h
  · cases h
    simp
  · split at h
    · cases h
    · split at h
      · simp only [bind_eq_ok, pure_eq_ok] at h
        obtain ⟨low, hlow, high, hhigh, rfl⟩ := h
        rintro v ⟨⟩
        simp [ConditionValue.scalars, intReadable_of_coerceScalar hlow,
          intReadable_of_coerceScalar hhigh]
      · simp only [bind_eq_ok, pure_eq_ok] at h
        obtain ⟨s, hs, rfl⟩ := h
        rintro v ⟨⟩
        simp [ConditionValue.scalars, intReadable_of_coerceScalar hs]

/-! ## Reading a value back -/

omit [PythonRuntime] in
/-- The fields that allow `BETWEEN` hold numbers, whose text has no comma or space. -/
theorem mem_numberChars_of_pyStr {s : Scalar}
    (hfield : .between ∈ fieldType.operators) (htype : HasType fieldType s)
    {c : Char} (h : c ∈ s.pyStr) : c ∈ Decimal.numberChars := by
  cases s with
  | int n =>
      cases n with
      | ofNat n => exact Decimal.mem_numberChars_of_mem_ofNat h
      | negSucc n =>
          rcases List.mem_cons.mp h with rfl | h
          · decide
          · exact Decimal.mem_numberChars_of_mem_ofNat h
  | dec d => exact Decimal.mem_numberChars_of_mem_toText h
  | str s | bool s =>
      cases fieldType with
      | enum | text | bool | geo =>
          simp [FieldType.operators, FieldType.enumOperators,
            FieldType.textOperators, FieldType.boolOperators] at hfield
      | _ => exact htype.elim

theorem coerceValue_printValue {c : AlertCondition} {d : FieldDescriptor}
    (hd : d ∈ defaultDescriptors) (hallowed : c.operator ∈ d.allowedOperators)
    (htype : ∀ v ∈ c.value, ∀ s ∈ v.scalars, HasType d.fieldType s)
    (h : Writable c) :
    coerceValue d.fieldType c.operator (printValue c.value) = .ok c.value := by
  have hread : ∀ v ∈ c.value, ∀ s ∈ v.scalars, s.InRange →
      coerceScalar d.fieldType s.pyStr = .ok s := fun v hv s hs hrange =>
    coerceScalar_pyStr (htype v hv s hs) hrange (h.readable v hv s hs)
  have hrange := c.inRange
  rw [(sound_of_mem hd).operators] at hallowed
  unfold coerceValue
  rcases c.shape with ⟨hnullary, hvalue⟩ |
    ⟨hbetween, low, high, hvalue⟩ | hmembership | ⟨hnullary, hbetween, s, hvalue⟩
  · rw [if_pos hnullary, hvalue]
  · rw [hvalue] at htype hread hrange ⊢
    rw [hbetween] at hallowed ⊢
    have hnumber : ∀ s ∈ [low, high], ∀ ch ∈ s.pyStr,
        ch ∈ Decimal.numberChars := fun s hs ch =>
      mem_numberChars_of_pyStr hallowed (htype _ rfl s hs)
    have hclean : ∀ s ∈ [low, high], Text.strip s.pyStr = s.pyStr := by
      intro s hs
      refine Text.strip_eq_self fun ch hch => ?_
      have hall : Decimal.numberChars.all (fun ch => !Text.isSpace ch) = true := by decide
      simpa using List.all_eq_true.mp hall ch (hnumber s hs ch hch)
    have hcomma : ',' ∉ low.pyStr := fun hmem =>
      absurd (hnumber low (by simp) ',' hmem) (by decide)
    have hlow := hread _ rfl low (by simp [ConditionValue.scalars])
      (hrange _ rfl low (by simp))
    have hhigh := hread _ rfl high (by simp [ConditionValue.scalars])
      (hrange _ rfl high (by simp))
    simp only [Operator.isNullary, printValue, Text.partition_append hcomma,
      hclean low (by simp), hclean high (by simp), hlow, hhigh]
    rfl
  · exact absurd hmembership h.operator
  · rw [hvalue] at hread hrange ⊢
    have hs := hread _ rfl s (by simp [ConditionValue.scalars]) (hrange _ rfl)
    simp only [hnullary, printValue, if_neg hbetween, hs]
    rfl

end Reading

/-! ## Reading a condition back -/

section Writing

variable [PythonRuntime]

omit [PythonRuntime] in
theorem colon_not_mem_key {d : FieldDescriptor} (hd : d ∈ defaultDescriptors) :
    ':' ∉ d.key.toList := by
  have hall : ∀ key ∈ defaultDescriptors.map (·.key), ':' ∉ key.toList := by decide
  exact hall d.key (List.mem_map_of_mem hd)

omit [PythonRuntime] in
theorem colon_not_mem_value (operator : Operator) : ':' ∉ operator.value.toList := by
  cases operator <;> decide

theorem operatorNamed_value (operator : Operator) :
    operatorNamed operator.value.toList = .ok operator := by
  cases operator <;> rfl

theorem splitCondition_printCondition {c : AlertCondition}
    (hkey : ':' ∉ c.fieldKey.toList) :
    splitCondition (printCondition c) =
      .ok (c.fieldKey.toList, c.operator.value.toList, printValue c.value) := by
  have hoperator := colon_not_mem_value c.operator
  unfold splitCondition printCondition
  rw [String.toList_ofList, Text.splitMax_append hkey]
  cases printValue c.value with
  | none => rw [Text.splitMax_of_not_mem hoperator]
  | some text =>
      dsimp only
      rw [Text.splitMax_append hoperator, Text.splitMax]

theorem parseCondition_printCondition {c : AlertCondition} {d : FieldDescriptor}
    (hget : defaultRegistry.get c.fieldKey = .ok d)
    (hallowed : c.operator ∈ d.allowedOperators)
    (htype : ∀ v ∈ c.value, ∀ s ∈ v.scalars, HasType d.fieldType s)
    (h : Writable c) :
    parseCondition defaultRegistry (printCondition c) = .ok c := by
  obtain ⟨hd, hkey⟩ := FieldRegistry.get_key hget
  have hnames : Names (printCondition c) d c.operator (printValue c.value) := by
    refine ⟨c.fieldKey.toList, c.operator.value.toList, ?_, ?_,
      operatorNamed_value c.operator, hallowed⟩
    · exact splitCondition_printCondition (hkey ▸ colon_not_mem_key hd)
    · rw [String.ofList_toList, hget]
  rw [parseCondition_of_names hnames, coerceValue_printValue hd hallowed htype h,
    hkey]
  exact AlertCondition.new_self c

theorem writable_of_parseCondition {raw : String} {c : AlertCondition}
    (h : parseCondition defaultRegistry raw = .ok c) : Writable c := by
  have houtcome := outcome_parseCondition raw
  rw [h] at houtcome
  obtain ⟨_, ⟨d, operator, valueText, hnames, hmembership, -⟩, -⟩ := houtcome
  rw [parseCondition_of_names hnames] at h
  obtain ⟨value, hvalue, hnew⟩ := bind_eq_ok.mp h
  obtain ⟨-, hoperator, heq⟩ := new_eq_ok hnew
  exact ⟨hoperator ▸ hmembership, heq ▸ intReadable_of_coerceValue hvalue⟩

theorem writable_of_parseConditions {raw : String} {c : AlertCondition}
    (h : parseConditions defaultRegistry [raw] = .ok ⟨.all, .leaf c, []⟩) :
    Writable c := by
  obtain ⟨conditions, hall, hgroup⟩ := bind_eq_ok.mp h
  obtain ⟨c', hc', hconditions⟩ := bind_eq_ok.mp hall
  obtain rfl := pure_eq_ok.mp hconditions
  cases hgroup
  exact writable_of_parseCondition hc'

/--
A condition on a field that allows its operator, with values of the field's type,
is what some string is parsed to if and only if its operator is not a membership
test and its integers can be read.
-/
theorem condition_is_written_iff {c : AlertCondition} {d : FieldDescriptor}
    (hget : defaultRegistry.get c.fieldKey = .ok d)
    (hallowed : c.operator ∈ d.allowedOperators)
    (htype : ∀ v ∈ c.value, ∀ s ∈ v.scalars, HasType d.fieldType s) :
    (∃ raw, parseConditions defaultRegistry [raw] = .ok ⟨.all, .leaf c, []⟩) ↔
      Writable c := by
  refine ⟨fun ⟨raw, h⟩ => writable_of_parseConditions h, fun hwritable => ?_⟩
  refine ⟨printCondition c, ?_⟩
  rw [parseConditions, parseAll,
    parseCondition_printCondition hget hallowed htype hwritable]
  rfl

end Writing

/-- `province IN ('36', '15')`. -/
def provinceList : AlertCondition :=
  ⟨"province", .isIn, some (.tuple [.str "36", .str "15"]), by decide, by decide⟩

/-- The field allows the operator and has values of that type, but no string says so. -/
theorem province_list_is_not_written :
    ∃ d, defaultRegistry.get provinceList.fieldKey = .ok d ∧
      provinceList.operator ∈ d.allowedOperators ∧
      (∀ v ∈ provinceList.value, ∀ s ∈ v.scalars, HasType d.fieldType s) ∧
      ¬∃ raw, @parseConditions .plain defaultRegistry [raw] =
        .ok ⟨.all, .leaf provinceList, []⟩ := by
  refine ⟨_, rfl, by decide, ?_, ?_⟩
  · rintro v ⟨⟩
    simp [ConditionValue.scalars, HasType, statedField]
  · rintro ⟨raw, h⟩
    exact (@writable_of_parseConditions .plain raw _ h).operator (.inl rfl)

/-- `price BETWEEN (50000, 1E+6)`. -/
def priceRange : AlertCondition :=
  ⟨"price", .between, some (.tuple [.dec (.ofInt 50000), .dec (.finite false 1 6)]),
    by decide, by decide⟩

theorem condition_is_written_iff_priceRange :
    (∃ raw, @parseConditions .plain defaultRegistry [raw] =
      .ok ⟨.all, .leaf priceRange, []⟩) ↔ Writable priceRange :=
  @condition_is_written_iff .plain priceRange _ rfl (by decide) (by
    rintro v ⟨⟩
    simp [ConditionValue.scalars, HasType, optionalField])

end RealEstateTracker.Application
