import RealEstateTracker.Application.EvaluationSafety
import RealEstateTracker.Domain.Compilation

/-!
# The errors of the condition parser

The parser reports what it cannot read as an `InvalidConditionError`.  Two
errors of the constructors get past it: a group without children, and the single
value that it makes of the list after `IN` or `NOT_IN`.
-/

namespace RealEstateTracker.Application

open Foundation Domain

/-! ## The shapes of values -/

def IsMembership (operator : Operator) : Prop :=
  operator = .isIn ∨ operator = .notIn

theorem raisesInvalidCondition_bind {α β : Type} {result : Except PyError α}
    (h : RaisesInvalidCondition result) (next : α → Except PyError β) :
    RaisesInvalidCondition (result >>= next) := by
  obtain ⟨message, rfl⟩ := h
  exact ⟨message, rfl⟩

/-- The shape that the constructor of a condition accepts. -/
def Fits (operator : Operator) (value : Option ConditionValue) : Prop :=
  (∀ key, isBlank key = false → checkCondition key operator value = .ok ()) ∧
    ∀ v ∈ value, v.InRange

theorem fits_none {operator : Operator} (h : operator.isNullary = true) :
    Fits operator none := by
  refine ⟨fun key hkey => ?_, by simp⟩
  rw [checkCondition, hkey, if_neg (by simp), if_pos h]

theorem fits_pair {low high : Scalar} (hlow : low.InRange) (hhigh : high.InRange) :
    Fits .between (some (.tuple [low, high])) := by
  refine ⟨fun key hkey => ?_, ?_⟩
  · rw [checkCondition, hkey, if_neg (by simp)]
    rfl
  · rintro v ⟨⟩
    simp [ConditionValue.InRange, hlow, hhigh]

theorem fits_scalar {operator : Operator} {s : Scalar} (hs : s.InRange)
    (hnullary : operator.isNullary = false) (hbetween : operator ≠ .between)
    (hmembership : ¬IsMembership operator) :
    Fits operator (some (.scalar s)) := by
  refine ⟨fun key hkey => ?_, ?_⟩
  · rw [checkCondition, hkey, if_neg (by simp), if_neg (by simp [hnullary]),
      if_neg hbetween]
    exact if_neg hmembership
  · rintro v ⟨⟩
    exact hs

variable [PythonRuntime]

/-! ## What can be read -/

def Readable (fieldType : FieldType) (text : Text) : Prop :=
  match fieldType with
  | .money | .area => ∃ d, Decimal.ofText text = some d
  | .numeric => ∃ n, Text.parseInt text = some n
  | .bool => String.ofList (Text.lower (Text.strip text)) ∈ trueWords ++ falseWords
  | _ => True

/-- The value after an operator is there if one is needed, and can be read. -/
def ValueReadable (fieldType : FieldType) (operator : Operator) :
    Option Text → Prop
  | none => operator.isNullary = true
  | some text =>
      operator.isNullary = true ∨
        if operator = .between then
          Readable fieldType (Text.strip (Text.partition ',' text).1) ∧
            Readable fieldType (Text.strip (Text.partition ',' text).2)
        else Readable fieldType text

/-- A string names a field and one of its operators, and gives a value or none. -/
def Names (raw : String) (d : FieldDescriptor) (operator : Operator)
    (valueText : Option Text) : Prop :=
  ∃ fieldText operatorName,
    splitCondition raw = .ok (fieldText, operatorName, valueText) ∧
      defaultRegistry.get (String.ofList fieldText) = .ok d ∧
      operatorNamed operatorName = .ok operator ∧ operator ∈ d.allowedOperators

def WellFormed (raw : String) : Prop :=
  ∃ d operator valueText, Names raw d operator valueText ∧
    ¬IsMembership operator ∧ ValueReadable d.fieldType operator valueText

/-- `IN` or `NOT_IN` with a value, on a field that allows it. -/
def AsksMembership (raw : String) : Prop :=
  ∃ d operator valueText, Names raw d operator (some valueText) ∧
    IsMembership operator

theorem names_unique {raw : String} {d d' : FieldDescriptor}
    {operator operator' : Operator} {valueText valueText' : Option Text}
    (h : Names raw d operator valueText) (h' : Names raw d' operator' valueText') :
    d' = d ∧ operator' = operator ∧ valueText' = valueText := by
  obtain ⟨fieldText, operatorName, hsplit, hget, hoperator, -⟩ := h
  obtain ⟨fieldText', operatorName', hsplit', hget', hoperator', -⟩ := h'
  rw [hsplit] at hsplit'
  cases hsplit'
  rw [hget] at hget'
  rw [hoperator] at hoperator'
  exact ⟨(Except.ok.inj hget').symm, (Except.ok.inj hoperator').symm, rfl⟩

/-! ## Reading a value -/

theorem coerceScalar_of_readable {fieldType : FieldType} {text : Text}
    (h : Readable fieldType text) :
    ∃ s, coerceScalar fieldType text = .ok s ∧ s.InRange := by
  unfold coerceScalar
  cases fieldType with
  | money | area =>
      obtain ⟨d, hd⟩ := h
      rw [hd]
      exact ⟨.dec d, rfl, Decimal.inRange_of_ofText hd⟩
  | numeric =>
      obtain ⟨n, hn⟩ := h
      rw [hn]
      exact ⟨.int n, rfl, trivial⟩
  | bool =>
      dsimp only
      split
      · exact ⟨_, rfl, trivial⟩
      · next hfalse =>
        rw [if_pos ((List.mem_append.mp h).resolve_left hfalse)]
        exact ⟨_, rfl, trivial⟩
  | enum | text | geo => exact ⟨_, rfl, trivial⟩

theorem coerceScalar_of_not_readable {fieldType : FieldType} {text : Text}
    (h : ¬Readable fieldType text) :
    RaisesInvalidCondition (coerceScalar fieldType text) := by
  unfold coerceScalar
  cases fieldType with
  | money | area =>
      dsimp only
      cases hd : Decimal.ofText text with
      | some d => exact absurd ⟨d, hd⟩ h
      | none => exact ⟨_, rfl⟩
  | numeric =>
      dsimp only
      cases hn : Text.parseInt text with
      | some n => exact absurd ⟨n, hn⟩ h
      | none => exact ⟨_, rfl⟩
  | bool =>
      have hwords := fun hmem => h (List.mem_append.mpr hmem)
      dsimp only
      rw [if_neg fun hmem => hwords (.inl hmem),
        if_neg fun hmem => hwords (.inr hmem)]
      exact ⟨_, rfl⟩
  | enum | text | geo => exact absurd trivial h

theorem coerceValue_of_readable {fieldType : FieldType} {operator : Operator}
    {valueText : Option Text} (h : ValueReadable fieldType operator valueText)
    (hmembership : ¬IsMembership operator) :
    ∃ value, coerceValue fieldType operator valueText = .ok value ∧
      Fits operator value := by
  unfold coerceValue
  cases hnullary : operator.isNullary with
  | true => exact ⟨none, rfl, fits_none hnullary⟩
  | false =>
      rw [if_neg (by simp)]
      cases valueText with
      | none => simp [ValueReadable, hnullary] at h
      | some text =>
          have hread := h.resolve_left (by simp [hnullary])
          dsimp only
          split
          · next hbetween =>
            rw [if_pos hbetween] at hread
            obtain ⟨low, hlow, hlowRange⟩ := coerceScalar_of_readable hread.1
            obtain ⟨high, hhigh, hhighRange⟩ := coerceScalar_of_readable hread.2
            rw [hlow, hhigh, hbetween]
            exact ⟨_, rfl, fits_pair hlowRange hhighRange⟩
          · next hbetween =>
            rw [if_neg hbetween] at hread
            obtain ⟨s, hs, hrange⟩ := coerceScalar_of_readable hread
            rw [hs]
            exact ⟨_, rfl, fits_scalar hrange hnullary hbetween hmembership⟩

theorem coerceValue_of_not_readable {fieldType : FieldType} {operator : Operator}
    {valueText : Option Text} (h : ¬ValueReadable fieldType operator valueText) :
    RaisesInvalidCondition (coerceValue fieldType operator valueText) := by
  unfold coerceValue
  cases valueText with
  | none =>
      have hnullary : ¬operator.isNullary = true := h
      rw [if_neg hnullary]
      exact ⟨_, rfl⟩
  | some text =>
      obtain ⟨hnullary, hread⟩ := not_or.mp h
      rw [if_neg hnullary]
      dsimp only
      split
      · next hbetween =>
        rw [if_pos hbetween, not_and_or] at hread
        by_cases hlow : Readable fieldType (Text.strip (Text.partition ',' text).1)
        · obtain ⟨low, hlow', -⟩ := coerceScalar_of_readable hlow
          rw [hlow']
          exact raisesInvalidCondition_bind (coerceScalar_of_not_readable
            (hread.resolve_left (not_not.mpr hlow))) _
        · exact raisesInvalidCondition_bind (coerceScalar_of_not_readable hlow) _
      · next hbetween =>
        rw [if_neg hbetween] at hread
        exact raisesInvalidCondition_bind (coerceScalar_of_not_readable hread) _

/-! ## Parsing one string -/

/-- What becomes of a string: a condition, the parser's own error, or another one. -/
inductive ParserOutcome (raw : String) : Except PyError AlertCondition → Prop
  | parsed (c : AlertCondition) (h : WellFormed raw) (h' : ¬AsksMembership raw) :
      ParserOutcome raw (.ok c)
  | rejected (message : String) (h : ¬WellFormed raw) (h' : ¬AsksMembership raw) :
      ParserOutcome raw (.error (.invalidCondition message))
  | escaped (message : String) (h : ¬WellFormed raw) (h' : AsksMembership raw) :
      ParserOutcome raw (.error (.valueError message))

omit [PythonRuntime] in
theorem isBlank_key {d : FieldDescriptor} (hd : d ∈ defaultDescriptors) :
    isBlank d.key = false := by
  have hall : ∀ key ∈ defaultDescriptors.map (·.key), isBlank key = false := by
    decide
  exact hall d.key (List.mem_map_of_mem hd)

/-- The fields that allow `IN` hold text, which is read as it is. -/
theorem coerceScalar_of_membership {d : FieldDescriptor}
    (hd : d ∈ defaultDescriptors) {operator : Operator}
    (hallowed : operator ∈ d.allowedOperators) (h : IsMembership operator)
    (text : Text) :
    coerceScalar d.fieldType text = .ok (.str (String.ofList text)) := by
  rw [(sound_of_mem hd).operators] at hallowed
  unfold coerceScalar
  cases htype : d.fieldType with
  | enum | text | geo => rfl
  | money | area | numeric | bool =>
      rw [htype] at hallowed
      rcases h with rfl | rfl <;>
        simp [FieldType.operators, FieldType.numericOperators,
          FieldType.boolOperators] at hallowed

omit [PythonRuntime] in
theorem new_of_fits {key : String} (hkey : isBlank key = false)
    {operator : Operator} {value : Option ConditionValue} (h : Fits operator value) :
    ∃ c, AlertCondition.new key operator value = .ok c :=
  ⟨_, AlertCondition.new_self ⟨key, operator, value, h.1 key hkey, h.2⟩⟩

omit [PythonRuntime] in
theorem new_of_membership {key : String} (hkey : isBlank key = false)
    {operator : Operator} (h : IsMembership operator) (s : Scalar) :
    AlertCondition.new key operator (some (.scalar s)) =
      .error (.valueError (operator.value ++ " requires a non-empty tuple")) := by
  have hcheck : checkCondition key operator (some (.scalar s)) =
      .error (.valueError (operator.value ++ " requires a non-empty tuple")) := by
    rw [checkCondition, hkey, if_neg (by simp)]
    rcases h with rfl | rfl <;> rfl
  unfold AlertCondition.new
  split
  · next error herror =>
    rw [hcheck] at herror
    rw [Except.error.inj herror]
  · next hok => simp [hok] at hcheck

theorem splitCondition_error {raw : String} {error : PyError}
    (h : splitCondition raw = .error error) :
    ∃ message, error = .invalidCondition message := by
  unfold splitCondition at h
  split at h
  · cases h
  · cases h
  · exact ⟨_, (Except.error.inj h).symm⟩

omit [PythonRuntime] in
theorem get_error {key : String} {error : PyError}
    (h : defaultRegistry.get key = .error error) :
    ∃ message, error = .invalidCondition message := by
  unfold FieldRegistry.get at h
  split at h
  · cases h
  · exact ⟨_, (Except.error.inj h).symm⟩

theorem operatorNamed_error {name : Text} {error : PyError}
    (h : operatorNamed name = .error error) :
    ∃ message, error = .invalidCondition message := by
  unfold operatorNamed at h
  split at h
  · cases h
  · exact ⟨_, (Except.error.inj h).symm⟩

theorem parseCondition_of_not_names {raw : String}
    (h : ∀ d operator valueText, ¬Names raw d operator valueText) :
    RaisesInvalidCondition (parseCondition defaultRegistry raw) := by
  unfold parseCondition
  cases hsplit : splitCondition raw with
  | error error =>
      obtain ⟨message, rfl⟩ := splitCondition_error hsplit
      exact ⟨message, rfl⟩
  | ok parts =>
      obtain ⟨fieldText, operatorName, valueText⟩ := parts
      dsimp only [bind, Except.bind]
      cases hget : defaultRegistry.get (String.ofList fieldText) with
      | error error =>
          obtain ⟨message, rfl⟩ := get_error hget
          exact ⟨message, rfl⟩
      | ok d =>
          dsimp only
          cases hoperator : operatorNamed operatorName with
          | error error =>
              obtain ⟨message, rfl⟩ := operatorNamed_error hoperator
              exact ⟨message, rfl⟩
          | ok operator =>
              dsimp only
              split
              · next hallowed =>
                exact absurd ⟨fieldText, operatorName, hsplit, hget, hoperator,
                  hallowed⟩ (h d operator valueText)
              · exact ⟨_, rfl⟩

theorem parseCondition_of_names {raw : String} {d : FieldDescriptor}
    {operator : Operator} {valueText : Option Text}
    (h : Names raw d operator valueText) :
    parseCondition defaultRegistry raw =
      coerceValue d.fieldType operator valueText >>=
        AlertCondition.new d.key operator := by
  obtain ⟨fieldText, operatorName, hsplit, hget, hoperator, hallowed⟩ := h
  obtain ⟨-, hkey⟩ := FieldRegistry.get_key hget
  simp only [parseCondition, hsplit, hget, hoperator, bind, Except.bind,
    if_pos hallowed, hkey]

theorem not_wellFormed {raw : String}
    (h : ∀ d operator valueText, ¬Names raw d operator valueText) :
    ¬WellFormed raw ∧ ¬AsksMembership raw :=
  ⟨fun ⟨d, operator, valueText, hnames, _⟩ => h d operator valueText hnames,
    fun ⟨d, operator, valueText, hnames, _⟩ =>
      h d operator (some valueText) hnames⟩

theorem wellFormed_iff {raw : String} {d : FieldDescriptor} {operator : Operator}
    {valueText : Option Text} (h : Names raw d operator valueText) :
    WellFormed raw ↔
      ¬IsMembership operator ∧ ValueReadable d.fieldType operator valueText := by
  constructor
  · rintro ⟨d', operator', valueText', h', hformed⟩
    obtain ⟨rfl, rfl, rfl⟩ := names_unique h h'
    exact hformed
  · exact fun hformed => ⟨d, operator, valueText, h, hformed⟩

theorem asksMembership_iff {raw : String} {d : FieldDescriptor}
    {operator : Operator} {valueText : Option Text}
    (h : Names raw d operator valueText) :
    AsksMembership raw ↔ IsMembership operator ∧ valueText.isSome = true := by
  constructor
  · rintro ⟨d', operator', valueText', h', hmembership⟩
    obtain ⟨-, rfl, rfl⟩ := names_unique h h'
    exact ⟨hmembership, rfl⟩
  · rintro ⟨hmembership, hsome⟩
    obtain ⟨text, rfl⟩ := Option.isSome_iff_exists.mp hsome
    exact ⟨d, operator, text, h, hmembership⟩

theorem parse_membership {d : FieldDescriptor} (hd : d ∈ defaultDescriptors)
    {operator : Operator} (hallowed : operator ∈ d.allowedOperators)
    (h : IsMembership operator) (text : Text) :
    (coerceValue d.fieldType operator (some text) >>=
      AlertCondition.new d.key operator) =
      .error (.valueError (operator.value ++ " requires a non-empty tuple")) := by
  have hvalue : coerceValue d.fieldType operator (some text) =
      .ok (some (.scalar (.str (String.ofList text)))) := by
    have hread := coerceScalar_of_membership hd hallowed h text
    rcases h with rfl | rfl <;>
    · simp only [coerceValue, Operator.isNullary, hread]
      rfl
  rw [hvalue]
  exact new_of_membership (isBlank_key hd) h _

theorem outcome_parseCondition (raw : String) :
    ParserOutcome raw (parseCondition defaultRegistry raw) := by
  by_cases hnames : ∃ d operator valueText, Names raw d operator valueText
  · obtain ⟨d, operator, valueText, hnames⟩ := hnames
    have hwell := wellFormed_iff hnames
    have hasks := asksMembership_iff hnames
    rw [parseCondition_of_names hnames]
    obtain ⟨_, _, -, hget, -, hallowed⟩ := hnames
    have hd := (FieldRegistry.get_key hget).1
    by_cases hmembership : IsMembership operator
    · have hformed : ¬WellFormed raw := fun h => (hwell.mp h).1 hmembership
      cases valueText with
      | none =>
          have hunreadable : ¬ValueReadable d.fieldType operator none := by
            rcases hmembership with rfl | rfl <;>
              simp [ValueReadable, Operator.isNullary]
          obtain ⟨message, hmessage⟩ := coerceValue_of_not_readable hunreadable
          rw [hmessage]
          exact .rejected message hformed fun h => by simpa using hasks.mp h
      | some text =>
          rw [parse_membership hd hallowed hmembership]
          exact .escaped _ hformed (hasks.mpr ⟨hmembership, rfl⟩)
    · have hnot : ¬AsksMembership raw := fun h => hmembership (hasks.mp h).1
      by_cases hreadable : ValueReadable d.fieldType operator valueText
      · obtain ⟨value, hvalue, hfits⟩ :=
          coerceValue_of_readable hreadable hmembership
        obtain ⟨c, hc⟩ := new_of_fits (isBlank_key hd) hfits
        have hparse : (coerceValue d.fieldType operator valueText >>=
            AlertCondition.new d.key operator) = .ok c := by
          rw [hvalue]
          exact hc
        rw [hparse]
        exact .parsed c (hwell.mpr ⟨hmembership, hreadable⟩) hnot
      · obtain ⟨message, hmessage⟩ := coerceValue_of_not_readable hreadable
        rw [hmessage]
        exact .rejected message (fun h => hreadable (hwell.mp h).2) hnot
  · have hnone : ∀ d operator valueText, ¬Names raw d operator valueText :=
      fun d operator valueText h => hnames ⟨d, operator, valueText, h⟩
    obtain ⟨message, hmessage⟩ := parseCondition_of_not_names hnone
    obtain ⟨hformed, hmembership⟩ := not_wellFormed hnone
    rw [hmessage]
    exact .rejected message hformed hmembership

/-! ## Parsing a list of strings -/

/-- No string asks for membership before the first that is not well formed. -/
def ReachesNoMembership (strings : List String) : Prop :=
  ∀ before raw after, strings = before ++ raw :: after →
    (∀ b ∈ before, WellFormed b) → ¬AsksMembership raw

theorem reachesNoMembership_cons {raw : String} {strings : List String} :
    ReachesNoMembership (raw :: strings) ↔
      ¬AsksMembership raw ∧ (WellFormed raw → ReachesNoMembership strings) :=
  forall_reached_cons (P := fun raw => ¬AsksMembership raw)

def FailsOnlyAsInvalid {α : Type} (result : Except PyError α) : Prop :=
  (∃ value, result = .ok value) ∨ RaisesInvalidCondition result

omit [PythonRuntime] in
theorem failsOnlyAsInvalid_bind {α β : Type} {result : Except PyError α}
    {next : α → Except PyError β} (hnext : ∀ value, ∃ found, next value = .ok found) :
    FailsOnlyAsInvalid (result >>= next) ↔ FailsOnlyAsInvalid result := by
  cases result with
  | error error =>
      simp [FailsOnlyAsInvalid, RaisesInvalidCondition, bind, Except.bind]
  | ok value => exact iff_of_true (.inl (hnext value)) (.inl ⟨value, rfl⟩)

theorem failsOnlyAsInvalid_parseAll (strings : List String) :
    FailsOnlyAsInvalid (parseAll defaultRegistry strings) ↔
      ReachesNoMembership strings := by
  induction strings with
  | nil =>
      refine iff_of_true (.inl ⟨[], rfl⟩) fun before raw after heq => ?_
      simp at heq
  | cons raw rest ih =>
      rw [reachesNoMembership_cons, parseAll]
      have houtcome := outcome_parseCondition raw
      generalize parseCondition defaultRegistry raw = result at houtcome
      cases houtcome with
      | parsed c hraw hnot =>
          have hrest : FailsOnlyAsInvalid (do
              let conditions ← parseAll defaultRegistry rest
              return c :: conditions) ↔ ReachesNoMembership rest :=
            (failsOnlyAsInvalid_bind fun conditions =>
              ⟨c :: conditions, rfl⟩).trans ih
          exact hrest.trans ⟨fun h => ⟨hnot, fun _ => h⟩, fun h => h.2 hraw⟩
      | rejected message hraw hmembership =>
          exact iff_of_true (.inr ⟨message, rfl⟩)
            ⟨hmembership, fun h => absurd h hraw⟩
      | escaped message hraw hmembership =>
          refine iff_of_false ?_ fun h => h.1 hmembership
          rintro (⟨value, h⟩ | ⟨message', h⟩) <;> cases h

/--
The parser returns a group or raises its own error if and only if it is given a
string and reaches no membership operator with a value.
-/
theorem parser_fails_only_as_invalid_iff (strings : List String) :
    FailsOnlyAsInvalid (parseConditions defaultRegistry strings) ↔
      strings ≠ [] ∧ ReachesNoMembership strings := by
  cases strings with
  | nil =>
      refine iff_of_false ?_ fun h => h.1 rfl
      rintro (⟨value, h⟩ | ⟨message, h⟩) <;> cases h
  | cons raw rest =>
      rw [← failsOnlyAsInvalid_parseAll, parseConditions]
      cases hall : parseAll defaultRegistry (raw :: rest) with
      | error error =>
          simp [FailsOnlyAsInvalid, RaisesInvalidCondition, bind, Except.bind]
      | ok conditions =>
          obtain ⟨c, -, hconditions⟩ := bind_eq_ok.mp hall
          obtain ⟨others, -, hconditions⟩ := bind_eq_ok.mp hconditions
          rw [← pure_eq_ok.mp hconditions]
          exact iff_of_true (.inl ⟨_, rfl⟩) ⟨by simp, .inl ⟨_, rfl⟩⟩

omit [PythonRuntime] in
/-- `province:IN:36,15` and an empty list escape as a `ValueError`. -/
theorem parser_escapes :
    @parseConditions .plain defaultRegistry ["province:IN:36,15"] =
        .error (.valueError "IN requires a non-empty tuple") ∧
      @parseConditions .plain defaultRegistry [] =
        .error (.valueError "RuleGroup must have at least one child") ∧
      ¬∀ strings, FailsOnlyAsInvalid
        (@parseConditions .plain defaultRegistry strings) := by
  refine ⟨rfl, rfl, fun h => ?_⟩
  obtain ⟨value, hvalue⟩ | ⟨message, hmessage⟩ := h []
  · cases hvalue
  · cases hmessage

end RealEstateTracker.Application
