import RealEstateTracker.Domain.KnownFields

/-!
# Thresholds on the price per square metre

The price per square metre is rounded before it is compared.  A quotient of two
amounts in hundredths that differs from a threshold in hundredths differs from it
by more than the rounding can move it, so the comparison is the exact one.
-/

namespace RealEstateTracker.Domain

open Foundation

/-! ## Amounts in hundredths -/

/-- A decimal, however it is written, whose value is a number of hundredths. -/
def Hundredths (d : Decimal) (n : ℕ) : Prop := d.exact = some ((n : ℚ) / 100)

theorem ratio_pos {a b : ℕ} (ha : 0 < a) (hb : 0 < b) : (0 : ℚ) < a / b :=
  div_pos (by exact_mod_cast ha) (by exact_mod_cast hb)

/-- A ratio of amounts below the limits has at most fourteen digits before the point. -/
theorem log_ratio_lt {a b : ℕ} (ha : 0 < a) (hb : 0 < b) (ha' : a < 10 ^ 14) :
    Int.log 10 ((a : ℚ) / b) < 14 := by
  rw [← Int.lt_zpow_iff_log_lt (by norm_num) (ratio_pos ha hb)]
  have ha' : (a : ℚ) < 10 ^ 14 := by exact_mod_cast ha'
  have hb : (1 : ℚ) ≤ b := by exact_mod_cast hb
  calc (a : ℚ) / b ≤ a := div_le_self (by positivity) hb
    _ < ((10 : ℕ) : ℚ) ^ (14 : ℤ) := by exact_mod_cast ha'

theorem unit_ratio_le {a b : ℕ} (ha : 0 < a) (hb : 0 < b) (ha' : a < 10 ^ 14) :
    Decimal.unit ((a : ℚ) / b) ≤ -14 := by
  have hlog := log_ratio_lt ha hb ha'
  have htiny : Decimal.tiny ≤ -14 := by decide
  have hprecision : (Decimal.precision : ℤ) = 28 := rfl
  rw [Decimal.unit]
  omega

/-- Two different ratios with these denominators are further apart than `10 ^ -14`. -/
theorem gap_of_ne {a b n : ℕ} (hb : 0 < b) (hb' : b < 10 ^ 12)
    (hne : (a : ℚ) / b ≠ n / 100) : (10 : ℚ) ^ (-14 : ℤ) ≤ |(a : ℚ) / b - n / 100| := by
  have hpos : (0 : ℚ) < b := by exact_mod_cast hb
  have hsplit : (a : ℚ) / b - n / 100 =
      ((a * 100 - n * b : ℤ) : ℚ) / (b * 100) := by
    push_cast
    field_simp
  have hint : (1 : ℚ) ≤ |((a * 100 - n * b : ℤ) : ℚ)| := by
    have hne' : (a * 100 - n * b : ℤ) ≠ 0 := by
      intro hzero
      rw [hzero, Int.cast_zero, zero_div, sub_eq_zero] at hsplit
      exact hne hsplit
    exact_mod_cast Int.one_le_abs hne'
  have hsmall : (b : ℚ) ≤ 10 ^ 12 := by exact_mod_cast hb'.le
  rw [hsplit, abs_div, abs_of_pos (by positivity : (0 : ℚ) < b * 100),
    le_div_iff₀ (by positivity)]
  calc (10 : ℚ) ^ (-14 : ℤ) * (b * 100)
      ≤ (10 : ℚ) ^ (-14 : ℤ) * (10 ^ 12 * 100) := by gcongr
    _ = 1 := by norm_num
    _ ≤ _ := hint

theorem compare_rounded_ratio {a b : ℕ} (ha : 0 < a) (hb : 0 < b)
    (ha' : a < 10 ^ 14) (hb' : b < 10 ^ 12) (n : ℕ) :
    compare (Decimal.rounded ((a : ℚ) / b)) ((n : ℚ) / 100) =
      compare ((a : ℚ) / b) (n / 100) := by
  have hunit := unit_ratio_le ha hb ha'
  refine compare_of_separated ((Decimal.abs_sub_rounded_le _).trans ?_) ?_
    (gap_of_ne hb hb')
  · have := zpow_le_zpow_right₀ (by norm_num : (1 : ℚ) ≤ 10) hunit
    linarith
  · intro heq
    refine Decimal.rounded_of_multiple (n := n) (k := -2) ?_ (by omega)
    rw [heq]
    norm_num
    ring

/-! ## The price per square metre -/

theorem pricePerM2_of_hundredths {p : Property} {price : Money} {area : Area}
    (hp : p.price = some price) (hp' : p.area = some area) {a b : ℕ}
    (hprice : Hundredths price.amount a) (harea : Hundredths area.squareMeters b)
    (ha : 0 < a) (ha' : a < 10 ^ 14) (hb : 0 < b) (hb' : b < 10 ^ 12) :
    ∃ z : Decimal, z.exact = some (Decimal.rounded ((a : ℚ) / b)) ∧
      pricePerM2Field.extract p = .ok (some (.dec z)) := by
  have hratio : (a : ℚ) / 100 / (b / 100) = a / b := by field_simp
  have hlog := log_ratio_lt ha hb ha'
  obtain ⟨z, hdiv, hz⟩ := Decimal.div_of_exact hprice harea
    (ratio_pos ha (by norm_num)) (ratio_pos hb (by norm_num))
    (by rw [hratio, Decimal.maxAdjusted]; omega)
  rw [hratio] at hz
  have hpositive : z.le zeroDecimal = .ok false := by
    have hzero : Hundredths zeroDecimal 0 := by
      simp [Hundredths, zeroDecimal, Decimal.ofInt, Decimal.exact, Decimal.value]
    have hcompare := compare_rounded_ratio ha hb ha' hb' 0
    rw [Decimal.le, Decimal.ordered_of_exact hz hzero, hcompare,
      compare_gt_iff_gt.mpr (by simpa using ratio_pos ha hb)]
    rfl
  have hnew : PricePerM2.new z price.currency = .ok ⟨z, price.currency, hpositive⟩ := by
    unfold PricePerM2.new
    split <;> simp_all
  refine ⟨z, hz, ?_⟩
  simp [pricePerM2Field, Property.pricePerM2, hp, hp', PricePerM2.fromPriceAndArea,
    hdiv, hnew, Except.map]

/-- What a comparison of `price / area` with thresholds means without rounding. -/
def HoldsExactly (price area : ℚ) : Operator → List ℚ → Prop
  | .lt, [v] => price < v * area
  | .lte, [v] => price ≤ v * area
  | .gt, [v] => v * area < price
  | .gte, [v] => v * area ≤ price
  | .between, [low, high] => low * area ≤ price ∧ price ≤ high * area
  | _, _ => False

def ThresholdsAre (value : Option ConditionValue) (thresholds : List ℕ) : Prop :=
  ∃ v, value = some v ∧ List.Forall₂ (fun s n => ∃ d, s = .dec d ∧ Hundredths d n)
    v.scalars thresholds

def comparisons : List Operator := [.lt, .lte, .gt, .gte, .between]

theorem pyOrdered_of_hundredths {a b n : ℕ} (ha : 0 < a) (hb : 0 < b)
    (ha' : a < 10 ^ 14) (hb' : b < 10 ^ 12) {z d : Decimal}
    (hz : z.exact = some (Decimal.rounded ((a : ℚ) / b))) (hd : Hundredths d n)
    (symbol : String) (accepts : Ordering → Bool) :
    Scalar.pyOrdered symbol accepts (.dec z) (.dec d) =
      .ok (accepts (compare ((a : ℚ) / b) (n / 100))) := by
  simp only [Scalar.pyOrdered, Scalar.number?, Decimal.ordered_of_exact hz hd,
    compare_rounded_ratio ha hb ha' hb']
  rfl

theorem pyLe_eq_pyGe (x y : Decimal) :
    Scalar.pyLe (.dec x) (.dec y) = Scalar.pyGe (.dec y) (.dec x) :=
  congrArg (Except.mapError PyError.decimal) (Decimal.ge_eq_le y x).symm

theorem forall₂_pair {α β : Type} {R : α → β → Prop} {x y : α} {l : List β}
    (h : List.Forall₂ R [x, y] l) : ∃ u v, l = [u, v] ∧ R x u ∧ R y v := by
  cases h with
  | cons hu h =>
      cases h with
      | cons hv h =>
          cases h
          exact ⟨_, _, rfl, hu, hv⟩

section Leaves

variable [PythonRuntime] {p : Property} {a b : ℕ} {z : Decimal}

theorem matches_of_hundredths (ha : 0 < a) (hb : 0 < b) (ha' : a < 10 ^ 14)
    (hb' : b < 10 ^ 12) (hz : z.exact = some (Decimal.rounded ((a : ℚ) / b)))
    {c : AlertCondition} (hoperator : c.operator ∈ comparisons)
    {thresholds : List ℕ} (hthresholds : ThresholdsAre c.value thresholds) :
    ∃ holds, c.operator.matches (some (.dec z)) c.value = .ok holds ∧
      (holds = true ↔ HoldsExactly ((a : ℚ) / 100) (b / 100) c.operator
        (thresholds.map fun n : ℕ => (n : ℚ) / 100)) := by
  have harea : (0 : ℚ) < b / 100 := by
    have : (0 : ℚ) < b := by exact_mod_cast hb
    positivity
  have hratio : (a : ℚ) / b = a / 100 / (b / 100) := by field_simp
  have hordered := fun {d n} (hd : Hundredths d n) =>
    pyOrdered_of_hundredths ha hb ha' hb' hz hd
  rw [hratio] at hordered
  obtain ⟨value, hvalue, hthresholds⟩ := hthresholds
  rcases c.shape with ⟨hnullary, -⟩ | ⟨hbetween, low, high, hpair⟩ |
    hmembership | ⟨-, hbetween, s, hscalar⟩
  · revert hoperator hnullary
    cases c.operator <;> simp [comparisons, Operator.isNullary]
  · rw [hpair] at hvalue ⊢
    obtain rfl := Option.some.inj hvalue
    obtain ⟨m, n, rfl, ⟨low, rfl, hlow⟩, ⟨high, rfl, hhigh⟩⟩ :=
      forall₂_pair hthresholds
    rw [hbetween]
    have hbelow : Scalar.pyLe (.dec low) (.dec z) = _ :=
      (pyLe_eq_pyGe low z).trans (hordered hlow ">=" _)
    have habove : Scalar.pyLe (.dec z) (.dec high) = _ := hordered hhigh "<=" _
    have hboth : ∀ x y : Bool, Scalar.pyLe (.dec low) (.dec z) = .ok x →
        Scalar.pyLe (.dec z) (.dec high) = .ok y →
        Operator.between.matches (some (.dec z))
          (some (.tuple [.dec low, .dec high])) = .ok (x && y) := by
      intro x y hx hy
      simp only [Operator.matches, betweenPair, unpackPair, bind, Except.bind, hx, hy]
      cases x <;> rfl
    refine ⟨_, hboth _ _ hbelow habove, ?_⟩
    rw [Bool.and_eq_true, bne_iff_ne, bne_iff_ne, compare_ge_iff_ge,
      compare_le_iff_le, le_div_iff₀ harea, div_le_iff₀ harea]
    rfl
  · revert hoperator
    rcases hmembership with h | h <;> simp [h, comparisons]
  · rw [hscalar] at hvalue ⊢
    obtain rfl := Option.some.inj hvalue
    obtain ⟨n, l, ⟨d, rfl, hd⟩, h, rfl⟩ := List.forall₂_cons_left_iff.mp hthresholds
    obtain rfl := List.forall₂_nil_left_iff.mp h
    generalize c.operator = operator at hoperator hbetween
    simp only [comparisons, List.mem_cons, List.not_mem_nil, or_false] at hoperator
    obtain rfl | rfl | rfl | rfl | rfl := hoperator
    · refine ⟨_, hordered hd "<" _, ?_⟩
      rw [beq_iff_eq, compare_lt_iff_lt, div_lt_iff₀ harea]
      rfl
    · refine ⟨_, hordered hd "<=" _, ?_⟩
      rw [bne_iff_ne, compare_le_iff_le, div_le_iff₀ harea]
      rfl
    · refine ⟨_, hordered hd ">" _, ?_⟩
      rw [beq_iff_eq, compare_gt_iff_gt, lt_div_iff₀ harea]
      rfl
    · refine ⟨_, hordered hd ">=" _, ?_⟩
      rw [bne_iff_ne, compare_ge_iff_ge, le_div_iff₀ harea]
      rfl
    · exact absurd rfl hbetween

/--
A leaf that compares the price per square metre with amounts in hundredths holds
if and only if the exact quotient compares so, for every price below `10 ^ 12` and
every area below `10 ^ 10`.
-/
theorem price_threshold_is_exact {price : Money} {area : Area}
    (hp : p.price = some price) (hp' : p.area = some area)
    (hprice : Hundredths price.amount a) (harea : Hundredths area.squareMeters b)
    (ha : 0 < a) (ha' : a < 10 ^ 14) (hb : 0 < b) (hb' : b < 10 ^ 12)
    {c : AlertCondition} (hkey : c.fieldKey = pricePerM2Field.key)
    (hoperator : c.operator ∈ comparisons) {thresholds : List ℕ}
    (hthresholds : ThresholdsAre c.value thresholds) :
    ∃ spec holds, SpecificationFactory.node defaultRegistry (.leaf c) = .ok spec ∧
      spec.isSatisfiedBy p = .ok holds ∧
      (holds = true ↔ HoldsExactly ((a : ℚ) / 100) (b / 100) c.operator
        (thresholds.map fun n : ℕ => (n : ℚ) / 100)) := by
  have hget : defaultRegistry.get c.fieldKey = .ok pricePerM2Field := by
    rw [hkey]
    rfl
  have hallowed : c.operator ∈ pricePerM2Field.allowedOperators :=
    (by decide : comparisons ⊆ FieldType.money.operators) hoperator
  obtain ⟨z, hz, hextract⟩ :=
    pricePerM2_of_hundredths hp hp' hprice harea ha ha' hb hb'
  obtain ⟨holds, hmatches, hexact⟩ :=
    matches_of_hundredths ha hb ha' hb' hz hoperator hthresholds
  refine ⟨.field pricePerM2Field c.operator c.value, holds, ?_, ?_, hexact⟩
  · rw [SpecificationFactory.node, SpecificationFactory.leaf, hget]
    exact if_pos hallowed
  · rw [Specification.isSatisfiedBy, hextract]
    exact hmatches

end Leaves

def smallFlat : Property :=
  { sparseFlat with
    price := some ⟨.ofInt 10000, .eur, by decide⟩
    area := some ⟨.finite false 700 (-2), by decide⟩ }

def narrowRange : AlertCondition :=
  ⟨"price_per_m2", .between,
    some (.tuple [.dec (.finite false 142857 (-2)), .dec (.finite false 142858 (-2))]),
    by decide, by decide⟩

theorem price_threshold_is_exact_narrowRange :
    ∃ spec holds,
      @SpecificationFactory.node .plain defaultRegistry (.leaf narrowRange) = .ok spec ∧
      @Specification.isSatisfiedBy .plain smallFlat spec = .ok holds ∧
      (holds = true ↔ HoldsExactly ((1000000 : ℕ) / 100) ((700 : ℕ) / 100) .between
        ([142857, 142858].map fun n : ℕ => (n : ℚ) / 100)) := by
  refine @price_threshold_is_exact .plain smallFlat 1000000 700 _ _ rfl rfl ?_ ?_
    (by decide) (by decide) (by decide) (by decide) narrowRange rfl (by decide)
    [142857, 142858] ⟨_, rfl, .cons ⟨_, rfl, ?_⟩ (.cons ⟨_, rfl, ?_⟩ .nil)⟩
  all_goals
    simp [Hundredths, Decimal.exact, Decimal.value, Decimal.ofInt]
    norm_num

end RealEstateTracker.Domain
