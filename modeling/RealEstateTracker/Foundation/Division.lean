import RealEstateTracker.Foundation.Decimal
import RealEstateTracker.Foundation.Rounding

/-!
# Division of decimals

The quotient of two nonzero numbers is the exact one, rounded half even to the
last digit that the context keeps.  It depends on the values of the two numbers
and not on how they are written.
-/

namespace RealEstateTracker.Foundation.Decimal

/-! ## The decade of a number -/

theorem digitCount_eq {n : Nat} (h : 0 < n) :
    digitCount n = Nat.log 10 n + 1 := by
  rw [digitCount, Text.ofNat, if_neg h.ne', List.length_map,
    List.length_reverse, Nat.length_digits 10 n (by norm_num) h.ne']

theorem lt_pow_digitCount {n : Nat} (h : 0 < n) : n < 10 ^ digitCount n := by
  rw [digitCount_eq h]
  exact Nat.lt_pow_succ_log_self (by norm_num) n

theorem pow_digitCount_le {n : Nat} (h : 0 < n) : 10 ^ (digitCount n - 1) ≤ n := by
  rw [digitCount_eq h]
  exact Nat.pow_log_le_self 10 h.ne'

theorem digitCount_pos {n : Nat} (h : 0 < n) : 0 < digitCount n := by
  rw [digitCount_eq h]
  exact Nat.succ_pos _

theorem log_of_between {q : ℚ} {k : ℤ} (hlow : 10 ^ k ≤ q)
    (hhigh : q < 10 ^ (k + 1)) : Int.log 10 q = k := by
  have hpos : 0 < q := (zpow_pos (by norm_num) k).trans_le hlow
  apply le_antisymm
  · have := (Int.lt_zpow_iff_log_lt (b := 10) (by norm_num) hpos).mp
      (by exact_mod_cast hhigh)
    omega
  · exact (Int.zpow_le_iff_le_log (by norm_num) hpos).mp
      (by exact_mod_cast hlow)

/-- A coefficient shifted by an exponent lies in the decade of its digits. -/
theorem decade {c : Nat} (hc : 0 < c) (e : ℤ) :
    (10 : ℚ) ^ (digitCount c + e - 1) ≤ c * 10 ^ e ∧
      (c : ℚ) * 10 ^ e < 10 ^ (digitCount c + e) := by
  have hlow : (10 : ℚ) ^ (digitCount c - 1) ≤ c := by
    exact_mod_cast pow_digitCount_le hc
  have hhigh : (c : ℚ) < 10 ^ digitCount c := by
    exact_mod_cast lt_pow_digitCount hc
  have hpos : (0 : ℚ) < 10 ^ e := by positivity
  have hcount := digitCount_pos hc
  constructor
  · calc (10 : ℚ) ^ (digitCount c + e - 1)
        = 10 ^ (digitCount c - 1) * 10 ^ e := by
          rw [← zpow_natCast, ← zpow_add₀ (by norm_num)]
          congr 1
          omega
      _ ≤ c * 10 ^ e := by gcongr
  · calc (c : ℚ) * 10 ^ e
        < 10 ^ digitCount c * 10 ^ e := by gcongr
      _ = 10 ^ (digitCount c + e) := by
          rw [← zpow_natCast, ← zpow_add₀ (by norm_num)]

theorem log_coefficient {c : Nat} (hc : 0 < c) (e : ℤ) :
    Int.log 10 ((c : ℚ) * 10 ^ e) = digitCount c + e - 1 := by
  have h := decade hc e
  exact log_of_between h.1 (by rw [sub_add_cancel]; exact h.2)

/-! ## Rounding to the context -/

/-- The exponent of the last digit that the context keeps of a number. -/
def unit (q : ℚ) : ℤ := max (Int.log 10 q - precision + 1) tiny

def rounded (q : ℚ) : ℚ := halfEven (q / 10 ^ unit q) * 10 ^ unit q

theorem abs_sub_rounded_le (q : ℚ) : |q - rounded q| ≤ 10 ^ unit q / 2 := by
  have hpos : (0 : ℚ) < 10 ^ unit q := by positivity
  have hsplit : q - rounded q =
      (q / 10 ^ unit q - halfEven (q / 10 ^ unit q)) * 10 ^ unit q := by
    rw [rounded, sub_mul, div_mul_cancel₀ _ hpos.ne']
  rw [hsplit, abs_mul, abs_of_pos hpos]
  calc |q / 10 ^ unit q - halfEven (q / 10 ^ unit q)| * 10 ^ unit q
      ≤ 1 / 2 * 10 ^ unit q :=
        mul_le_mul_of_nonneg_right (abs_sub_halfEven_le _) hpos.le
    _ = 10 ^ unit q / 2 := by ring

theorem rounded_of_multiple {q : ℚ} {n k : ℤ} (hq : q = n * 10 ^ k)
    (hk : unit q ≤ k) : rounded q = q := by
  have hpos : (0 : ℚ) < 10 ^ unit q := by positivity
  have hmultiple : q / 10 ^ unit q = ((n * 10 ^ (k - unit q).toNat : ℤ) : ℚ) := by
    have hsplit : (10 : ℚ) ^ k = 10 ^ (k - unit q).toNat * 10 ^ unit q := by
      rw [← zpow_natCast, ← zpow_add₀ (by norm_num)]
      congr 1
      omega
    rw [div_eq_iff hpos.ne', Int.cast_mul, Int.cast_pow, mul_assoc]
    conv_lhs => rw [hq, hsplit]
    push_cast
    ring
  rw [rounded, hmultiple, halfEven_intCast, ← hmultiple,
    div_mul_cancel₀ _ hpos.ne']

/-- The outcome of rounding a positive number to the context. -/
inductive RoundsTo (negative : Bool) (q : ℚ) :
    Except DecimalSignal Decimal → Prop
  | overflow (h : maxAdjusted ≤ Int.log 10 q) :
      RoundsTo negative q (.error .overflow)
  | value (c : Nat) (e : ℤ) (h : (c : ℚ) * 10 ^ e = rounded q) :
      RoundsTo negative q (.ok (finite negative c e))

theorem dropDigits_eq (n k : Nat) :
    (dropDigits n k : ℤ) = halfEven ((n : ℚ) / (10 ^ k : ℕ)) := by
  rw [halfEven_natCast_div n (by positivity), dropDigits]
  split <;> rfl

theorem dropDigits_le {n k digits : Nat} (h : n < 10 ^ (digits + k)) :
    dropDigits n k ≤ 10 ^ digits := by
  have hlt : n / 10 ^ k < 10 ^ digits := by
    rw [Nat.div_lt_iff_lt_mul (by positivity), ← pow_add]
    exact h
  unfold dropDigits
  dsimp only
  split <;> omega

/-- Rounding that carries into a new digit leaves a power of ten. -/
theorem eq_pow_of_precision_lt {n : Nat} (hle : n ≤ 10 ^ precision)
    (hcount : precision < digitCount n) : n = 10 ^ precision := by
  refine le_antisymm hle ?_
  by_contra hlt
  have hpos : 0 < n := by
    by_contra hzero
    obtain rfl : n = 0 := by omega
    exact absurd hcount (by decide)
  have hlog : Nat.log 10 n < precision :=
    Nat.log_lt_of_lt_pow hpos.ne' (not_le.mp hlt)
  rw [digitCount_eq hpos] at hcount
  omega

theorem unit_coefficient {c : Nat} (hc : 0 < c) (e : ℤ) :
    unit ((c : ℚ) * 10 ^ e) = max (digitCount c + e - precision) tiny := by
  rw [unit, log_coefficient hc]
  congr 1
  ring

/-- `Decimal._fix` rounds a number to the context. -/
theorem roundsTo_fix (negative : Bool) {c : Nat} (hc : 0 < c) (e : ℤ) :
    RoundsTo negative ((c : ℚ) * 10 ^ e) (fix negative c e) := by
  have hlog := log_coefficient hc e
  have hunit := unit_coefficient hc e
  have htop : top = maxAdjusted - 27 := rfl
  have htiny : tiny < top := by decide
  have hprecision : (precision : ℤ) = 28 := rfl
  unfold fix
  rw [if_neg hc.ne']
  dsimp only
  split
  · next hover => exact .overflow (by omega)
  next hover =>
  rw [← hunit]
  generalize hleast : unit ((c : ℚ) * 10 ^ e) = least at hunit
  split
  · next hlt =>
    -- digits are dropped, and what is left may have carried into a new one
    have hround : rounded ((c : ℚ) * 10 ^ e) =
        (dropDigits c (least - e).toNat : ℚ) * 10 ^ least := by
      have hk : (10 : ℚ) ^ least = 10 ^ (least - e).toNat * 10 ^ e := by
        rw [← zpow_natCast, ← zpow_add₀ (by norm_num)]
        congr 1
        omega
      rw [rounded, hleast, ← Int.cast_natCast (dropDigits _ _), dropDigits_eq]
      congr 3
      rw [hk]
      push_cast
      field_simp
    have hsmall : dropDigits c (least - e).toNat ≤ 10 ^ precision := by
      apply dropDigits_le
      exact (lt_pow_digitCount hc).trans_le
        (Nat.pow_le_pow_right (by norm_num) (by omega))
    generalize dropDigits c (least - e).toNat = kept at hround hsmall
    split
    · next hcarry =>
      have hkept := eq_pow_of_precision_lt hsmall hcarry
      dsimp only
      split
      · exact .overflow (by omega)
      · refine .value _ _ ?_
        rw [hround, hkept, zpow_add₀ (by norm_num)]
        norm_num [precision]
        ring
    · dsimp only
      split
      · exact .overflow (by omega)
      · exact .value _ _ hround.symm
  · next hge =>
    -- nothing is dropped: the number is a multiple of its last unit
    refine .value _ _ (rounded_of_multiple (n := c) (k := e) ?_ ?_).symm
    · rw [Int.cast_natCast]
    · omega

/-! ## The quotient -/

theorem RoundsTo.congr {negative : Bool} {q q' : ℚ}
    {result : Except DecimalSignal Decimal} (h : RoundsTo negative q result)
    (hlog : Int.log 10 q = Int.log 10 q') (hrounded : rounded q = rounded q') :
    RoundsTo negative q' result := by
  cases h with
  | overflow h => exact .overflow (hlog ▸ h)
  | value c e h => exact .value c e (h.trans hrounded)

theorem towardIdeal_value (ideal : ℤ) (fuel : Nat) {c : Nat} (hc : 0 < c) (e : ℤ) :
    0 < (towardIdeal fuel c e ideal).1 ∧
      ((towardIdeal fuel c e ideal).1 : ℚ) * 10 ^ (towardIdeal fuel c e ideal).2 =
        c * 10 ^ e := by
  induction fuel generalizing c e with
  | zero => exact ⟨hc, rfl⟩
  | succ fuel ih =>
      rw [towardIdeal]
      split
      · next h =>
        have hten : c = c / 10 * 10 := by omega
        obtain ⟨hpos, hvalue⟩ := ih (c := c / 10) (by omega) (e + 1)
        refine ⟨hpos, ?_⟩
        rw [hvalue, zpow_add₀ (by norm_num), zpow_one]
        conv_rhs => rw [hten]
        push_cast
        ring
      · exact ⟨hc, rfl⟩

/-- The sticky digit keeps a number between the same two multiples of five. -/
def sticky (n : Nat) : Nat := if n % 5 = 0 then n + 1 else n

theorem sticky_mod_five (n : Nat) : sticky n % 5 ≠ 0 := by
  unfold sticky
  split <;> omega

theorem sticky_lt {n k : Nat} (hk : 0 < k) (h : n < 10 ^ k) :
    sticky n < 10 ^ k := by
  have hfive : 10 ^ k % 5 = 0 :=
    Nat.mod_eq_zero_of_dvd ((by norm_num : 5 ∣ 10).trans (dvd_pow_self 10 hk.ne'))
  unfold sticky
  split <;> omega

theorem sticky_div {n half : Nat} (h : 5 ∣ half) : sticky n / half = n / half := by
  unfold sticky
  split
  · next hn =>
    rw [Nat.succ_div, if_neg, add_zero]
    intro hdvd
    have := h.trans hdvd
    omega
  · rfl

/-- A sticky digit in place of the rest of an inexact quotient changes nothing. -/
theorem rounded_sticky {n : Nat} {x : ℚ} {e : ℤ} (hn : precision < digitCount n)
    (hlow : (n : ℚ) < x) (hhigh : x < n + 1) :
    Int.log 10 ((sticky n : ℚ) * 10 ^ e) = Int.log 10 (x * 10 ^ e) ∧
      rounded ((sticky n : ℚ) * 10 ^ e) = rounded (x * 10 ^ e) := by
  have hpos : 0 < n := by
    by_contra hzero
    obtain rfl : n = 0 := by omega
    exact absurd hn (by decide)
  have hlt := lt_pow_digitCount hpos
  have hten : (0 : ℚ) < 10 ^ e := by positivity
  have hdecade := (decade hpos e).1
  have hpow : (10 : ℚ) ^ (digitCount n + e - 1 + 1) =
      (10 ^ digitCount n : ℕ) * 10 ^ e := by
    rw [sub_add_cancel, zpow_add₀ (by norm_num)]
    push_cast
    rfl
  have hle : n ≤ sticky n := by
    unfold sticky
    split <;> omega
  have hlogSticky : Int.log 10 ((sticky n : ℚ) * 10 ^ e) = digitCount n + e - 1 := by
    refine log_of_between (hdecade.trans ?_) ?_
    · gcongr
    · rw [hpow]
      gcongr
      exact sticky_lt (by omega) hlt
  have hlog : Int.log 10 (x * 10 ^ e) = digitCount n + e - 1 := by
    refine log_of_between (hdecade.trans ?_) ?_
    · gcongr
    · rw [hpow]
      gcongr
      calc x < n + 1 := hhigh
        _ ≤ (10 ^ digitCount n : ℕ) := by exact_mod_cast hlt
  refine ⟨hlogSticky.trans hlog.symm, ?_⟩
  have hunit : unit ((sticky n : ℚ) * 10 ^ e) = unit (x * 10 ^ e) := by
    rw [unit, unit, hlog, hlogSticky]
  obtain ⟨k, hk⟩ : ∃ k : Nat, unit (x * 10 ^ e) = e + (k + 1 : ℕ) := by
    have hge : e + 1 ≤ unit (x * 10 ^ e) := by
      have hprecision : (precision : ℤ) = 28 := rfl
      rw [unit, hlog]
      omega
    exact ⟨(unit (x * 10 ^ e) - e - 1).toNat, by omega⟩
  have hscale : ∀ y : ℚ, y * 10 ^ e / 10 ^ unit (x * 10 ^ e) =
      y / (2 * (5 * 10 ^ k) : ℕ) := by
    intro y
    rw [hk, zpow_add₀ (by norm_num), zpow_natCast, pow_succ]
    push_cast
    field_simp
    ring
  have hfive : 5 ∣ 5 * 10 ^ k := dvd_mul_right 5 _
  rw [rounded, rounded, hunit, hscale, hscale,
    halfEven_div_of_sticky (by positivity) hlow hhigh (sticky_div hfive)]
  intro hmod
  exact sticky_mod_five n
    (Nat.mod_eq_zero_of_dvd (hfive.trans (Nat.dvd_of_mod_eq_zero hmod)))

/-- The dividend is shifted until the quotient has more digits than the context. -/
theorem le_shifted {c c' : Nat} (hc : 0 < c) (hc' : 0 < c') {shift : ℤ}
    (hshift : (digitCount c' : ℤ) - digitCount c + precision + 1 = shift) :
    10 ^ precision * (c' * 10 ^ (-shift).toNat) ≤ c * 10 ^ shift.toNat := by
  have hupper := lt_pow_digitCount hc'
  have hlower := pow_digitCount_le hc
  have hone := digitCount_pos hc
  calc 10 ^ precision * (c' * 10 ^ (-shift).toNat)
      ≤ 10 ^ precision * (10 ^ digitCount c' * 10 ^ (-shift).toNat) := by gcongr
    _ = 10 ^ (digitCount c - 1) * 10 ^ shift.toNat := by
        rw [← pow_add, ← pow_add, ← pow_add]
        congr 1
        omega
    _ ≤ c * 10 ^ shift.toNat := by gcongr

theorem ratio_eq_shifted (c : Nat) {c' : Nat} (hc' : 0 < c') (e e' shift : ℤ) :
    (c : ℚ) * 10 ^ e / (c' * 10 ^ e') =
      ((c * 10 ^ shift.toNat : ℕ) : ℚ) / (c' * 10 ^ (-shift).toNat : ℕ) *
        10 ^ (e - e' - shift) := by
  have hsplit : (10 : ℚ) ^ (e - e' - shift) * 10 ^ shift.toNat * 10 ^ e' =
      10 ^ e * 10 ^ (-shift).toNat := by
    rw [← zpow_natCast, ← zpow_natCast, ← zpow_add₀ (by norm_num),
      ← zpow_add₀ (by norm_num), ← zpow_add₀ (by norm_num)]
    congr 1
    omega
  have hne : (c' : ℚ) ≠ 0 := by exact_mod_cast hc'.ne'
  push_cast
  rw [div_mul_eq_mul_div, div_eq_div_iff (by positivity) (by positivity)]
  linear_combination (-(c : ℚ) * c') * hsplit

theorem quotient_between {n d : Nat} (hd : 0 < d) (hrest : n % d ≠ 0) :
    ((n / d : ℕ) : ℚ) < n / d ∧ (n : ℚ) / d < (n / d : ℕ) + 1 := by
  have hd' : (0 : ℚ) < d := by exact_mod_cast hd
  have hsplit : (n : ℚ) = d * (n / d : ℕ) + (n % d : ℕ) := by
    exact_mod_cast (Nat.div_add_mod n d).symm
  have hpos : (0 : ℚ) < (n % d : ℕ) := by exact_mod_cast Nat.pos_of_ne_zero hrest
  have hlt : ((n % d : ℕ) : ℚ) < d := by exact_mod_cast Nat.mod_lt n hd
  rw [lt_div_iff₀ hd', div_lt_iff₀ hd']
  constructor <;> linarith

/-- The quotient of two nonzero numbers is the exact one, rounded. -/
theorem roundsTo_divFinite (negative : Bool) {c c' : Nat} (hc : 0 < c)
    (hc' : 0 < c') (e e' : ℤ) :
    RoundsTo negative (c * 10 ^ e / (c' * 10 ^ e'))
      (divFinite negative c e c' e') := by
  unfold divFinite
  rw [if_neg hc'.ne', if_neg hc.ne']
  dsimp only
  generalize hshift : (digitCount c' : ℤ) - digitCount c + precision + 1 = shift
  have hdivisor : 0 < c' * 10 ^ (-shift).toNat := by positivity
  have hratio := ratio_eq_shifted c hc' e e' shift
  have hlong := le_shifted hc hc' hshift
  generalize c * 10 ^ shift.toNat = dividend at hratio hlong
  generalize c' * 10 ^ (-shift).toNat = divisor at hratio hlong hdivisor
  have hquotient : 10 ^ precision ≤ dividend / divisor :=
    (Nat.le_div_iff_mul_le hdivisor).mpr hlong
  have hpos : 0 < dividend / divisor :=
    Nat.lt_of_lt_of_le (by positivity) hquotient
  have hcount : precision < digitCount (dividend / divisor) := by
    rw [digitCount_eq hpos]
    have := Nat.le_log_of_pow_le (by norm_num) hquotient
    omega
  rw [hratio]
  split
  · next hrest =>
    -- an inexact quotient gets a sticky digit
    obtain ⟨hlow, hhigh⟩ := quotient_between hdivisor hrest
    obtain ⟨hlog, hrounded⟩ := rounded_sticky hcount hlow hhigh
    refine (roundsTo_fix negative ?_ _).congr hlog hrounded
    split <;> omega
  · next hrest =>
    have hexact : (dividend : ℚ) / divisor = (dividend / divisor : ℕ) :=
      (Nat.cast_div (Nat.dvd_of_mod_eq_zero (not_not.mp hrest))
        (by exact_mod_cast hdivisor.ne')).symm
    obtain ⟨hideal, hvalue⟩ := towardIdeal_value (e - e')
      (digitCount (dividend / divisor)) hpos (e - e' - shift)
    rw [hexact, ← hvalue]
    exact roundsTo_fix negative hideal _

/-! ## Quotients of equal numbers -/

theorem eq_finite_iff {n n' : Bool} {c c' : Nat} {e e' : ℤ} :
    (finite n c e).eq (finite n' c' e') = .ok true ↔
      value n c e = value n' c' e' := by
  rw [eq_iff, compareNumbers_finite, compare_eq_iff_eq]
  simp [isNaN]

theorem value_eq_iff {n n' : Bool} {c c' : Nat} {e e' : ℤ} :
    value n c e = value n' c' e' ↔ (c = 0 ∧ c' = 0) ∨
      (0 < c ∧ 0 < c' ∧ n = n' ∧ (c : ℚ) * 10 ^ e = c' * 10 ^ e') := by
  have hten : ∀ k : ℤ, (0 : ℚ) < 10 ^ k := fun k => by positivity
  have hpos : ∀ {c : Nat} (k : ℤ), 0 < c → (0 : ℚ) < c * 10 ^ k :=
    fun k hc => mul_pos (by exact_mod_cast hc) (hten k)
  have hzero : ∀ {n : Bool} {c : Nat} {e : ℤ}, value n c e = 0 ↔ c = 0 := by
    intro n c e
    cases n <;> simp [value, (hten e).ne']
  obtain rfl | hc := Nat.eq_zero_or_pos c
  · rw [hzero.mpr rfl, eq_comm, hzero]
    simp
  obtain rfl | hc' := Nat.eq_zero_or_pos c'
  · rw [hzero.mpr rfl, hzero]
    simp [hc.ne']
  have h := hpos e hc
  have h' := hpos e' hc'
  cases n <;> cases n' <;>
    simp only [value, hc, hc', hc.ne', hc'.ne', Bool.false_eq_true, if_true,
      if_false, neg_mul, neg_inj, true_and, false_and, false_or, reduceCtorEq,
      iff_false]
  · linarith
  · linarith

theorem eq_infinity {x : Decimal} {n : Bool}
    (h : (infinity n).eq x = .ok true) : x = infinity n := by
  obtain ⟨-, hx, hcompare⟩ := eq_iff.mp h
  cases x with
  | nan => simp [isNaN] at hx
  | finite => cases n <;> simp [compareNumbers] at hcompare
  | infinity n' =>
      revert hcompare
      cases n <;> cases n' <;> simp [compareNumbers, compare]

theorem exists_finite_of_eq {n : Bool} {c : Nat} {e : ℤ} {x : Decimal}
    (h : (finite n c e).eq x = .ok true) : ∃ n' c' e', x = finite n' c' e' := by
  obtain ⟨-, hx, hcompare⟩ := eq_iff.mp h
  cases x with
  | nan => simp [isNaN] at hx
  | finite n' c' e' => exact ⟨n', c', e', rfl⟩
  | infinity n' => cases n' <;> simp [compareNumbers] at hcompare

theorem eq_of_isZero {x y : Decimal} (hx : x.isZero = true)
    (hy : y.isZero = true) : x.eq y = .ok true := by
  cases x with
  | finite n c e =>
      cases y with
      | finite n' c' e' =>
          exact eq_finite_iff.mpr (value_eq_iff.mpr (.inl
            ⟨by simpa [isZero] using hx, by simpa [isZero] using hy⟩))
      | infinity => simp [isZero] at hy
      | nan => simp [isZero] at hy
  | infinity => simp [isZero] at hx
  | nan => simp [isZero] at hx

theorem RoundsTo.eq {negative : Bool} {q : ℚ} {z z' : Decimal}
    (h : RoundsTo negative q (.ok z)) (h' : RoundsTo negative q (.ok z')) :
    z.eq z' = .ok true := by
  cases h with
  | value c e h =>
      cases h' with
      | value c' e' h' =>
          refine eq_finite_iff.mpr ?_
          cases negative <;> simp [Decimal.value, h, h']

theorem div_congr {x x' y y' z z' : Decimal} (hx : x.eq x' = .ok true)
    (hy : y.eq y' = .ok true) (hne : y.isZero = false) (h : x.div y = .ok z)
    (h' : x'.div y' = .ok z') : z.eq z' = .ok true := by
  cases x with
  | nan => simp [eq_iff, isNaN] at hx
  | infinity n =>
      obtain rfl := eq_infinity hx
      cases y with
      | nan => simp [eq_iff, isNaN] at hy
      | infinity => simp [div, isSignaling] at h
      | finite m d k =>
          obtain ⟨m', d', k', rfl⟩ := exists_finite_of_eq hy
          obtain ⟨rfl, -⟩ | ⟨-, -, rfl, -⟩ :=
            value_eq_iff.mp (eq_finite_iff.mp hy)
          · simp [isZero] at hne
          · simp only [div, isSignaling, Bool.or_self, Bool.false_eq_true,
              if_false, Except.ok.injEq] at h h'
            rw [← h, ← h']
            exact eq_self rfl
  | finite n c e =>
      obtain ⟨n', c', e', rfl⟩ := exists_finite_of_eq hx
      cases y with
      | nan => simp [eq_iff, isNaN] at hy
      | infinity m =>
          obtain rfl := eq_infinity hy
          simp only [div, isSignaling, Bool.or_self, Bool.false_eq_true,
            if_false, Except.ok.injEq] at h h'
          rw [← h, ← h']
          exact eq_of_isZero rfl rfl
      | finite m d k =>
          obtain ⟨m', d', k', rfl⟩ := exists_finite_of_eq hy
          obtain ⟨rfl, -⟩ | ⟨hd, hd', rfl, hdivisor⟩ :=
            value_eq_iff.mp (eq_finite_iff.mp hy)
          · simp [isZero] at hne
          obtain ⟨rfl, rfl⟩ | ⟨hc, hc', rfl, hdividend⟩ :=
            value_eq_iff.mp (eq_finite_iff.mp hx)
          · exact eq_of_isZero (isZero_div rfl h rfl) (isZero_div rfl h' rfl)
          · simp only [div, isSignaling, Bool.or_self, Bool.false_eq_true,
              if_false] at h h'
            have hround := roundsTo_divFinite (n != m) hc hd e k
            have hround' := roundsTo_divFinite (n != m) hc' hd' e' k'
            rw [h] at hround
            rw [h', ← hdividend, ← hdivisor] at hround'
            exact hround.eq hround'

/-! ## Exact values -/

def exact : Decimal → Option ℚ
  | finite negative coefficient exponent =>
      some (value negative coefficient exponent)
  | _ => none

theorem exact_eq_some {x : Decimal} {r : ℚ} (h : x.exact = some r) :
    ∃ n c e, x = finite n c e ∧ value n c e = r := by
  cases x with
  | finite n c e => exact ⟨n, c, e, rfl, Option.some.inj h⟩
  | infinity => simp [exact] at h
  | nan => simp [exact] at h

theorem compareNumbers_of_exact {x y : Decimal} {r s : ℚ}
    (hx : x.exact = some r) (hy : y.exact = some s) :
    x.compareNumbers y = compare r s := by
  obtain ⟨n, c, e, rfl, rfl⟩ := exact_eq_some hx
  obtain ⟨n', c', e', rfl, rfl⟩ := exact_eq_some hy
  exact compareNumbers_finite n n' c c' e e'

theorem ordered_of_exact {x y : Decimal} {r s : ℚ} (hx : x.exact = some r)
    (hy : y.exact = some s) (accepts : Ordering → Bool) :
    ordered accepts x y = .ok (accepts (compare r s)) := by
  rw [← compareNumbers_of_exact hx hy]
  obtain ⟨n, c, e, rfl, -⟩ := exact_eq_some hx
  obtain ⟨n', c', e', rfl, -⟩ := exact_eq_some hy
  rfl

theorem div_of_exact {x y : Decimal} {r s : ℚ} (hx : x.exact = some r)
    (hy : y.exact = some s) (hr : 0 < r) (hs : 0 < s)
    (hsmall : Int.log 10 (r / s) < maxAdjusted) :
    ∃ z, x.div y = .ok z ∧ z.exact = some (rounded (r / s)) := by
  have hsign : ∀ {n : Bool} {c : Nat} {e : ℤ}, 0 < value n c e →
      n = false ∧ 0 < c ∧ value n c e = c * 10 ^ e := by
    intro n c e hpos
    have hten : (0 : ℚ) < 10 ^ e := by positivity
    cases n with
    | true =>
        have : value true c e ≤ 0 := by
          simp only [value, if_true, neg_mul, neg_nonpos]
          positivity
        linarith
    | false =>
        refine ⟨rfl, Nat.pos_of_ne_zero fun hc => ?_, by simp [value]⟩
        simp [value, hc] at hpos
  obtain ⟨n, c, e, rfl, rfl⟩ := exact_eq_some hx
  obtain ⟨n', c', e', rfl, rfl⟩ := exact_eq_some hy
  obtain ⟨rfl, hc, hvalue⟩ := hsign hr
  obtain ⟨rfl, hc', hvalue'⟩ := hsign hs
  have hround := roundsTo_divFinite (false != false) hc hc' e e'
  have hdiv : (finite false c e).div (finite false c' e') =
      divFinite (false != false) c e c' e' := rfl
  rw [hdiv]
  rw [hvalue, hvalue'] at hsmall ⊢
  generalize divFinite (false != false) c e c' e' = result at hround
  cases hround with
  | overflow h => omega
  | value k m h => exact ⟨_, rfl, by simp [exact, value, h]⟩

end RealEstateTracker.Foundation.Decimal
