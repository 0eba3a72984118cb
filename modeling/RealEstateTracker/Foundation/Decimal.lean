import RealEstateTracker.Foundation.Text

/-!
# Decimal numbers

Python's `Decimal`: sign, coefficient and exponent, infinities and NaNs.
Construction from text and comparison are exact; division rounds in the default
context (28 digits, half even, exponents within ±999999) and signals what that
context traps.
-/

namespace RealEstateTracker.Foundation

inductive Decimal where
  | finite (negative : Bool) (coefficient : Nat) (exponent : Int)
  | infinity (negative : Bool)
  | nan (negative signaling : Bool) (payload : Nat)
  deriving DecidableEq, Repr

/-- The signals that the default context turns into exceptions. -/
inductive DecimalSignal where
  | invalidOperation
  | divisionByZero
  | overflow
  deriving DecidableEq, Repr

namespace Decimal

def digitCount (coefficient : Nat) : Nat := (Text.ofNat coefficient).length

def isNaN : Decimal → Bool
  | nan _ _ _ => true
  | _ => false

def isSignaling : Decimal → Bool
  | nan _ signaling _ => signaling
  | _ => false

def isZero : Decimal → Bool
  | finite _ coefficient _ => coefficient == 0
  | _ => false

/-! ## Comparison -/

/-- The value of a finite number in units of `10 ^ base`. -/
def scaled (negative : Bool) (coefficient : Nat) (exponent base : Int) : Int :=
  let magnitude : Int := coefficient * 10 ^ (exponent - base).toNat
  if negative then -magnitude else magnitude

def compareNumbers : Decimal → Decimal → Ordering
  | finite n c e, finite n' c' e' =>
      compare (scaled n c e (min e e')) (scaled n' c' e' (min e e'))
  | infinity n, infinity n' => compare n' n
  | infinity n, _ => if n then .lt else .gt
  | _, infinity n => if n then .gt else .lt
  | _, _ => .eq

/-- `x == y`; only a signaling NaN raises. -/
def eq (x y : Decimal) : Except DecimalSignal Bool :=
  if x.isSignaling || y.isSignaling then .error .invalidOperation
  else if x.isNaN || y.isNaN then .ok false
  else .ok (x.compareNumbers y == .eq)

/-- An ordering comparison; every NaN raises. -/
def ordered (accepts : Ordering → Bool) (x y : Decimal) :
    Except DecimalSignal Bool :=
  if x.isNaN || y.isNaN then .error .invalidOperation
  else .ok (accepts (x.compareNumbers y))

def lt : Decimal → Decimal → Except DecimalSignal Bool := ordered (· == .lt)

def le : Decimal → Decimal → Except DecimalSignal Bool := ordered (· != .gt)

def ge : Decimal → Decimal → Except DecimalSignal Bool := ordered (· != .lt)

theorem swap_compareNumbers (x y : Decimal) :
    (x.compareNumbers y).swap = y.compareNumbers x := by
  cases x with
  | finite n c e =>
      cases y with
      | finite n' c' e' => simp [compareNumbers, Int.compare_swap, min_comm]
      | infinity n' => cases n' <;> rfl
      | nan => rfl
  | infinity n =>
      cases y with
      | finite => cases n <;> rfl
      | infinity n' => cases n <;> cases n' <;> rfl
      | nan => cases n <;> rfl
  | nan =>
      cases y with
      | finite => rfl
      | infinity n' => cases n' <;> rfl
      | nan => rfl

theorem ge_eq_le (x y : Decimal) : x.ge y = y.le x := by
  simp only [ge, le, ordered, ← swap_compareNumbers y x, Bool.or_comm x.isNaN]
  cases y.compareNumbers x <;> rfl

def value (negative : Bool) (coefficient : Nat) (exponent : Int) : ℚ :=
  (if negative then -(coefficient : ℚ) else coefficient) * 10 ^ exponent

theorem value_eq_scaled (negative : Bool) (coefficient : Nat)
    {exponent base : Int} (h : base ≤ exponent) :
    value negative coefficient exponent =
      scaled negative coefficient exponent base * 10 ^ base := by
  have hpow : (10 : ℚ) ^ exponent =
      10 ^ (exponent - base).toNat * 10 ^ base := by
    rw [← zpow_natCast, ← zpow_add₀ (by norm_num)]
    congr 1
    omega
  unfold value scaled
  rw [hpow]
  cases negative with
  | true =>
      simp only [if_true]
      push_cast
      ring
  | false =>
      simp only [Bool.false_eq_true, if_false]
      push_cast
      ring

theorem compareNumbers_finite (n n' : Bool) (c c' : Nat) (e e' : Int) :
    (finite n c e).compareNumbers (finite n' c' e') =
      compare (value n c e) (value n' c' e') := by
  have hpos : (0 : ℚ) < 10 ^ min e e' := by positivity
  rw [compareNumbers, value_eq_scaled n c (min_le_left e e'),
    value_eq_scaled n' c' (min_le_right e e')]
  simp only [compare, compareOfLessAndEq, Int.cast_lt, Int.cast_inj,
    mul_lt_mul_iff_left₀ hpos, mul_left_inj' hpos.ne']

theorem compareNumbers_congr {x y : Decimal} (hx : x.isNaN = false)
    (hy : y.isNaN = false) (h : x.compareNumbers y = .eq) (z : Decimal) :
    z.compareNumbers x = z.compareNumbers y := by
  cases x with
  | nan => simp [isNaN] at hx
  | infinity n =>
      cases y with
      | nan => simp [isNaN] at hy
      | finite => cases n <;> simp [compareNumbers] at h
      | infinity n' =>
          obtain rfl : n = n' := by
            revert h
            cases n <;> cases n' <;> simp [compareNumbers, compare]
          rfl
  | finite n c e =>
      cases y with
      | nan => simp [isNaN] at hy
      | infinity n' => cases n' <;> simp [compareNumbers] at h
      | finite n' c' e' =>
          rw [compareNumbers_finite, compare_eq_iff_eq] at h
          cases z with
          | finite => rw [compareNumbers_finite, compareNumbers_finite, h]
          | infinity m => rfl
          | nan => rfl

def ofInt (n : Int) : Decimal := finite (decide (n < 0)) n.natAbs 0

theorem isNaN_ofInt (n : Int) : (ofInt n).isNaN = false := rfl

theorem isSignaling_eq_false_of_isNaN {x : Decimal} (h : x.isNaN = false) :
    x.isSignaling = false := by
  cases x with
  | nan negative signaling payload => simp [isNaN] at h
  | _ => rfl

theorem eq_iff {x y : Decimal} : x.eq y = .ok true ↔
    x.isNaN = false ∧ y.isNaN = false ∧ x.compareNumbers y = .eq := by
  unfold eq
  cases hx : x.isNaN with
  | true => split <;> simp
  | false =>
      cases hy : y.isNaN with
      | true => split <;> simp
      | false =>
          simp [isSignaling_eq_false_of_isNaN hx, isSignaling_eq_false_of_isNaN hy]

theorem eq_self {x : Decimal} (h : x.isNaN = false) : x.eq x = .ok true := by
  refine eq_iff.mpr ⟨h, h, ?_⟩
  cases x with
  | finite => simp [compareNumbers]
  | infinity n => simp [compareNumbers]
  | nan => simp [isNaN] at h

theorem eq_symm {x y : Decimal} (h : x.eq y = .ok true) : y.eq x = .ok true := by
  obtain ⟨hx, hy, hcompare⟩ := eq_iff.mp h
  refine eq_iff.mpr ⟨hy, hx, ?_⟩
  rw [← swap_compareNumbers, hcompare]
  rfl

theorem eq_trans {x y z : Decimal} (h : x.eq y = .ok true)
    (h' : y.eq z = .ok true) : x.eq z = .ok true := by
  obtain ⟨hx, hy, hfirst⟩ := eq_iff.mp h
  obtain ⟨-, hz, hsecond⟩ := eq_iff.mp h'
  refine eq_iff.mpr ⟨hx, hz, ?_⟩
  rw [← compareNumbers_congr hy hz hsecond, hfirst]

theorem ordered_congr_right {x y : Decimal} (h : x.eq y = .ok true)
    (accepts : Ordering → Bool) (z : Decimal) :
    ordered accepts z x = ordered accepts z y := by
  obtain ⟨hx, hy, hcompare⟩ := eq_iff.mp h
  rw [ordered, ordered, hx, hy, compareNumbers_congr hx hy hcompare]

theorem ordered_congr_left {x y : Decimal} (h : x.eq y = .ok true)
    (accepts : Ordering → Bool) (z : Decimal) :
    ordered accepts x z = ordered accepts y z := by
  obtain ⟨hx, hy, hcompare⟩ := eq_iff.mp h
  rw [ordered, ordered, hx, hy, ← swap_compareNumbers z x,
    ← swap_compareNumbers z y, compareNumbers_congr hx hy hcompare]

theorem eq_congr_left {x y : Decimal} (h : x.eq y = .ok true) (z : Decimal) :
    x.eq z = y.eq z := by
  obtain ⟨hx, hy, hcompare⟩ := eq_iff.mp h
  rw [eq, eq, isSignaling_eq_false_of_isNaN hx, isSignaling_eq_false_of_isNaN hy,
    hx, hy, ← swap_compareNumbers z x, ← swap_compareNumbers z y,
    compareNumbers_congr hx hy hcompare]

theorem exists_eq_iff {x y : Decimal} (hx : x.isNaN = false) :
    (∃ signal, x.eq y = .error signal) ↔ y.isSignaling = true := by
  unfold eq
  rw [isSignaling_eq_false_of_isNaN hx, Bool.false_or]
  cases hy : y.isSignaling with
  | true => simp
  | false =>
      simp only [Bool.false_eq_true, if_false, iff_false, not_exists]
      intro signal
      split <;> simp

theorem exists_ordered_iff (accepts : Ordering → Bool) {x y : Decimal} :
    (∃ signal, ordered accepts x y = .error signal) ↔
      x.isNaN = true ∨ y.isNaN = true := by
  unfold ordered
  split
  · next h => simpa using h
  · next h => simpa using h

/-! ## Division -/

def precision : Nat := 28

def maxAdjusted : Int := 999999

def minAdjusted : Int := -999999

/-- The least exponent of a subnormal result. -/
def tiny : Int := minAdjusted - precision + 1

/-- The largest exponent of a result with all its digits. -/
def top : Int := maxAdjusted - precision + 1

/-- `n / 10 ^ k`, rounded half even. -/
def dropDigits (n k : Nat) : Nat :=
  let unit := 10 ^ k
  let rest := n % unit
  if unit < 2 * rest ∨ (2 * rest = unit ∧ n / unit % 2 = 1) then n / unit + 1
  else n / unit

/-- `Decimal._fix` for a finite result. -/
def fix (negative : Bool) (coefficient : Nat) (exponent : Int) :
    Except DecimalSignal Decimal :=
  if coefficient = 0 then
    .ok (finite negative 0 (min (max exponent tiny) maxAdjusted))
  else
    let least : Int := digitCount coefficient + exponent - precision
    if top < least then .error .overflow
    else
      let least := max least tiny
      if exponent < least then
        let rounded := dropDigits coefficient (least - exponent).toNat
        let (rounded, least) : Nat × Int :=
          if precision < digitCount rounded then (rounded / 10, least + 1)
          else (rounded, least)
        if top < least then .error .overflow
        else .ok (finite negative rounded least)
      else .ok (finite negative coefficient exponent)

/-- Strip zeros of an exact quotient while its exponent is below the ideal one. -/
def towardIdeal : Nat → Nat → Int → Int → Nat × Int
  | 0, coefficient, exponent, _ => (coefficient, exponent)
  | fuel + 1, coefficient, exponent, ideal =>
      if exponent < ideal ∧ coefficient % 10 = 0 then
        towardIdeal fuel (coefficient / 10) (exponent + 1) ideal
      else (coefficient, exponent)

def divFinite (negative : Bool) (c : Nat) (e : Int) (c' : Nat) (e' : Int) :
    Except DecimalSignal Decimal :=
  if c' = 0 then
    .error (if c = 0 then .invalidOperation else .divisionByZero)
  else if c = 0 then fix negative 0 (e - e')
  else
    let shift : Int := digitCount c' - digitCount c + precision + 1
    let dividend := c * 10 ^ shift.toNat
    let divisor := c' * 10 ^ (-shift).toNat
    let quotient := dividend / divisor
    let exponent := e - e' - shift
    if dividend % divisor ≠ 0 then
      -- a digit that no rounding mistakes for an exact half
      fix negative (if quotient % 5 = 0 then quotient + 1 else quotient) exponent
    else
      let (coefficient, exponent) :=
        towardIdeal (digitCount quotient) quotient exponent (e - e')
      fix negative coefficient exponent

/-- `x / y` in the default context. -/
def div (x y : Decimal) : Except DecimalSignal Decimal :=
  if x.isSignaling || y.isSignaling then .error .invalidOperation
  else
    match x, y with
    | nan n s payload, _ => .ok (nan n s (payload % 10 ^ precision))
    | _, nan n s payload => .ok (nan n s (payload % 10 ^ precision))
    | infinity _, infinity _ => .error .invalidOperation
    | infinity n, finite n' _ _ => .ok (infinity (n != n'))
    | finite n _ _, infinity n' => .ok (finite (n != n') 0 tiny)
    | finite n c e, finite n' c' e' => divFinite (n != n') c e c' e'

theorem fix_zero (negative : Bool) (exponent : Int) :
    fix negative 0 exponent =
      .ok (finite negative 0 (min (max exponent tiny) maxAdjusted)) := rfl

theorem isZero_div {x y q : Decimal} (hx : x.isZero = true)
    (h : div x y = .ok q) (hy : y.isNaN = false) : q.isZero = true := by
  obtain ⟨n, e, rfl⟩ : ∃ n e, x = finite n 0 e := by
    cases x with
    | finite n c e => exact ⟨n, e, by simpa [isZero] using hx⟩
    | infinity n => simp [isZero] at hx
    | nan n s payload => simp [isZero] at hx
  cases y with
  | nan n s payload => simp [isNaN] at hy
  | infinity n' =>
      simp only [div, isSignaling, Bool.or_self, Bool.false_eq_true, if_false,
        Except.ok.injEq] at h
      rw [← h]
      rfl
  | finite n' c' e' =>
      simp only [div, isSignaling, Bool.or_self, Bool.false_eq_true, if_false,
        divFinite] at h
      split at h
      · simp at h
      · rw [if_pos trivial, fix_zero, Except.ok.injEq] at h
        rw [← h]
        rfl

/-! ## Text -/

def maxExponent : Int := 999999999999999999

def minExponent : Int := -1999999999999999997

/-- The numbers that `Decimal(text)` can hold. -/
def InRange : Decimal → Prop
  | finite _ 0 exponent => minExponent ≤ exponent ∧ exponent ≤ maxExponent
  | finite _ coefficient exponent =>
      minExponent ≤ exponent ∧
        exponent + digitCount coefficient - 1 ≤ maxExponent
  | _ => True

instance : DecidablePred InRange := fun d => by
  unfold InRange
  split <;> infer_instance

def asciiLower (c : Char) : Char :=
  if 'A' ≤ c ∧ c ≤ 'Z' then Char.ofNat (c.toNat + 32) else c

/-- An optional sign and what follows it. -/
def splitSign : Text → Bool × Text
  | '-' :: rest => (true, rest)
  | '+' :: rest => (false, rest)
  | t => (false, t)

/-- The exponent part of a number: nothing, or `E` with an optional sign and digits. -/
def exponentOf : Text → Option Int
  | [] => some 0
  | c :: rest =>
      if c = 'e' ∨ c = 'E' then
        let (negative, digits) := splitSign rest
        if digits ≠ [] ∧ digits.all Text.isDigit then
          let value : Int := Text.digitsValue digits
          some (if negative then -value else value)
        else none
      else none

/-- The digits after an optional point, and what follows them. -/
def fractionOf : Text → Text × Text
  | '.' :: rest => (rest.takeWhile Text.isDigit, rest.dropWhile Text.isDigit)
  | rest => ([], rest)

def numberOf (negative : Bool) (t : Text) : Option Decimal :=
  let whole := t.takeWhile Text.isDigit
  let (fraction, rest) := fractionOf (t.dropWhile Text.isDigit)
  if whole ++ fraction = [] then none
  else
    match exponentOf rest with
    | none => none
    | some exponent =>
        let d := finite negative (Text.digitsValue (whole ++ fraction))
          (exponent - fraction.length)
        if d.InRange then some d else none

def nanOf (negative signaling : Bool) (payload : Text) : Option Decimal :=
  if payload.all Text.isDigit then
    some (nan negative signaling (Text.digitsValue payload))
  else none

/-- `Decimal(t)`; `none` stands for `InvalidOperation`. -/
def ofText (t : Text) : Option Decimal :=
  let (negative, body) := splitSign ((Text.strip t).filter (· != '_'))
  let folded := body.map asciiLower
  if folded = "inf".toList ∨ folded = "infinity".toList then
    some (infinity negative)
  else if folded.take 3 = "nan".toList then nanOf negative false (body.drop 3)
  else if folded.take 4 = "snan".toList then nanOf negative true (body.drop 4)
  else numberOf negative body

theorem inRange_of_nanOf {negative signaling : Bool} {payload : Text}
    {d : Decimal} (h : nanOf negative signaling payload = some d) :
    d.InRange := by
  unfold nanOf at h
  split at h
  · obtain rfl := Option.some.inj h
    trivial
  · simp at h

theorem inRange_of_ofText {t : Text} {d : Decimal} (h : ofText t = some d) :
    d.InRange := by
  unfold ofText at h
  dsimp only at h
  split at h
  · obtain rfl := Option.some.inj h
    trivial
  · split at h
    · exact inRange_of_nanOf h
    · split at h
      · exact inRange_of_nanOf h
      · unfold numberOf at h
        dsimp only at h
        split at h
        · simp at h
        · split at h
          · simp at h
          · split at h
            · next hrange =>
              obtain rfl := Option.some.inj h
              exact hrange
            · simp at h

theorem mem_of_mem_splitSign {t : Text} {c : Char}
    (h : c ∈ (splitSign t).2) : c ∈ t := by
  unfold splitSign at h
  split at h
  · exact .tail _ h
  · exact .tail _ h
  · exact h

theorem isNaN_of_ofText {t : Text} {d : Decimal} (h : ofText t = some d)
    (ht : ∀ c ∈ t, asciiLower c ≠ 'n') : d.isNaN = false := by
  have hbody : 'n' ∉
      ((splitSign ((Text.strip t).filter (· != '_'))).2).map asciiLower := by
    intro hmem
    obtain ⟨c, hc, hn⟩ := List.mem_map.mp hmem
    exact ht c (Text.mem_of_mem_strip
      (List.mem_of_mem_filter (mem_of_mem_splitSign hc))) hn
  unfold ofText at h
  dsimp only at h
  split at h
  · obtain rfl := Option.some.inj h
    rfl
  · split at h
    · next hnan =>
      exact absurd (List.mem_of_mem_take (by rw [hnan]; decide)) hbody
    · split at h
      · next hnan =>
        exact absurd (List.mem_of_mem_take (by rw [hnan]; decide)) hbody
      · unfold numberOf at h
        dsimp only at h
        split at h
        · simp at h
        · split at h
          · simp at h
          · split at h
            · obtain rfl := Option.some.inj h
              rfl
            · simp at h

def payloadText (payload : Nat) : Text :=
  if payload = 0 then [] else Text.ofNat payload

/-- The digits of a coefficient with a point after the first `place` of them. -/
def pointed (digits : Text) (place : Int) : Text :=
  if place ≤ 0 then
    '0' :: '.' :: (List.replicate (-place).toNat '0' ++ digits)
  else if digits.length ≤ place then
    digits ++ List.replicate (place - digits.length).toNat '0'
  else digits.take place.toNat ++ '.' :: digits.drop place.toNat

/-- The exponent suffix `%+d`, absent for zero. -/
def exponentText (exponent : Int) : Text :=
  if exponent = 0 then []
  else if exponent < 0 then 'E' :: '-' :: Text.ofNat exponent.natAbs
  else 'E' :: '+' :: Text.ofNat exponent.natAbs

def signText (negative : Bool) : Text := if negative then ['-'] else []

/-- `str(d)`. -/
def toText : Decimal → Text
  | finite negative coefficient exponent =>
      let digits := Text.ofNat coefficient
      let left : Int := exponent + digits.length
      let place : Int := if exponent ≤ 0 ∧ -6 < left then left else 1
      signText negative ++ pointed digits place ++ exponentText (left - place)
  | infinity negative => signText negative ++ "Infinity".toList
  | nan negative signaling payload =>
      signText negative ++ (if signaling then "sNaN" else "NaN").toList ++
        payloadText payload

/-! ## Reading back what `str` prints -/

def isTextChar (c : Char) : Bool :=
  !Text.isSpace c && c != '_'

def numberChars : Text := "0123456789.-+EInfityNas".toList

theorem mem_numberChars_of_mem_ofNat {n : Nat} {c : Char}
    (h : c ∈ Text.ofNat n) : c ∈ numberChars := by
  obtain ⟨d, hd, rfl⟩ := Text.exists_digitChar_of_mem_ofNat h
  interval_cases d <;> decide

theorem mem_numberChars_of_mem_exponentText {exponent : Int} {c : Char}
    (h : c ∈ exponentText exponent) : c ∈ numberChars := by
  unfold exponentText at h
  split at h
  · simp at h
  · split at h <;>
    · simp only [List.mem_cons] at h
      obtain rfl | rfl | h := h
      · decide
      · decide
      · exact mem_numberChars_of_mem_ofNat h

theorem mem_pointed {digits : Text} {place : Int} {c : Char}
    (h : c ∈ pointed digits place) : c = '0' ∨ c = '.' ∨ c ∈ digits := by
  unfold pointed at h
  split at h
  · simp only [List.mem_cons, List.mem_append, List.mem_replicate] at h
    tauto
  · split at h
    · simp only [List.mem_append, List.mem_replicate] at h
      tauto
    · simp only [List.mem_append, List.mem_cons] at h
      obtain h | h | h := h
      · exact .inr (.inr (List.mem_of_mem_take h))
      · exact .inr (.inl h)
      · exact .inr (.inr (List.mem_of_mem_drop h))

theorem mem_numberChars_of_mem_toText {d : Decimal} {c : Char}
    (h : c ∈ d.toText) : c ∈ numberChars := by
  have hsign : ∀ negative, c ∈ signText negative → c ∈ numberChars := by
    intro negative hc
    cases negative with
    | false => simp [signText] at hc
    | true =>
        simp only [signText, if_true, List.mem_singleton] at hc
        subst hc
        decide
  cases d with
  | finite negative coefficient exponent =>
      simp only [toText, List.mem_append] at h
      obtain (h | h) | h := h
      · exact hsign negative h
      · obtain rfl | rfl | h := mem_pointed h
        · decide
        · decide
        · exact mem_numberChars_of_mem_ofNat h
      · exact mem_numberChars_of_mem_exponentText h
  | infinity negative =>
      simp only [toText, List.mem_append] at h
      obtain h | h := h
      · exact hsign negative h
      · exact (by decide : "Infinity".toList ⊆ numberChars) h
  | nan negative signaling payload =>
      simp only [toText, List.mem_append] at h
      obtain (h | h) | h := h
      · exact hsign negative h
      · cases signaling with
        | false => exact (by decide : "NaN".toList ⊆ numberChars) h
        | true => exact (by decide : "sNaN".toList ⊆ numberChars) h
      · unfold payloadText at h
        split at h
        · simp at h
        · exact mem_numberChars_of_mem_ofNat h

theorem isTextChar_of_mem_toText {d : Decimal} {c : Char}
    (h : c ∈ d.toText) : isTextChar c = true :=
  List.all_eq_true.mp (by decide : numberChars.all isTextChar) c
    (mem_numberChars_of_mem_toText h)

theorem clean_toText (d : Decimal) :
    (Text.strip d.toText).filter (· != '_') = d.toText := by
  have h : ∀ c ∈ d.toText, Text.isSpace c = false ∧ (c != '_') = true := by
    intro c hc
    simpa [isTextChar] using isTextChar_of_mem_toText hc
  rw [Text.strip_eq_self fun c hc => (h c hc).1, List.filter_eq_self]
  exact fun c hc => (h c hc).2

theorem splitSign_signText {negative : Bool} {body : Text}
    (h : ∀ c ∈ body.head?, c ≠ '-' ∧ c ≠ '+') :
    splitSign (signText negative ++ body) = (negative, body) := by
  cases negative with
  | true => rfl
  | false =>
      cases body with
      | nil => rfl
      | cons c body =>
          obtain ⟨hminus, hplus⟩ := h c rfl
          simp only [signText, Bool.false_eq_true, if_false, List.nil_append]
          unfold splitSign
          split
          · rename_i heq; simp_all
          · rename_i heq; simp_all
          · rfl

theorem exponentOf_exponentText (exponent : Int) :
    exponentOf (exponentText exponent) = some exponent := by
  have hall : ∀ n, (Text.ofNat n).all Text.isDigit = true := fun n =>
    List.all_eq_true.mpr fun c hc => Text.isDigit_of_mem_ofNat hc
  unfold exponentText
  split
  · next h => rw [h]; rfl
  · split
    · next h =>
      simp only [exponentOf, splitSign, Text.ofNat_ne_nil, hall, ne_eq,
        not_false_eq_true, and_self, or_true, if_true, Text.digitsValue_ofNat]
      congr 1
      omega
    · next h0 h =>
      simp only [exponentOf, splitSign, Text.ofNat_ne_nil, hall, ne_eq,
        not_false_eq_true, and_self, or_true, if_true, Text.digitsValue_ofNat,
        Bool.false_eq_true, if_false]
      congr 1
      omega

theorem head?_exponentText {exponent : Int} {c : Char}
    (h : c ∈ (exponentText exponent).head?) : c = 'E' := by
  unfold exponentText at h
  split at h
  · simp at h
  · split at h <;> simpa [eq_comm] using h

/-- A number written as digits, an optional fraction and an exponent. -/
def written (whole fraction : Text) (exponent : Int) : Text :=
  whole ++ (if fraction = [] then [] else '.' :: fraction) ++
    exponentText exponent

theorem numberOf_written {negative : Bool} {whole fraction : Text}
    {exponent : Int} (hne : whole ≠ [])
    (hwhole : ∀ c ∈ whole, Text.isDigit c = true)
    (hfraction : ∀ c ∈ fraction, Text.isDigit c = true)
    (hrange : (finite negative (Text.digitsValue (whole ++ fraction))
      (exponent - fraction.length)).InRange) :
    numberOf negative (written whole fraction exponent) =
      some (finite negative (Text.digitsValue (whole ++ fraction))
        (exponent - fraction.length)) := by
  have hE : Text.isDigit 'E' = false := by decide
  have hpoint : Text.isDigit '.' = false := by decide
  have htail : ∀ c ∈ (exponentText exponent).head?, Text.isDigit c = false :=
    fun c hc => by rw [head?_exponentText hc, hE]
  have hnotPoint : ∀ c ∈ (exponentText exponent).head?, c ≠ '.' :=
    fun c hc => by rw [head?_exponentText hc]; decide
  have hhead : ∀ c ∈ ((if fraction = [] then [] else '.' :: fraction) ++
      exponentText exponent).head?, Text.isDigit c = false := by
    intro c hc
    split at hc
    · exact htail c hc
    · simp only [List.cons_append, List.head?_cons, Option.mem_def,
        Option.some.injEq] at hc
      rw [← hc, hpoint]
  have hsplit : fractionOf ((if fraction = [] then [] else '.' :: fraction) ++
      exponentText exponent) = (fraction, exponentText exponent) := by
    split
    · next h =>
      rw [h, List.nil_append]
      generalize exponentText exponent = tail at hnotPoint
      unfold fractionOf
      split
      · exact absurd rfl (hnotPoint _ rfl)
      · rfl
    · rw [List.cons_append, fractionOf,
        Text.takeWhile_isDigit_append hfraction htail,
        Text.dropWhile_isDigit_append hfraction htail]
  rw [written, List.append_assoc, numberOf,
    Text.takeWhile_isDigit_append hwhole hhead,
    Text.dropWhile_isDigit_append hwhole hhead, hsplit]
  simp only [List.append_eq_nil_iff, hne, false_and, if_false,
    exponentOf_exponentText, if_pos hrange]

theorem exists_written (coefficient : Nat) (exponent : Int) :
    ∃ whole fraction shown,
      pointed (Text.ofNat coefficient)
          (if exponent ≤ 0 ∧ -6 < exponent + (Text.ofNat coefficient).length
            then exponent + (Text.ofNat coefficient).length else 1) ++
        exponentText (exponent + (Text.ofNat coefficient).length -
          if exponent ≤ 0 ∧ -6 < exponent + (Text.ofNat coefficient).length
            then exponent + (Text.ofNat coefficient).length else 1) =
          written whole fraction shown ∧
      whole ≠ [] ∧ (∀ c ∈ whole, ∃ d < 10, c = Text.digitChar d) ∧
      (∀ c ∈ fraction, ∃ d < 10, c = Text.digitChar d) ∧
      Text.digitsValue (whole ++ fraction) = coefficient ∧
      shown - fraction.length = exponent := by
  generalize hdigits : Text.ofNat coefficient = digits
  have hall : ∀ c ∈ digits, ∃ d < 10, c = Text.digitChar d := fun c hc =>
    Text.exists_digitChar_of_mem_ofNat (hdigits ▸ hc)
  have hvalue : Text.digitsValue digits = coefficient :=
    hdigits ▸ Text.digitsValue_ofNat coefficient
  have hpos : 0 < digits.length :=
    List.length_pos_iff.mpr (hdigits ▸ Text.ofNat_ne_nil coefficient)
  have hzero : ∃ d < 10, '0' = Text.digitChar d := ⟨0, by decide, by decide⟩
  generalize hplace : (if exponent ≤ 0 ∧ -6 < exponent + (digits.length : Int)
    then exponent + (digits.length : Int) else 1) = place
  have hcases : (exponent ≤ 0 ∧ place = exponent + digits.length) ∨
      place = 1 := by
    split at hplace <;> omega
  unfold pointed
  split
  · -- only zeros before the point
    next h =>
    have he : place = exponent + digits.length := by omega
    refine ⟨['0'], List.replicate (-place).toNat '0' ++ digits,
      exponent + digits.length - place, ?_, by simp, by simpa using hzero,
      ?_, ?_, ?_⟩
    · simp [written, List.ne_nil_of_length_pos hpos]
    · simp only [List.mem_append, List.mem_replicate]
      rintro c (⟨-, rfl⟩ | hc)
      · exact hzero
      · exact hall c hc
    · rw [← List.append_assoc, ← List.replicate_one, List.append_assoc,
        Text.digitsValue_zeros_append, Text.digitsValue_zeros_append, hvalue]
    · simp only [List.length_append, List.length_replicate]
      omega
  · split
    · next h0 h =>
      have hlen : (place - (digits.length : Int)).toNat = 0 := by omega
      refine ⟨digits, [], exponent + digits.length - place, ?_,
        List.ne_nil_of_length_pos hpos, hall, by simp, by simpa, ?_⟩
      · simp [written, hlen]
      · simp only [List.length_nil]
        omega
    · next h0 h =>
      have hsplit : digits.take place.toNat ++ digits.drop place.toNat =
          digits := List.take_append_drop ..
      refine ⟨digits.take place.toNat, digits.drop place.toNat,
        exponent + digits.length - place, ?_, ?_,
        fun c hc => hall c (List.mem_of_mem_take hc),
        fun c hc => hall c (List.mem_of_mem_drop hc), by rw [hsplit, hvalue],
        ?_⟩
      · rw [written, if_neg]
        · simp
          omega
      · apply List.ne_nil_of_length_pos
        rw [List.length_take]
        omega
      · rw [List.length_drop]
        omega

theorem numberOf_toText {negative : Bool} {coefficient : Nat} {exponent : Int}
    (h : (finite negative coefficient exponent).InRange) :
    ∃ d rest, d < 10 ∧
      (finite negative coefficient exponent).toText =
        signText negative ++ Text.digitChar d :: rest ∧
      numberOf negative (Text.digitChar d :: rest) =
        some (finite negative coefficient exponent) := by
  obtain ⟨whole, fraction, shown, htext, hne, hwhole, hfraction, hvalue, hshown⟩ :=
    exists_written coefficient exponent
  have hdigit : ∀ t : Text, (∀ c ∈ t, ∃ d < 10, c = Text.digitChar d) →
      ∀ c ∈ t, Text.isDigit c = true := by
    intro t ht c hc
    obtain ⟨d, hd, rfl⟩ := ht c hc
    exact Text.isDigit_digitChar hd
  have hnumber : numberOf negative (written whole fraction shown) = _ :=
    numberOf_written hne (hdigit whole hwhole) (hdigit fraction hfraction)
      (by rwa [hvalue, hshown])
  rw [hvalue, hshown] at hnumber
  cases whole with
  | nil => exact absurd rfl hne
  | cons c whole =>
      obtain ⟨d, hd, rfl⟩ := hwhole c (.head whole)
      refine ⟨d, _, hd, ?_, hnumber⟩
      simp only [toText, List.append_assoc]
      rw [htext]
      rfl

/-- Every number that text can spell is read back from its own text. -/
theorem ofText_toText {d : Decimal} (h : d.InRange) :
    ofText d.toText = some d := by
  unfold ofText
  rw [clean_toText]
  cases d with
  | finite negative coefficient exponent =>
      obtain ⟨digit, rest, hdigit, htext, hnumber⟩ := numberOf_toText h
      rw [htext, splitSign_signText]
      · -- a number starts with a digit, hence is none of the special words
        have hlower : asciiLower (Text.digitChar digit) =
            Text.digitChar digit := by
          interval_cases digit <;> decide
        have hword : Text.digitChar digit ≠ 'i' ∧ Text.digitChar digit ≠ 'n' ∧
            Text.digitChar digit ≠ 's' := by
          interval_cases digit <;> decide
        simp [hlower, hword, hnumber]
      · intro c hc
        simp only [List.head?_cons, Option.mem_def, Option.some.injEq] at hc
        subst hc
        interval_cases digit <;> decide
  | infinity negative =>
      have hhead : ∀ c ∈ "Infinity".toList.head?, c ≠ '-' ∧ c ≠ '+' := by
        intro c hc
        obtain rfl : 'I' = c := Option.some.inj hc
        decide
      rw [toText, splitSign_signText hhead]
      cases negative <;> decide
  | nan negative signaling payload =>
      have hall : (payloadText payload).all Text.isDigit = true := by
        unfold payloadText
        split
        · rfl
        · exact List.all_eq_true.mpr fun c hc => Text.isDigit_of_mem_ofNat hc
      have hvalue : Text.digitsValue (payloadText payload) = payload := by
        unfold payloadText
        split
        · next h => rw [h]; rfl
        · exact Text.digitsValue_ofNat payload
      rw [toText, List.append_assoc, splitSign_signText]
      · cases signaling <;>
          simp [nanOf, hall, hvalue, asciiLower]
      · cases signaling <;> simp

end Decimal

end RealEstateTracker.Foundation
