import Mathlib.Data.Int.Log
import Mathlib.Algebra.Order.Round
import Mathlib.Tactic

/-!
# Rounding half to even

A number lies at most half a unit from its rounding.  Whatever lies between the
same two multiples of a half rounds alike, so a quotient may be replaced by its
integer part and one digit that says on which side of it the quotient lies.
-/

namespace RealEstateTracker.Foundation

variable {K : Type*} [Field K] [LinearOrder K] [IsStrictOrderedRing K]
  [FloorRing K]

/-- The nearest integer, the even one if there are two. -/
def halfEven (x : K) : ℤ :=
  if 1 < 2 * Int.fract x ∨ (2 * Int.fract x = 1 ∧ ⌊x⌋ % 2 = 1) then ⌊x⌋ + 1
  else ⌊x⌋

theorem halfEven_intCast (n : ℤ) : halfEven (n : K) = n := by
  simp [halfEven]

theorem abs_sub_halfEven_le (x : K) : |x - halfEven x| ≤ 1 / 2 := by
  have hsplit : (⌊x⌋ : K) + Int.fract x = x := Int.floor_add_fract x
  have hnonneg := Int.fract_nonneg x
  have hlt := Int.fract_lt_one x
  unfold halfEven
  split
  · next h =>
    have hhalf : 1 ≤ 2 * Int.fract x := h.elim le_of_lt fun h => h.1.ge
    rw [abs_le]
    push_cast
    constructor <;> linarith
  · next h =>
    have hhalf : 2 * Int.fract x ≤ 1 := le_of_not_gt fun hgt => h (.inl hgt)
    rw [abs_le]
    constructor <;> linarith

/-- Between two multiples of a half there is nothing left to decide. -/
theorem halfEven_of_between {x : K} {m : ℤ} (hlow : (m : K) < 2 * x)
    (hhigh : 2 * x < m + 1) : halfEven x = (m + 1) / 2 := by
  obtain ⟨k, rfl | rfl⟩ := m.even_or_odd'
  · have hfloor : ⌊x⌋ = k := by
      rw [Int.floor_eq_iff]
      push_cast at hlow hhigh
      constructor <;> linarith
    have hfract : Int.fract x = x - k := by rw [Int.fract, hfloor]
    have hbelow : 2 * Int.fract x < 1 := by
      push_cast at hhigh
      rw [hfract]
      linarith
    rw [halfEven, if_neg, hfloor]
    · omega
    · rintro (h | h)
      · exact absurd h hbelow.not_gt
      · exact hbelow.ne h.1
  · have hfloor : ⌊x⌋ = k := by
      rw [Int.floor_eq_iff]
      push_cast at hlow hhigh
      constructor <;> linarith
    have hfract : Int.fract x = x - k := by rw [Int.fract, hfloor]
    have habove : 1 < 2 * Int.fract x := by
      push_cast at hlow
      rw [hfract]
      linarith
    rw [halfEven, if_pos (.inl habove), hfloor]
    omega

theorem halfEven_congr {x y : K} {m : ℤ} (hx : (m : K) < 2 * x)
    (hx' : 2 * x < m + 1) (hy : (m : K) < 2 * y) (hy' : 2 * y < m + 1) :
    halfEven x = halfEven y := by
  rw [halfEven_of_between hx hx', halfEven_of_between hy hy']

theorem halfEven_natCast_div (n : ℕ) {d : ℕ} (hd : 0 < d) :
    halfEven ((n : K) / d) =
      if d < 2 * (n % d) ∨ (2 * (n % d) = d ∧ n / d % 2 = 1) then
        ((n / d + 1 : ℕ) : ℤ)
      else ((n / d : ℕ) : ℤ) := by
  have hpos : (0 : K) < d := by exact_mod_cast hd
  have hrest : (n : K) = d * (n / d : ℕ) + (n % d : ℕ) := by
    exact_mod_cast (Nat.div_add_mod n d).symm
  have hfloor : ⌊(n : K) / d⌋ = ((n / d : ℕ) : ℤ) := by
    have hmod : ((n % d : ℕ) : K) < d := by exact_mod_cast Nat.mod_lt n hd
    have hmod' : (0 : K) ≤ (n % d : ℕ) := Nat.cast_nonneg _
    rw [Int.floor_eq_iff, Int.cast_natCast, le_div_iff₀ hpos, div_lt_iff₀ hpos]
    constructor <;> linarith
  have hfract : 2 * Int.fract ((n : K) / d) = (2 * (n % d) : ℕ) / d := by
    rw [Int.fract, hfloor, Int.cast_natCast, eq_div_iff hpos.ne', mul_assoc,
      sub_mul, div_mul_cancel₀ _ hpos.ne', Nat.cast_mul, Nat.cast_two]
    linarith
  have hlt : 1 < 2 * Int.fract ((n : K) / d) ↔ d < 2 * (n % d) := by
    rw [hfract, one_lt_div hpos, Nat.cast_lt]
  have heq : 2 * Int.fract ((n : K) / d) = 1 ↔ 2 * (n % d) = d := by
    rw [hfract, div_eq_one_iff_eq hpos.ne', Nat.cast_inj]
  have hodd : ((n / d : ℕ) : ℤ) % 2 = 1 ↔ n / d % 2 = 1 := by omega
  rw [halfEven, hfloor]
  simp only [hlt, heq, hodd]
  push_cast
  rfl

/--
A quotient that is not an integer rounds to a unit `2 * half` as its integer part
does after a change that keeps it between the same two halves.
-/
theorem halfEven_div_of_sticky {x : K} {n n' half : ℕ} (hhalf : 0 < half)
    (hlow : (n : K) < x) (hhigh : x < n + 1) (hdiv : n' / half = n / half)
    (hmod : n' % half ≠ 0) :
    halfEven (x / (2 * half : ℕ)) = halfEven ((n' : K) / (2 * half : ℕ)) := by
  have hpos : (0 : K) < half := by exact_mod_cast hhalf
  have hdouble : ∀ y : K, 2 * (y / (2 * half : ℕ)) = y / half := by
    intro y
    push_cast
    field_simp
  have hbelow : half * (n / half) ≤ n := Nat.mul_div_le n half
  have habove : n + 1 ≤ half * (n / half + 1) := Nat.lt_mul_div_succ n hhalf
  have hbelow' : half * (n / half) < n' := by
    have := Nat.div_add_mod n' half
    rw [hdiv] at this
    omega
  have habove' : n' < half * (n / half + 1) := by
    rw [← hdiv]
    exact Nat.lt_mul_div_succ n' hhalf
  generalize n / half = halves at hbelow habove hbelow' habove'
  have hbelow : (half : K) * halves ≤ n := by exact_mod_cast hbelow
  have habove : (n : K) + 1 ≤ half * (halves + 1) := by exact_mod_cast habove
  have hbelow' : (half : K) * halves < n' := by exact_mod_cast hbelow'
  have habove' : (n' : K) < half * (halves + 1) := by exact_mod_cast habove'
  apply halfEven_congr (m := halves) <;> rw [hdouble, Int.cast_natCast]
  · rw [lt_div_iff₀ hpos]
    linarith
  · rw [div_lt_iff₀ hpos]
    linarith
  · rw [lt_div_iff₀ hpos]
    linarith
  · rw [div_lt_iff₀ hpos]
    linarith

/-- A rounding error cannot cross a threshold that is a whole error away. -/
theorem compare_of_separated {x y t error : K}
    (hclose : |x - y| ≤ error / 2) (hexact : x = t → y = x)
    (hgap : x ≠ t → error ≤ |x - t|) : compare y t = compare x t := by
  obtain ⟨hlow, hhigh⟩ := abs_le.mp hclose
  rcases lt_trichotomy x t with hlt | rfl | hgt
  · have habs := hgap hlt.ne
    rw [abs_of_neg (sub_neg.mpr hlt)] at habs
    rw [compare_lt_iff_lt.mpr hlt, compare_lt_iff_lt]
    linarith
  · rw [hexact rfl]
  · have habs := hgap hgt.ne'
    rw [abs_of_pos (sub_pos.mpr hgt)] at habs
    rw [compare_gt_iff_gt.mpr hgt, compare_gt_iff_gt]
    linarith

end RealEstateTracker.Foundation
