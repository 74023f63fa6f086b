import Mathlib.Data.Int.Log
import Mathlib.Data.Rat.Floor
import Mathlib.Tactic

/-!
# Binary64 Arithmetic on Rationals

A double is modelled by its value, a rational number. An arithmetic operation
computes the exact rational result and rounds it to a 53-bit significand, ties
to even (IEEE 754 round-to-nearest). Exponents are unbounded: the amounts a
program computes with are far from overflow and from the subnormal range.
-/

namespace HootChain.Foundation.Binary64

open Int

/-! ## Rounding to integers -/

/-- The nearest integer, ties to even. -/
def roundHalfEven (q : ℚ) : ℤ :=
  if q - ⌊q⌋ < 1 / 2 then ⌊q⌋
  else if 1 / 2 < q - ⌊q⌋ then ⌊q⌋ + 1
  else if ⌊q⌋ % 2 = 0 then ⌊q⌋
  else ⌊q⌋ + 1

lemma roundHalfEven_intCast (n : ℤ) : roundHalfEven (n : ℚ) = n := by
  simp [roundHalfEven]

lemma abs_roundHalfEven_sub_le (q : ℚ) : |(roundHalfEven q : ℚ) - q| ≤ 1 / 2 := by
  have hlo := floor_le q
  have hhi := lt_floor_add_one q
  unfold roundHalfEven
  split_ifs <;> rw [abs_le] <;> push_cast <;> constructor <;> linarith

lemma floor_le_roundHalfEven (q : ℚ) : ⌊q⌋ ≤ roundHalfEven q := by
  unfold roundHalfEven
  split_ifs <;> omega

lemma roundHalfEven_le_floor_add_one (q : ℚ) : roundHalfEven q ≤ ⌊q⌋ + 1 := by
  unfold roundHalfEven
  split_ifs <;> omega

variable {q r x : ℚ} {n : ℤ}

lemma roundHalfEven_mono (h : q ≤ r) : roundHalfEven q ≤ roundHalfEven r := by
  rcases (floor_mono h).eq_or_lt with heq | hlt
  · -- between the same two integers the fractions decide
    unfold roundHalfEven
    rw [heq]
    split_ifs <;> first | omega | linarith
  · calc roundHalfEven q ≤ ⌊q⌋ + 1 := roundHalfEven_le_floor_add_one q
      _ ≤ ⌊r⌋ := hlt
      _ ≤ roundHalfEven r := floor_le_roundHalfEven r

lemma roundHalfEven_zero : roundHalfEven 0 = 0 := by simp [roundHalfEven]

lemma roundHalfEven_nonneg (h : 0 ≤ q) : 0 ≤ roundHalfEven q :=
  roundHalfEven_zero ▸ roundHalfEven_mono h

/-! ## Rounding to 53 bits -/

/-- The exponent of the last place of a 53-bit significand of `q`. -/
def ulpExponent (q : ℚ) : ℤ := log 2 |q| - 52

/-- `q` rounded to a 53-bit significand. -/
def fl (q : ℚ) : ℚ := (roundHalfEven (q / 2 ^ ulpExponent q) : ℚ) * 2 ^ ulpExponent q

lemma fl_zero : fl 0 = 0 := by simp [fl, roundHalfEven_zero]

lemma two_zpow_pos (e : ℤ) : (0 : ℚ) < 2 ^ e := zpow_pos (by norm_num) e

lemma zpow_ulpExponent_le (hq : q ≠ 0) : (2 : ℚ) ^ (ulpExponent q + 52) ≤ |q| := by
  have h := zpow_log_le_self (R := ℚ) (b := 2) (by norm_num) (abs_pos.mpr hq)
  simpa [ulpExponent] using h

/-- A value with a 53-bit significand is not changed by rounding. -/
lemma fl_eq_self {m e : ℤ} (hm : |m| < 2 ^ 53) (hq : q = m * 2 ^ e) : fl q = q := by
  by_cases h0 : q = 0
  · rw [h0, fl_zero]
  · -- the last place of `q` is not above `2 ^ e`, so `q` is a multiple of it
    have hlt : (2 : ℚ) ^ (ulpExponent q + 52) < 2 ^ (e + 53) := by
      calc (2 : ℚ) ^ (ulpExponent q + 52) ≤ |q| := zpow_ulpExponent_le h0
        _ = |(m : ℚ)| * 2 ^ e := by rw [hq, abs_mul, abs_of_pos (two_zpow_pos e)]
        _ < 2 ^ 53 * 2 ^ e := by
          have hm' : |(m : ℚ)| < 2 ^ 53 := by exact_mod_cast hm
          exact mul_lt_mul_of_pos_right hm' (two_zpow_pos e)
        _ = 2 ^ (e + 53) := by rw [zpow_add₀ (by norm_num), mul_comm]; norm_cast
    have hle : ulpExponent q ≤ e := by
      have := (zpow_lt_zpow_iff_right₀ (by norm_num : (1 : ℚ) < 2)).mp hlt
      omega
    obtain ⟨k, hk⟩ := eq_ofNat_of_zero_le (sub_nonneg.mpr hle)
    have hquot : q / 2 ^ ulpExponent q = ((m * 2 ^ k : ℤ) : ℚ) := by
      have hsplit : (2 : ℚ) ^ e = 2 ^ k * 2 ^ ulpExponent q := by
        rw [← zpow_natCast, ← zpow_add₀ (by norm_num), ← hk, sub_add_cancel]
      rw [div_eq_iff (two_zpow_pos _).ne']
      calc q = m * 2 ^ e := hq
        _ = ((m * 2 ^ k : ℤ) : ℚ) * 2 ^ ulpExponent q := by
          rw [hsplit]
          push_cast
          ring
    unfold fl
    rw [hquot, roundHalfEven_intCast, ← hquot, div_mul_cancel₀ _ (two_zpow_pos _).ne']

lemma fl_intCast (hn : |n| < 2 ^ 53) : fl (n : ℚ) = n := fl_eq_self (e := 0) hn (by simp)

/-- The relative rounding error is at most `2 ^ -53`. -/
lemma abs_fl_sub_le (q : ℚ) : |fl q - q| ≤ |q| / 2 ^ 53 := by
  by_cases h0 : q = 0
  · simp [h0, fl_zero]
  · have hpos := two_zpow_pos (ulpExponent q)
    have hfactor : fl q - q =
        ((roundHalfEven (q / 2 ^ ulpExponent q) : ℚ) - q / 2 ^ ulpExponent q) *
          2 ^ ulpExponent q := by
      rw [sub_mul, div_mul_cancel₀ _ hpos.ne', fl]
    have hulp : (2 : ℚ) ^ ulpExponent q * 2 ^ 52 ≤ |q| := by
      have := zpow_ulpExponent_le h0
      rwa [zpow_add₀ (by norm_num)] at this
    calc |fl q - q| = |(roundHalfEven (q / 2 ^ ulpExponent q) : ℚ) - q / 2 ^ ulpExponent q| *
            2 ^ ulpExponent q := by rw [hfactor, abs_mul, abs_of_pos hpos]
      _ ≤ 1 / 2 * 2 ^ ulpExponent q :=
          mul_le_mul_of_nonneg_right (abs_roundHalfEven_sub_le _) hpos.le
      _ ≤ |q| / 2 ^ 53 := by
          linarith

/-! ## Order -/

lemma fl_nonneg (h : 0 ≤ q) : 0 ≤ fl q := by
  have hquot : 0 ≤ q / 2 ^ ulpExponent q := div_nonneg h (two_zpow_pos _).le
  exact mul_nonneg (by exact_mod_cast roundHalfEven_nonneg hquot) (two_zpow_pos _).le

lemma fl_le_zpow (h : 0 < q) : fl q ≤ 2 ^ (log 2 q + 1) := by
  have hexp : log 2 q + 1 = 53 + ulpExponent q := by
    rw [ulpExponent, abs_of_pos h]
    ring
  have hlt : q < 2 ^ (log 2 q + 1) := by
    simpa using lt_zpow_succ_log_self (R := ℚ) (b := 2) (by norm_num) q
  rw [hexp, zpow_add₀ (by norm_num)] at hlt ⊢
  have hquot : q / 2 ^ ulpExponent q ≤ ((2 ^ 53 : ℤ) : ℚ) := by
    rw [div_le_iff₀ (two_zpow_pos _)]
    exact_mod_cast hlt.le
  have hround := roundHalfEven_mono hquot
  rw [roundHalfEven_intCast] at hround
  refine mul_le_mul_of_nonneg_right ?_ (two_zpow_pos _).le
  exact_mod_cast hround

/-- A positive value is rounded to at least the power of two below it. -/
lemma zpow_le_fl (h : 0 < q) : 2 ^ log 2 q ≤ fl q := by
  have hexp : log 2 q = 52 + ulpExponent q := by
    rw [ulpExponent, abs_of_pos h]
    ring
  have hle : (2 : ℚ) ^ log 2 q ≤ q := by
    simpa using zpow_log_le_self (R := ℚ) (b := 2) (by norm_num) h
  rw [hexp, zpow_add₀ (by norm_num)] at hle ⊢
  have hquot : ((2 ^ 52 : ℤ) : ℚ) ≤ q / 2 ^ ulpExponent q := by
    rw [le_div_iff₀ (two_zpow_pos _)]
    exact_mod_cast hle
  have hround := roundHalfEven_mono hquot
  rw [roundHalfEven_intCast] at hround
  refine mul_le_mul_of_nonneg_right ?_ (two_zpow_pos _).le
  exact_mod_cast hround

/-- Rounding keeps the order of nonnegative values. -/
lemma fl_mono (hq : 0 ≤ q) (hqr : q ≤ r) : fl q ≤ fl r := by
  rcases hq.eq_or_lt with rfl | hq
  · rw [fl_zero]
    exact fl_nonneg hqr
  have hr : 0 < r := hq.trans_le hqr
  rcases (log_mono_right (b := 2) hq hqr).eq_or_lt with hlog | hlog
  · -- with the same last place the quotients are ordered
    have hulp : ulpExponent q = ulpExponent r := by
      rw [ulpExponent, ulpExponent, abs_of_pos hq, abs_of_pos hr, hlog]
    unfold fl
    rw [hulp]
    refine mul_le_mul_of_nonneg_right ?_ (two_zpow_pos _).le
    have hquot : q / 2 ^ ulpExponent r ≤ r / 2 ^ ulpExponent r :=
      div_le_div_of_nonneg_right hqr (two_zpow_pos _).le
    exact_mod_cast roundHalfEven_mono hquot
  · -- otherwise a power of two lies between the rounded values
    calc fl q ≤ 2 ^ (log 2 q + 1) := fl_le_zpow hq
      _ ≤ 2 ^ log 2 r := zpow_le_zpow_right₀ (by norm_num) hlog
      _ ≤ fl r := zpow_le_fl hr

/-! ## Operations and conversions -/

/-- Conversion of an integer to a double. -/
def ofInt (n : ℤ) : ℚ := fl n

/-- Multiplication of doubles. -/
def mul (x y : ℚ) : ℚ := fl (x * y)

/-- Division of doubles. -/
def div (x y : ℚ) : ℚ := fl (x / y)

/-- Conversion of a double to an integer type: the fraction is cut off. -/
def trunc (x : ℚ) : ℤ := if 0 ≤ x then ⌊x⌋ else ⌈x⌉

lemma ofInt_eq (hn : |n| < 2 ^ 53) : ofInt n = n := fl_intCast hn

lemma trunc_nonneg (hx : 0 ≤ x) : 0 ≤ trunc x := by
  rw [trunc, if_pos hx]
  exact floor_nonneg.mpr hx

lemma trunc_le (hx : 0 ≤ x) : (trunc x : ℚ) ≤ x := by
  rw [trunc, if_pos hx]
  exact floor_le x

lemma trunc_mono {y : ℚ} (hx : 0 ≤ x) (hxy : x ≤ y) : trunc x ≤ trunc y := by
  rw [trunc, trunc, if_pos hx, if_pos (hx.trans hxy)]
  exact floor_mono hxy

/-- A quotient of naturals whose numerator is below `2 ^ 53` differs from every
integer it does not hit by more than its rounding error. -/
lemma trunc_fl_ratio {a c : ℕ} (hc : 0 < c) (ha : a < 2 ^ 53) :
    trunc (fl ((a : ℚ) / c)) = ((a / c : ℕ) : ℤ) := by
  have hcq : (0 : ℚ) < c := by exact_mod_cast hc
  have hmod := Nat.div_add_mod a c
  have hlt := Nat.mod_lt a hc
  generalize a / c = n at *
  generalize a % c = r at *
  have hq : (a : ℚ) / c = n + r / c := by
    rw [← hmod]
    push_cast
    field_simp
  by_cases hr : r = 0
  · -- an exact quotient is an integer below `2 ^ 53`
    have hn : n < 2 ^ 53 := lt_of_le_of_lt (by rw [← hmod]; nlinarith) ha
    have hval : (a : ℚ) / c = ((n : ℤ) : ℚ) := by rw [hq, hr]; simp
    rw [hval, fl_intCast (by rw [abs_of_nonneg (by positivity)]; exact_mod_cast hn)]
    simp [trunc]
  · -- otherwise it is at least `1 / c` away from both neighbours
    have hpos : (1 : ℚ) ≤ r := by exact_mod_cast Nat.one_le_iff_ne_zero.mpr hr
    have hle : (r : ℚ) + 1 ≤ c := by exact_mod_cast hlt
    have herr : |fl ((a : ℚ) / c) - (a : ℚ) / c| < 1 / c := by
      refine lt_of_le_of_lt (abs_fl_sub_le _) ?_
      rw [abs_of_nonneg (by positivity), div_div, div_lt_div_iff₀ (by positivity) hcq]
      have ha' : (a : ℚ) < 2 ^ 53 := by exact_mod_cast ha
      nlinarith
    have hlo : 1 / (c : ℚ) ≤ r / c := by gcongr
    have hhi : (r : ℚ) / c ≤ 1 - 1 / c := by
      rw [le_sub_iff_add_le, ← add_div, div_le_one hcq]
      exact hle
    have hn0 : (0 : ℚ) ≤ n := by positivity
    obtain ⟨h1, h2⟩ := abs_lt.mp herr
    have hge : (n : ℚ) ≤ fl ((a : ℚ) / c) := by linarith
    have hnonneg : 0 ≤ fl ((a : ℚ) / c) := le_trans hn0 hge
    rw [trunc, if_pos hnonneg, floor_eq_iff]
    constructor
    · exact_mod_cast hge
    · push_cast
      linarith

end HootChain.Foundation.Binary64
