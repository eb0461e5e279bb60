import Mathlib.Algebra.Order.Field.Power
import Mathlib.Data.Rat.Floor

/-! # Python floats

A Python `float` is an IEEE 754 double.  The scripts make floats in three ways: the true
division of two `int`s (`wei / 10**18`, `bal / 10**6`, `randint(20, 50) / 100`), a decimal
literal (`0.15`), and the product of an `int` and a float, where the `int` is converted
first.  Each is correctly rounded: the exact value, rounded to the nearest double, ties to
even.  `pyFloat q` is that double, kept as the rational it denotes, so that the code's
comparisons of floats with each other and with `int`s, which Python makes exactly, are
those of the rationals.

A double has a 53-bit significand: in the binade `[2^e, 2^(e+1))` the unit in the last
place is `2^(e-52)`, and below `2^-1022` it stays `2^-1074` (gradual underflow).  A result
of `2^1024` or more overflows; the scripts only convert 256-bit chain values, far below,
and the model does not track it.

`pyFloat_dist` bounds the rounding error by half a unit in the last place, and
`pyFloat_dist_le` by `2^-53` of the value in the normal range. -/

namespace TempoSpammer

/-- The binary digits of `n`, halving at most `fuel` times: `⌊log₂ n⌋ + 1` for
`0 < n ≤ fuel`. -/
def bitLength : ℕ → ℕ → ℕ
  | 0, _ => 0
  | fuel + 1, n => if n = 0 then 0 else bitLength fuel (n / 2) + 1

/-- `2 ^ k` for an integer `k`, from the power of the natural number. -/
def twoPow (k : ℤ) : ℚ :=
  if 0 ≤ k then ((2 ^ k.toNat : ℕ) : ℚ) else 1 / ((2 ^ (-k).toNat : ℕ) : ℚ)

/-- `⌊log₂ q⌋` for `0 < q`, from the digits of its numerator and denominator. -/
def floorLog2 (q : ℚ) : ℤ :=
  let e : ℤ := (bitLength q.num.natAbs q.num.natAbs : ℤ) - bitLength q.den q.den
  if q < twoPow e then e - 1 else e

/-- The exponent of the unit in the last place of the doubles around `q ≠ 0`. -/
def ulpExp (q : ℚ) : ℤ := max (floorLog2 |q|) (-1022) - 52

/-- The integer nearest `t`, ties to even. -/
def rneInt (t : ℚ) : ℤ :=
  if 1 < 2 * (t - ⌊t⌋) ∨ (2 * (t - ⌊t⌋) = 1 ∧ ⌊t⌋ % 2 = 1) then ⌊t⌋ + 1 else ⌊t⌋

/-- `float(q)`: the double nearest `q`, ties to even. -/
def pyFloat (q : ℚ) : ℚ :=
  if q = 0 then 0 else rneInt (q / twoPow (ulpExp q)) * twoPow (ulpExp q)

/-! ### The binade -/

@[simp] theorem twoPow_eq (k : ℤ) : twoPow k = (2 : ℚ) ^ k := by
  unfold twoPow
  rcases Int.eq_nat_or_neg k with ⟨n, rfl | rfl⟩
  · simp
  · rcases Nat.eq_zero_or_pos n with rfl | hn
    · simp
    · rw [if_neg (by omega)]
      simp [zpow_neg]

theorem bitLength_zero : ∀ fuel, bitLength fuel 0 = 0
  | 0 => rfl
  | _ + 1 => if_pos rfl

/-- `bitLength` brackets `n` between two consecutive powers of two. -/
theorem bitLength_bounds : ∀ fuel n, 0 < n → n ≤ fuel →
    2 ^ bitLength fuel n ≤ 2 * n ∧ n < 2 ^ bitLength fuel n
  | 0, _, hn, hle => absurd hle (by omega)
  | fuel + 1, n, hn, hle => by
      rw [bitLength, if_neg (by omega), pow_succ]
      rcases Nat.lt_or_ge n 2 with h2 | h2
      · rw [show n / 2 = 0 by omega, bitLength_zero]
        omega
      · have ih := bitLength_bounds fuel (n / 2) (by omega) (by omega)
        omega

/-- The binade of a positive rational: `2 ^ floorLog2 q ≤ q < 2 ^ (floorLog2 q + 1)`. -/
theorem floorLog2_bounds {q : ℚ} (hq : 0 < q) :
    (2 : ℚ) ^ floorLog2 q ≤ q ∧ q < 2 ^ (floorLog2 q + 1) := by
  have hn : 0 < q.num.natAbs := Int.natAbs_pos.mpr (Rat.num_pos.mpr hq).ne'
  have hq' : q = (q.num.natAbs : ℚ) / q.den := by
    rw [Nat.cast_natAbs, Int.cast_abs, abs_of_pos (Int.cast_pos.mpr (Rat.num_pos.mpr hq)),
      Rat.num_div_den]
  obtain ⟨hn₁, hn₂⟩ := bitLength_bounds _ _ hn le_rfl
  obtain ⟨hd₁, hd₂⟩ := bitLength_bounds _ _ q.den_pos le_rfl
  unfold floorLog2
  simp only [twoPow_eq]
  generalize bitLength q.num.natAbs q.num.natAbs = a at hn₁ hn₂ ⊢
  generalize bitLength q.den q.den = b at hd₁ hd₂ ⊢
  have hN : (2 : ℚ) ^ a ≤ 2 * q.num.natAbs ∧ (q.num.natAbs : ℚ) < 2 ^ a :=
    ⟨by exact_mod_cast hn₁, by exact_mod_cast hn₂⟩
  have hD : (2 : ℚ) ^ b ≤ 2 * q.den ∧ (q.den : ℚ) < 2 ^ b :=
    ⟨by exact_mod_cast hd₁, by exact_mod_cast hd₂⟩
  have hD₀ : (0 : ℚ) < q.den := Nat.cast_pos.mpr q.den_pos
  have hN₀ : (0 : ℚ) ≤ q.num.natAbs := Nat.cast_nonneg _
  have hpow : ∀ c : ℤ, (2 : ℚ) ^ ((a : ℤ) - b + c) = 2 ^ a * 2 ^ c / 2 ^ b := fun c => by
    rw [sub_add_eq_add_sub, zpow_sub₀ two_ne_zero, zpow_add₀ two_ne_zero, zpow_natCast,
      zpow_natCast]
  have hlo : (2 : ℚ) ^ ((a : ℤ) - b + -1) ≤ q := by
    rw [hpow, hq', div_le_div_iff₀ (by positivity) hD₀, zpow_neg_one]
    calc (2 : ℚ) ^ a * 2⁻¹ * q.den ≤ q.num.natAbs * q.den :=
          mul_le_mul_of_nonneg_right (by linarith [hN.1]) hD₀.le
      _ ≤ q.num.natAbs * 2 ^ b := mul_le_mul_of_nonneg_left hD.2.le hN₀
  have hhi : q < (2 : ℚ) ^ ((a : ℤ) - b + 1) := by
    rw [hpow, hq', div_lt_div_iff₀ hD₀ (by positivity), zpow_one]
    calc (q.num.natAbs : ℚ) * 2 ^ b < 2 ^ a * 2 ^ b := mul_lt_mul_of_pos_right hN.2 (by positivity)
      _ ≤ 2 ^ a * 2 * q.den := by
          rw [mul_assoc]; exact mul_le_mul_of_nonneg_left hD.1 (by positivity)
  split
  next hlt => exact ⟨by simpa [sub_eq_add_neg] using hlo, by simpa using hlt⟩
  next hge => exact ⟨by simpa using not_lt.mp hge, by simpa using hhi⟩

/-! ### Rounding -/

/-- The integer `rneInt` picks is within one half of `t`. -/
theorem rneInt_dist (t : ℚ) : |t - rneInt t| ≤ 1 / 2 := by
  have h₀ := Int.floor_le t
  have h₁ := Int.lt_floor_add_one t
  unfold rneInt
  split
  next h =>
    have : 1 ≤ 2 * (t - ⌊t⌋) := by rcases h with h | ⟨h, -⟩ <;> linarith
    rw [abs_le]; push_cast; constructor <;> linarith
  next h =>
    have : 2 * (t - ⌊t⌋) ≤ 1 := not_lt.mp fun h' => h (.inl h')
    rw [abs_le]; constructor <;> linarith

theorem rneInt_nonneg {t : ℚ} (ht : 0 ≤ t) : 0 ≤ rneInt t := by
  have : 0 ≤ ⌊t⌋ := Int.floor_nonneg.mpr ht
  unfold rneInt; split <;> omega

theorem pyFloat_nonneg {q : ℚ} (hq : 0 ≤ q) : 0 ≤ pyFloat q := by
  unfold pyFloat
  split
  · exact le_rfl
  · rw [twoPow_eq]
    have := rneInt_nonneg (div_nonneg hq (zpow_nonneg zero_le_two (ulpExp q)))
    positivity

/-- **The rounding error.** `float(q)` is within half a unit in the last place of `q`. -/
theorem pyFloat_dist (q : ℚ) : |pyFloat q - q| ≤ 2 ^ ulpExp q / 2 := by
  unfold pyFloat
  split
  next h => rw [h, sub_zero, abs_zero]; positivity
  next h =>
    rw [twoPow_eq]
    have hu : (0 : ℚ) < 2 ^ ulpExp q := by positivity
    have hsplit : (rneInt (q / 2 ^ ulpExp q) : ℚ) * 2 ^ ulpExp q - q =
        -((q / 2 ^ ulpExp q - rneInt (q / 2 ^ ulpExp q)) * 2 ^ ulpExp q) := by
      field_simp
      ring
    calc |(rneInt (q / 2 ^ ulpExp q) : ℚ) * 2 ^ ulpExp q - q|
        = |q / 2 ^ ulpExp q - rneInt (q / 2 ^ ulpExp q)| * 2 ^ ulpExp q := by
          rw [hsplit, abs_neg, abs_mul, abs_of_pos hu]
      _ ≤ 1 / 2 * 2 ^ ulpExp q := mul_le_mul_of_nonneg_right (rneInt_dist _) hu.le
      _ = 2 ^ ulpExp q / 2 := by ring

/-- In the normal range the error of `float(q)` is at most `2^-53` of `|q|`. -/
theorem pyFloat_dist_le {q : ℚ} (hq : 2 ^ (-1022 : ℤ) ≤ |q|) :
    |pyFloat q - q| ≤ |q| / 2 ^ 53 := by
  obtain ⟨hlo, hhi⟩ := floorLog2_bounds (lt_of_lt_of_le (by positivity) hq)
  have he : -1022 ≤ floorLog2 |q| := by
    by_contra h
    have := zpow_le_zpow_right₀ (one_le_two : (1 : ℚ) ≤ 2)
      (show floorLog2 |q| + 1 ≤ -1022 by omega)
    linarith
  have hulp : ulpExp q = floorLog2 |q| - 52 := by rw [ulpExp, max_eq_left he]
  calc |pyFloat q - q| ≤ 2 ^ ulpExp q / 2 := pyFloat_dist q
    _ = 2 ^ floorLog2 |q| / 2 ^ 53 := by
      rw [hulp, zpow_sub₀ two_ne_zero]; norm_num; ring
    _ ≤ |q| / 2 ^ 53 := div_le_div_of_nonneg_right hlo (by positivity)

example : pyFloat (6 / 10) < 6 / 10 := by with_unfolding_all decide

example : pyFloat (1 / 10) > 1 / 10 := by with_unfolding_all decide

end TempoSpammer
