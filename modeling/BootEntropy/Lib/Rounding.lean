import BootEntropy.Lib.Double
import Mathlib.Tactic.FieldSimp
import Mathlib.Tactic.Linarith
import Mathlib.Tactic.NormNum
import Mathlib.Tactic.Positivity

/-!
# Floats next to zero and to one

A quotient between zero and one becomes zero only up to half of the least number, and one
only from half a last place below one on.
-/

namespace BootEntropy.Lib

set_option autoImplicit false

theorem round_even_error (q : ℚ) : |q - roundEven q| ≤ 1 / 2 := by
  have low := Int.floor_le q
  have high := Int.lt_floor_add_one q
  rw [abs_le]
  dsimp only [roundEven]
  split_ifs with down up even
  · constructor <;> linarith
  · push_cast
    constructor <;> linarith
  · constructor <;> linarith
  · push_cast
    constructor <;> linarith

theorem round_even_eq_iff {q : ℚ} {n : ℤ} (even : n % 2 = 0) :
    roundEven q = n ↔ |q - n| ≤ 1 / 2 := by
  constructor
  · rintro rfl
    exact round_even_error q
  · intro near
    obtain ⟨left, right⟩ := abs_le.mp near
    have low := Int.floor_le q
    have high := Int.lt_floor_add_one q
    have atLeast : ⌊q⌋ ≤ n := by
      have bound : ((⌊q⌋ : ℤ) : ℚ) < n + 1 := by linarith
      exact Int.lt_add_one_iff.mp (by exact_mod_cast bound)
    have atMost : n ≤ ⌊q⌋ + 1 := by
      have bound : (n : ℚ) < ⌊q⌋ + 1 + 1 := by linarith
      exact Int.lt_add_one_iff.mp (by exact_mod_cast bound)
    dsimp only [roundEven]
    split_ifs with down up tie
    · by_contra other
      have next : n = ⌊q⌋ + 1 := by omega
      rw [next] at left
      push_cast at left
      linarith
    · by_contra other
      have here : n = ⌊q⌋ := by omega
      rw [here] at right
      linarith
    · omega
    · omega

theorem round_double_eq_iff {q : ℚ} {place : ℤ} (last : lastPlace q = place) {n : ℤ}
    (even : n % 2 = 0) : roundDouble q = n * (2 : ℚ) ^ place ↔ |q - n * 2 ^ place| ≤ 2 ^ place / 2 := by
  have positive : (0 : ℚ) < 2 ^ place := zpow_pos two_pos place
  have scaled : |q - n * 2 ^ place| = |q / 2 ^ place - n| * 2 ^ place := by
    rw [← abs_of_pos positive, ← abs_mul, abs_of_pos positive]
    congr 1
    field_simp
  have rounded : roundDouble q = roundEven (q / 2 ^ place) * 2 ^ place := by
    rw [roundDouble, last]
  rw [rounded, mul_left_inj' positive.ne', Int.cast_inj, round_even_eq_iff even, scaled]
  constructor
  · intro near
    nlinarith
  · intro near
    by_contra far
    nlinarith

theorem half_zpow (place : ℤ) : (2 : ℚ) ^ place / 2 = 2 ^ (place - 1) :=
  (zpow_sub_one₀ two_ne_zero place).symm

theorem round_double_eq_zero_iff {q : ℚ} (nonneg : 0 ≤ q) :
    roundDouble q = 0 ↔ q ≤ 2 ^ (-1075 : ℤ) := by
  have zero := @round_double_eq_iff q _ rfl 0 (by decide)
  rw [Int.cast_zero, zero_mul, sub_zero, abs_of_nonneg nonneg, half_zpow] at zero
  rw [zero]
  rcases nonneg.eq_or_lt with rfl | positive
  · exact iff_of_true (zpow_nonneg zero_le_two _) (zpow_nonneg zero_le_two _)
  · have log := Int.zpow_log_le_self (R := ℚ) one_lt_two positive
    rw [lastPlace, abs_of_nonneg nonneg]
    rcases le_total (Int.log 2 q - 52) (-1074) with least | normal
    · rw [max_eq_right least]
      norm_num
    · rw [max_eq_left normal]
      have here : ∀ place : ℤ, place < Int.log 2 q → ¬q ≤ 2 ^ place := by
        intro place smaller
        exact not_le_of_gt ((zpow_lt_zpow_right₀ one_lt_two smaller).trans_le log)
      exact iff_of_false (here _ (by omega)) (here _ (by omega))

/-- Below one the last place is a fraction, so one is an even multiple of it. -/
theorem round_double_eq_one_of_place {q : ℚ} (below : q < 1) {place : Nat}
    (last : lastPlace q = -(place + 1 : Nat)) :
    roundDouble q = 1 ↔ 1 - q ≤ 2 ^ (-(place + 2 : Nat) : ℤ) := by
  have even : (2 ^ (place + 1) : ℤ) % 2 = 0 := by
    rw [pow_succ]
    exact Int.mul_emod_left _ 2
  have whole : ((2 ^ (place + 1) : ℤ) : ℚ) * 2 ^ (-(place + 1 : Nat) : ℤ) = 1 := by
    rw [Int.cast_pow, Int.cast_ofNat, zpow_neg, zpow_natCast]
    exact mul_inv_cancel₀ (pow_ne_zero _ two_ne_zero)
  have half : (-(place + 1 : Nat) : ℤ) - 1 = -(place + 2 : Nat) := by
    push_cast
    ring
  have one := round_double_eq_iff last even
  rwa [whole, half_zpow, half, abs_sub_comm, abs_of_pos (sub_pos.mpr below)] at one

theorem round_double_eq_one_iff {q : ℚ} (nonneg : 0 ≤ q) (below : q < 1) :
    roundDouble q = 1 ↔ 1 - q ≤ 2 ^ (-54 : ℤ) := by
  rcases nonneg.eq_or_lt with rfl | positive
  · refine iff_of_false ?_ (by norm_num)
    rw [(round_double_eq_zero_iff le_rfl).mpr (zpow_nonneg zero_le_two _)]
    exact zero_ne_one
  · have log : Int.log 2 q < 0 := (Int.lt_zpow_iff_log_lt one_lt_two positive).mp (by simpa using below)
    by_cases small : q < 1 / 2
    · obtain ⟨place, last⟩ : ∃ place : Nat, lastPlace q = -(place + 1 : Nat) := by
        refine ⟨(-lastPlace q - 1).toNat, ?_⟩
        have negative : lastPlace q < 0 := by
          rw [lastPlace, abs_of_nonneg nonneg]
          omega
        omega
      rw [round_double_eq_one_of_place below last]
      have most : (2 : ℚ) ^ (-(place + 2 : Nat) : ℤ) ≤ 2 ^ (-1 : ℤ) :=
        zpow_le_zpow_right₀ one_le_two (by omega)
      rw [zpow_neg_one] at most
      exact iff_of_false (by linarith) (by norm_num; linarith)
    · have half : Int.log 2 q = -1 := by
        have above : (-1 : ℤ) ≤ Int.log 2 q :=
          (Int.zpow_le_iff_le_log one_lt_two positive).mp (by simpa using small)
        omega
      have last : lastPlace q = -(52 + 1 : Nat) := by
        rw [lastPlace, abs_of_nonneg nonneg, half]
        rfl
      exact round_double_eq_one_of_place below last

/-! ## Quotients of counts -/

theorem fits_double_small {q : ℚ} (small : |q| ≤ 2 ^ 64) : FitsDouble q := by
  have wide (power : ℚ) (large : 2 ^ 64 < power) : (2 : ℚ) ^ 64 < 2 ^ 54 * power - power := by
    linarith
  have split : (2 : ℚ) ^ 1024 = 2 ^ 54 * 2 ^ 970 := by rw [← pow_add]
  have large : (2 : ℚ) ^ 64 < 2 ^ 970 := pow_lt_pow_right₀ (by norm_num) (by decide)
  rw [FitsDouble, split]
  exact lt_of_le_of_lt small (wide _ large)

section Quotients

variable {count total : Nat}

theorem share_le_one (part : count ≤ total) : (count : ℚ) / total ≤ 1 :=
  div_le_one_of_le₀ (Nat.cast_le.mpr part) (Nat.cast_nonneg _)

theorem divide_ints_share (part : count ≤ total) :
    divideInts count total = .ok (.finite (roundDouble (count / total))) := by
  have nonneg : (0 : ℚ) ≤ count / total := by positivity
  have fits : FitsDouble ((count : ℤ) / (total : ℤ)) := by
    apply fits_double_small
    rw [Int.cast_natCast, Int.cast_natCast, abs_of_nonneg nonneg]
    exact (share_le_one part).trans (by norm_num)
  rw [divideInts, unlessOverflow, if_pos fits, Double.ofRat, if_pos fits, Int.cast_natCast,
    Int.cast_natCast]

theorem share_le_iff (some : 0 < total) (places : Nat) :
    (count : ℚ) / total ≤ 2 ^ (-places : ℤ) ↔ 2 ^ places * count ≤ total := by
  have whole : (0 : ℚ) < total := Nat.cast_pos.mpr some
  rw [div_le_iff₀ whole, zpow_neg, zpow_natCast, ← div_eq_inv_mul, le_div_iff₀ (by positivity),
    mul_comm]
  exact_mod_cast Iff.rfl

theorem share_eq_zero_iff (some : 0 < total) :
    roundDouble (count / total) = 0 ↔ 2 ^ 1075 * count ≤ total :=
  (round_double_eq_zero_iff (by positivity)).trans (share_le_iff some 1075)

theorem share_eq_one_iff (some : 0 < total) (part : count ≤ total) :
    roundDouble (count / total) = 1 ↔ 2 ^ 54 * (total - count) ≤ total := by
  have whole : (0 : ℚ) < total := Nat.cast_pos.mpr some
  rcases part.eq_or_lt with rfl | less
  · rw [div_self whole.ne', Nat.sub_self, Nat.mul_zero]
    exact iff_of_true (by decide +kernel) (Nat.zero_le _)
  · have below : (count : ℚ) / total < 1 := (div_lt_one whole).mpr (Nat.cast_lt.mpr less)
    have rest : 1 - (count : ℚ) / total = (total - count : Nat) / total := by
      rw [Nat.cast_sub part]
      field_simp
    rw [round_double_eq_one_iff (by positivity) below, rest]
    exact share_le_iff some 54

end Quotients

end BootEntropy.Lib
