import Mathlib.Algebra.BigOperators.Group.List.Basic
import Mathlib.Algebra.Order.BigOperators.Group.List
import Mathlib.Analysis.SpecialFunctions.Log.Base
import Mathlib.Analysis.SpecialFunctions.Log.NegMulLog

/-!
# Entropy of a sample and of its parts

The entropy of the frequencies in a list. It is concave in the frequencies, so a list
has at least the entropy of its parts, weighed by their lengths. The most common item of
a list is at least as common in some part.
-/

namespace BootEntropy.Lib

set_option autoImplicit false

section Frequency

variable {α : Type} [DecidableEq α]

noncomputable def frequency (items : List α) (item : α) : ℝ := items.count item / items.length

theorem frequency_nonneg (items : List α) (item : α) : 0 ≤ frequency items item := by
  unfold frequency
  positivity

theorem frequency_append (front rest : List α) (item : α) :
    (front ++ rest).length * frequency (front ++ rest) item =
      front.length * frequency front item + rest.length * frequency rest item := by
  have counted (items : List α) : items.length * frequency items item = items.count item := by
    by_cases empty : items = []
    · simp [empty]
    · have size : (items.length : ℝ) ≠ 0 := by
        simpa using empty
      rw [frequency, mul_div_cancel₀ _ size]
  rw [counted, counted, counted, List.count_append, Nat.cast_add]

end Frequency

section Entropy

variable {α : Type} [Fintype α] [DecidableEq α]

/-- Shannon entropy of the frequencies, with logarithms to the base `base`. -/
noncomputable def shannon (base : ℝ) (items : List α) : ℝ :=
  (∑ item, Real.negMulLog (frequency items item)) / Real.log base

def mostCommon (items : List α) : Nat := Finset.univ.sup fun item => items.count item

/-- Two parts, each weighed by its length. -/
theorem shannon_append_le {base : ℝ} (large : 1 < base) (front rest : List α) :
    front.length * shannon base front + rest.length * shannon base rest ≤
      (front ++ rest).length * shannon base (front ++ rest) := by
  by_cases frontEmpty : front = []
  · simp [frontEmpty]
  by_cases restEmpty : rest = []
  · simp [restEmpty]
  have frontSize : (0 : ℝ) < front.length := by exact_mod_cast List.length_pos_of_ne_nil frontEmpty
  have restSize : (0 : ℝ) < rest.length := by exact_mod_cast List.length_pos_of_ne_nil restEmpty
  have total : ((front ++ rest).length : ℝ) = front.length + rest.length := by
    rw [List.length_append, Nat.cast_add]
  have size : (0 : ℝ) < (front ++ rest).length := by linarith
  have items (item : α) :
      front.length * Real.negMulLog (frequency front item) +
          rest.length * Real.negMulLog (frequency rest item) ≤
        (front ++ rest).length * Real.negMulLog (frequency (front ++ rest) item) := by
    have concave := Real.concaveOn_negMulLog.2 (frequency_nonneg front item)
      (frequency_nonneg rest item) (div_nonneg frontSize.le size.le)
      (div_nonneg restSize.le size.le) (by rw [← add_div, ← total, div_self size.ne'])
    have mixed : front.length / (front ++ rest).length * frequency front item +
        rest.length / (front ++ rest).length * frequency rest item =
          frequency (front ++ rest) item := by
      rw [div_mul_eq_mul_div, div_mul_eq_mul_div, ← add_div, ← frequency_append,
        mul_div_cancel_left₀ _ size.ne']
    rw [smul_eq_mul, smul_eq_mul, smul_eq_mul, smul_eq_mul, mixed, div_mul_eq_mul_div,
      div_mul_eq_mul_div, ← add_div, div_le_iff₀ size] at concave
    linarith
  have positive : 0 < Real.log base := Real.log_pos large
  unfold shannon
  rw [mul_div_assoc', mul_div_assoc', mul_div_assoc', ← add_div, Finset.mul_sum, Finset.mul_sum,
    Finset.mul_sum, ← Finset.sum_add_distrib]
  apply div_le_div_of_nonneg_right _ positive.le
  exact Finset.sum_le_sum fun item _ => items item

theorem shannon_flatten_le {base : ℝ} (large : 1 < base) (chunks : List (List α)) :
    (chunks.map fun chunk => chunk.length * shannon base chunk).sum ≤
      chunks.flatten.length * shannon base chunks.flatten := by
  induction chunks with
  | nil => simp
  | cons chunk chunks ih =>
      rw [List.map_cons, List.sum_cons, List.flatten_cons]
      calc chunk.length * shannon base chunk +
          (chunks.map fun chunk => chunk.length * shannon base chunk).sum
        _ ≤ chunk.length * shannon base chunk +
            chunks.flatten.length * shannon base chunks.flatten := by gcongr
        _ ≤ _ := shannon_append_le large chunk chunks.flatten

/-! ## The most common item -/

theorem count_le_most_common (items : List α) (item : α) : items.count item ≤ mostCommon items :=
  Finset.le_sup (f := fun item => items.count item) (Finset.mem_univ item)

theorem most_common_pos {items : List α} (nonempty : items ≠ []) : 0 < mostCommon items := by
  obtain ⟨item, member⟩ := List.exists_mem_of_ne_nil items nonempty
  exact (List.count_pos_iff.mpr member).trans_le (count_le_most_common items item)

theorem most_common_eq_count [Nonempty α] (items : List α) :
    ∃ item, mostCommon items = items.count item := by
  obtain ⟨item, _, most⟩ :=
    Finset.exists_mem_eq_sup Finset.univ Finset.univ_nonempty fun item => items.count item
  exact ⟨item, most⟩

/-- The most common item of the whole is at least as common in some part. -/
theorem exists_most_common_le [Nonempty α] {chunks : List (List α)} (some : chunks ≠ []) :
    ∃ chunk ∈ chunks, mostCommon chunks.flatten * chunk.length ≤
      mostCommon chunk * chunks.flatten.length := by
  obtain ⟨item, most⟩ := most_common_eq_count chunks.flatten
  apply List.exists_le_of_sum_le some
  rw [List.sum_map_mul_left, List.sum_map_mul_right, ← List.length_flatten, most]
  apply Nat.mul_le_mul_right
  rw [List.count_flatten]
  exact List.sum_le_sum fun chunk _ => count_le_most_common chunk item

end Entropy

end BootEntropy.Lib
