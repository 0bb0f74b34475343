import Mathlib.Algebra.BigOperators.Group.List.Basic
import Mathlib.Algebra.Order.BigOperators.Group.List
import Mathlib.Tactic.Ring

/-!
# Counting by rows and by columns

A table of bits has a distance for each pair of its rows and a number of ones for each
of its columns. A column with `ones` of them in `total` rows separates `ones * (total - ones)`
pairs, so the distances and these products have one sum.
-/

namespace BootEntropy.Lib

set_option autoImplicit false

section Pairs

variable {α : Type}

/-- The loop over each pair, the earlier row first. -/
def pairValues (value : α → α → Nat) : List α → List Nat
  | [] => []
  | row :: rows => rows.map (value row) ++ pairValues value rows

theorem pair_values_congr {value other : α → α → Nat} {rows : List α}
    (same : ∀ row ∈ rows, ∀ second ∈ rows, value row second = other row second) :
    pairValues value rows = pairValues other rows := by
  induction rows with
  | nil => rfl
  | cons row rows ih =>
      have here : rows.map (value row) = rows.map (other row) :=
        List.map_congr_left fun second member =>
          same row (List.mem_cons_self ..) second (List.mem_cons_of_mem _ member)
      have later := ih fun first known second member =>
        same first (List.mem_cons_of_mem _ known) second (List.mem_cons_of_mem _ member)
      rw [pairValues, pairValues, here, later]

theorem range_map_get_d (rows : List α) (other : α) :
    (List.range rows.length).map (fun i => rows.getD i other) = rows := by
  apply List.ext_getElem
  · simp
  · intro i _ inside
    simp [List.getElem?_eq_getElem inside]

theorem pair_values_places (value : α → α → Nat) (other : α) (rows : List α) :
    ((List.range rows.length).flatMap fun i =>
      (List.range' (i + 1) (rows.length - (i + 1))).map fun j =>
        value (rows.getD i other) (rows.getD j other)) = pairValues value rows := by
  induction rows with
  | nil => rfl
  | cons row rows ih =>
      rw [List.length_cons, List.range_succ_eq_map, List.flatMap_cons, List.flatMap_map, pairValues]
      congr 1
      · have rest := congrArg (List.map (value row)) (range_map_get_d rows other)
        rw [List.map_map] at rest
        rw [Nat.add_sub_add_right, Nat.sub_zero, List.range'_eq_map_range, List.map_map, ← rest]
        apply List.map_congr_left
        intro j _
        simp [Nat.add_comm]
      · rw [← ih]
        apply List.flatMap_congr
        intro i _
        have shift : List.range' (i + 1 + 1) (rows.length - (i + 1)) =
            (List.range' (i + 1) (rows.length - (i + 1))).map (1 + ·) := by
          rw [List.map_add_range', Nat.add_comm 1]
        rw [Nat.add_sub_add_right, shift, List.map_map]
        apply List.map_congr_left
        intro j _
        simp [Nat.add_comm 1]

end Pairs

section Columns

variable {α κ : Type} (bit : α → κ → Bool) (columns : List κ)

def distance (row other : α) : Nat := columns.countP fun column => bit row column != bit other column

def onesIn (rows : List α) (column : κ) : Nat := rows.countP fun row => bit row column

def separated (rows : List α) (column : κ) : Nat :=
  onesIn bit rows column * (rows.length - onesIn bit rows column)

theorem ones_in_le (rows : List α) (column : κ) : onesIn bit rows column ≤ rows.length :=
  List.countP_le_length

theorem count_p_eq_sum {ι : Type} (holds : ι → Bool) (items : List ι) :
    items.countP holds = (items.map fun item => if holds item then 1 else 0).sum := by
  induction items with
  | nil => rfl
  | cons item items ih => rw [List.countP_cons, List.map_cons, List.sum_cons, ih, Nat.add_comm]

theorem sum_count_columns (holds : α → κ → Bool) (rows : List α) :
    (rows.map fun row => columns.countP (holds row)).sum =
      (columns.map fun column => rows.countP (holds · column)).sum := by
  induction rows with
  | nil => simp
  | cons row rows ih =>
      have step : ∀ column, (row :: rows).countP (holds · column) =
          rows.countP (holds · column) + if holds row column then 1 else 0 :=
        fun column => List.countP_cons ..
      rw [List.map_cons, List.sum_cons, ih, List.map_congr_left fun column _ => step column,
        List.sum_map_add, count_p_eq_sum, Nat.add_comm]

theorem separated_cons (row : α) (rows : List α) (column : κ) :
    separated bit (row :: rows) column =
      separated bit rows column + rows.countP fun other => bit row column != bit other column := by
  have inside := ones_in_le bit rows column
  cases here : bit row column with
  | false =>
      have ones : onesIn bit (row :: rows) column = onesIn bit rows column := by
        simp [onesIn, here]
      have apart : (rows.countP fun other => false != bit other column) = onesIn bit rows column := by
        simp [onesIn]
      rw [separated, separated, ones, apart, List.length_cons, Nat.sub_add_comm inside, Nat.mul_succ]
  | true =>
      have ones : onesIn bit (row :: rows) column = onesIn bit rows column + 1 := by
        simp [onesIn, here]
      have apart : (rows.countP fun other => true != bit other column) =
          rows.length - onesIn bit rows column := by
        have both := rows.length_eq_countP_add_countP fun other => bit other column
        have zeros : (rows.countP fun other => true != bit other column) =
            rows.countP fun other => ¬bit other column := by
          apply List.countP_congr
          intro other _
          cases bit other column <;> decide
        rw [onesIn, zeros]
        omega
      rw [separated, separated, ones, apart, List.length_cons, Nat.add_sub_add_right, Nat.succ_mul]

/-- The distances of all pairs and the pairs that the columns separate have one sum. -/
theorem pair_values_distance_sum (rows : List α) :
    (pairValues (distance bit columns) rows).sum = (columns.map (separated bit rows)).sum := by
  induction rows with
  | nil =>
      have none : separated bit [] = fun _ => 0 := funext fun _ => Nat.zero_mul _
      rw [none, List.map_const', List.sum_replicate, nsmul_zero]
      rfl
  | cons row rows ih =>
      have columnwise := sum_count_columns columns (fun other column => bit row column != bit other column) rows
      have step := List.map_congr_left (l := columns) fun column _ => separated_cons bit row rows column
      rw [pairValues, List.sum_append, ih, step, List.sum_map_add, Nat.add_comm, ← columnwise]
      rfl

end Columns

end BootEntropy.Lib
