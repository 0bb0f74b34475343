import Mathlib.Algebra.BigOperators.Fin
import Mathlib.Algebra.Order.BigOperators.Ring.Finset
import Mathlib.Tactic.Linarith

/-!
# Neighbouring elements and the correlation of two measurements

A stream is described by its histogram and by sums over its neighbouring pairs.
The pairs of a concatenation are those of both parts and the one across the cut.
Sums over one list of pairs satisfy the Cauchy-Schwarz inequality, so the
correlation computed from them has absolute value at most one.
-/

namespace BootEntropy.Lib

set_option autoImplicit false

section Adjacent

variable {α : Type}

def adjacent (items : List α) : List (α × α) := items.zip items.tail

theorem adjacent_length (items : List α) : (adjacent items).length = items.length - 1 := by
  simp [adjacent, List.length_zip]

/-- `zip(seq[:-1], seq[1:])`: leaving out the last element changes no pair. -/
theorem drop_last_zip_tail (items : List α) : items.dropLast.zip items.tail = adjacent items := by
  induction items with
  | nil => rfl
  | cons first rest ih =>
      cases rest with
      | nil => rfl
      | cons second later => exact congrArg ((first, second) :: ·) ih

/-- The pair that a cut separates: the last element before it and the first behind. -/
def across (front rest : List α) : List (α × α) := front.getLast?.toList.zip rest.head?.toList

theorem adjacent_append (front rest : List α) :
    adjacent (front ++ rest) = adjacent front ++ (across front rest ++ adjacent rest) := by
  induction front with
  | nil => simp [adjacent, across]
  | cons first more ih =>
      cases more with
      | nil =>
          cases rest with
          | nil => simp [adjacent, across]
          | cons next later => simp [adjacent, across]
      | cons second later =>
          have head : ∀ tail : List α,
              adjacent (first :: second :: tail) = (first, second) :: adjacent (second :: tail) :=
            fun _ => rfl
          have cut : across (first :: second :: later) rest = across (second :: later) rest := by
            simp [across]
          rw [List.cons_append, List.cons_append, head, head, ← List.cons_append, ih, cut]
          rfl

theorem adjacent_equal_iff {items : List α} (item : α) (first : ∀ other ∈ items.head?, other = item) :
    (∀ pair ∈ adjacent items, pair.1 = pair.2) ↔ items = List.replicate items.length item := by
  induction items with
  | nil => exact iff_of_true (List.forall_mem_nil _) rfl
  | cons head rest ih =>
      have same : head = item := first head rfl
      subst same
      rw [List.length_cons, List.replicate_succ, List.cons_inj_right]
      cases rest with
      | nil => exact iff_of_true (List.forall_mem_nil _) rfl
      | cons next later =>
          have pairs : adjacent (head :: next :: later) = (head, next) :: adjacent (next :: later) := rfl
          rw [pairs, List.forall_mem_cons]
          constructor
          · rintro ⟨equal, rest⟩
            have equal : head = next := equal
            subst equal
            exact (ih fun other same => (Option.some.inj same).symm).mp rest
          · intro repeated
            have equal : next = head := List.eq_of_mem_replicate (repeated ▸ List.mem_cons_self ..)
            subst equal
            exact ⟨rfl, (ih fun other same => (Option.some.inj same).symm).mpr repeated⟩

end Adjacent

section Changes

variable {α : Type} [DecidableEq α]

def changes (items : List α) : Nat := (adjacent items).countP fun pair => pair.1 ≠ pair.2

theorem changes_le (items : List α) : changes items ≤ items.length - 1 :=
  adjacent_length items ▸ List.countP_le_length

theorem changes_append {front rest : List α} {last first : α} (ends : front.getLast? = some last)
    (begins : rest.head? = some first) :
    changes (front ++ rest) = changes front + changes rest + if last ≠ first then 1 else 0 := by
  have cut : across front rest = [(last, first)] := by
    rw [across, ends, begins]
    rfl
  rw [changes, adjacent_append, cut, List.countP_append, List.countP_append, List.countP_singleton,
    changes, changes]
  simp only [decide_eq_true_eq]
  omega

def countChange (scan : Option α × Nat) (item : α) : Option α × Nat :=
  (some item, scan.2 + if ∃ previous ∈ scan.1, item ≠ previous then 1 else 0)

theorem foldl_count_change (items : List α) :
    items.foldl countChange (none, 0) = (items.getLast?, changes items) := by
  induction items using List.reverseRecOn with
  | nil => rfl
  | append_singleton front item ih =>
      rw [List.foldl_concat, ih, List.getLast?_concat, countChange]
      cases ends : front.getLast? with
      | none =>
          rw [List.getLast?_eq_none_iff.mp ends]
          rfl
      | some previous =>
          rw [changes_append ends rfl]
          simp [changes, adjacent, eq_comm]

end Changes

section Spread

variable {ι R : Type} [CommRing R]

/-- The covariance of two measurements of the same items, scaled by the square of
their number. With both measurements equal it is the scaled variance. -/
def spread (items : List ι) (x y : ι → R) : R :=
  items.length * (items.map fun item => x item * y item).sum
    - (items.map x).sum * (items.map y).sum

def centred (items : List ι) (x : ι → R) (item : ι) : R := items.length * x item - (items.map x).sum

theorem sum_affine_mul (items : List ι) (x y : ι → R) (n a b : R) :
    (items.map fun item => (n * x item - a) * (n * y item - b)).sum =
      n * n * (items.map fun item => x item * y item).sum - n * b * (items.map x).sum
        - n * a * (items.map y).sum + items.length * (a * b) := by
  induction items with
  | nil => simp
  | cons item rest ih =>
      simp only [List.map_cons, List.sum_cons, List.length_cons, ih]
      push_cast
      ring

theorem centred_sum (items : List ι) (x y : ι → R) :
    (items.map fun item => centred items x item * centred items y item).sum =
      items.length * spread items x y := by
  simp only [centred, sum_affine_mul, spread]
  ring

variable [LinearOrder R] [IsStrictOrderedRing R]

theorem sum_mul_sq_le (items : List ι) (x y : ι → R) :
    (items.map fun item => x item * y item).sum ^ 2 ≤
      (items.map fun item => x item * x item).sum * (items.map fun item => y item * y item).sum := by
  have bound := Finset.sum_mul_sq_le_sq_mul_sq Finset.univ
    (fun index : Fin items.length => x items[index.1]) (fun index => y items[index.1])
  simp only [pow_two (x _), pow_two (y _)] at bound
  rwa [Fin.sum_univ_fun_getElem items fun item => x item * y item,
    Fin.sum_univ_fun_getElem items fun item => x item * x item,
    Fin.sum_univ_fun_getElem items fun item => y item * y item] at bound

theorem spread_self_nonneg (items : List ι) (x : ι → R) : 0 ≤ spread items x x := by
  cases items with
  | nil => simp [spread]
  | cons item rest =>
      have positive : (0 : R) < (item :: rest).length := by
        exact_mod_cast Nat.succ_pos rest.length
      have squares : 0 ≤ ((item :: rest).map fun other =>
          centred (item :: rest) x other * centred (item :: rest) x other).sum := by
        apply List.sum_nonneg
        intro square member
        obtain ⟨other, -, rfl⟩ := List.mem_map.mp member
        exact mul_self_nonneg _
      rw [centred_sum] at squares
      exact nonneg_of_mul_nonneg_right squares positive

/-- Cauchy-Schwarz for the covariance: the common factor of the centred sums is
the number of items on both sides. -/
theorem spread_sq_le (items : List ι) (x y : ι → R) :
    spread items x y ^ 2 ≤ spread items x x * spread items y y := by
  cases items with
  | nil => simp [spread]
  | cons item rest =>
      have positive : (0 : R) < (item :: rest).length := by
        exact_mod_cast Nat.succ_pos rest.length
      have bound := sum_mul_sq_le (item :: rest) (centred (item :: rest) x)
        (centred (item :: rest) y)
      rw [centred_sum, centred_sum, centred_sum] at bound
      have scaled : ((item :: rest).length : R) ^ 2 * spread (item :: rest) x y ^ 2 ≤
          ((item :: rest).length : R) ^ 2 *
            (spread (item :: rest) x x * spread (item :: rest) y y) := by
        calc ((item :: rest).length : R) ^ 2 * spread (item :: rest) x y ^ 2
            = (((item :: rest).length : R) * spread (item :: rest) x y) ^ 2 := by ring
          _ ≤ _ := bound
          _ = _ := by ring
      exact le_of_mul_le_mul_left scaled (pow_pos positive 2)

end Spread

end BootEntropy.Lib
