import Mathlib.Data.List.Range
import Mathlib.Data.List.Sort

/-!
# Cutting a list into indexed chunks

A sender cuts a list into chunks of one size and numbers them. A receiver that
holds some of the numbers joins its chunks in index order. The result is the
original list exactly when no number is missing.
-/

namespace BootEntropy.Lib

set_option autoImplicit false

variable {α : Type}

def chunkCount (size length : Nat) : Nat := (length + size - 1) / size

def chunk (size : Nat) (source : List α) (index : Nat) : List α :=
  (source.drop (index * size)).take size

theorem length_le_chunk_count_mul {size : Nat} (positive : 0 < size) (length : Nat) :
    length ≤ chunkCount size length * size := by
  have floor := Nat.div_add_mod (length + size - 1) size
  have remainder := Nat.mod_lt (length + size - 1) positive
  rw [chunkCount, Nat.mul_comm]
  omega

theorem chunk_start_lt {size length index : Nat} (positive : 0 < size)
    (inside : index < chunkCount size length) : index * size < length := by
  have bound := (Nat.le_div_iff_mul_le positive).mp (Nat.succ_le_of_lt inside)
  rw [Nat.succ_mul] at bound
  omega

theorem chunk_count_le {size length : Nat} (positive : 0 < size) : chunkCount size length ≤ length := by
  by_contra beyond
  have start : length * size < length := chunk_start_lt positive (by omega)
  have grows := Nat.le_mul_of_pos_right length positive
  omega

theorem chunk_length (size : Nat) (source : List α) (index : Nat) :
    (chunk size source index).length = min size (source.length - index * size) := by
  rw [chunk, List.length_take, List.length_drop]

theorem chunk_ne_nil {size index : Nat} {source : List α} (positive : 0 < size)
    (inside : index < chunkCount size source.length) : chunk size source index ≠ [] := by
  have start := chunk_start_lt positive inside
  apply List.ne_nil_of_length_pos
  rw [chunk_length]
  omega

theorem flat_map_chunk_take (size : Nat) (source : List α) (count : Nat) :
    (List.range count).flatMap (chunk size source) = source.take (count * size) := by
  induction count with
  | zero => simp
  | succ count ih =>
      rw [List.range_succ, List.flatMap_append, ih, List.flatMap_singleton, chunk, ← List.take_add,
        Nat.succ_mul]

theorem flat_map_chunk {size : Nat} (positive : 0 < size) (source : List α) :
    (List.range (chunkCount size source.length)).flatMap (chunk size source) = source := by
  rw [flat_map_chunk_take]
  exact List.take_of_length_le (length_le_chunk_count_mul positive source.length)

/-! ## Missing and shortened chunks -/

section Missing

variable {ι : Type} (present : ι → Bool) (limit : Nat) (part : ι → List α)

/-- What a receiver holds that has seen some of the parts, none of them beyond
`limit` elements. -/
def joinReceived (indices : List ι) : List α :=
  (indices.filter present).flatMap fun index => (part index).take limit

theorem join_received_length_le (indices : List ι) :
    (joinReceived present limit part indices).length ≤ (indices.flatMap part).length := by
  induction indices with
  | nil => exact Nat.le_refl _
  | cons index rest ih =>
      rw [joinReceived] at ih ⊢
      rw [List.filter_cons, List.flatMap_cons, List.length_append]
      split_ifs
      · rw [List.flatMap_cons, List.length_append, List.length_take]
        omega
      · omega

theorem join_received_length_eq_iff (indices : List ι)
    (solid : ∀ index ∈ indices, part index ≠ []) :
    (joinReceived present limit part indices).length = (indices.flatMap part).length ↔
      ∀ index ∈ indices, present index = true ∧ (part index).length ≤ limit := by
  induction indices with
  | nil => simp [joinReceived]
  | cons index rest ih =>
      have tail := ih fun other member => solid other (List.mem_cons_of_mem _ member)
      have shorter := join_received_length_le present limit part rest
      have content := List.length_pos_of_ne_nil (solid index List.mem_cons_self)
      rw [joinReceived] at tail shorter ⊢
      rw [List.forall_mem_cons, ← tail, List.filter_cons, List.flatMap_cons, List.length_append]
      cases here : present index with
      | true =>
          rw [if_pos rfl, List.flatMap_cons, List.length_append, List.length_take]
          simp only [true_and]
          omega
      | false =>
          simp only [Bool.false_eq_true, if_false, false_and, iff_false]
          omega

theorem join_received_of_all (indices : List ι)
    (all : ∀ index ∈ indices, present index = true ∧ (part index).length ≤ limit) :
    joinReceived present limit part indices = indices.flatMap part := by
  rw [joinReceived, List.filter_eq_self.mpr fun index member => (all index member).1]
  apply List.flatMap_congr
  intro index member
  exact List.take_of_length_le (all index member).2

theorem join_received_eq_iff (indices : List ι) (solid : ∀ index ∈ indices, part index ≠ []) :
    joinReceived present limit part indices = indices.flatMap part ↔
      ∀ index ∈ indices, present index = true ∧ (part index).length ≤ limit := by
  constructor
  · intro same
    exact (join_received_length_eq_iff present limit part indices solid).mp
      (congrArg List.length same)
  · exact join_received_of_all present limit part indices

end Missing

/-- Distinct keys of indices below `count`, sorted, are the keys of the indices that
have one. -/
theorem insertion_sort_eq_map_filter {κ : Type} [LinearOrder κ] {place : Nat → κ}
    (increasing : StrictMono place) {keys : List κ} {count : Nat} (distinct : keys.Nodup)
    (below : ∀ key ∈ keys, ∃ index < count, key = place index) :
    keys.insertionSort (· ≤ ·) = ((List.range count).filter (place · ∈ keys)).map place := by
  have ordered := List.perm_insertionSort (· ≤ ·) keys
  have ranged : ((List.range count).filter (place · ∈ keys)).Pairwise (· < ·) :=
    List.Pairwise.filter _ List.pairwise_lt_range
  apply List.Perm.eq_of_pairwise' (r := (· ≤ ·))
  · exact List.pairwise_insertionSort (· ≤ ·) keys
  · exact List.pairwise_map.mpr (ranged.imp fun less => (increasing less).le)
  · rw [List.perm_ext_iff_of_nodup (ordered.nodup_iff.mpr distinct)]
    · intro key
      rw [ordered.mem_iff, List.mem_map]
      constructor
      · intro member
        obtain ⟨index, inside, rfl⟩ := below key member
        exact ⟨index, List.mem_filter.mpr ⟨List.mem_range.mpr inside, decide_eq_true member⟩, rfl⟩
      · rintro ⟨index, kept, rfl⟩
        exact of_decide_eq_true (List.mem_filter.mp kept).2
    · exact (ranged.imp fun less => less.ne).map place fun _ _ apart => fun same =>
        apart (increasing.injective same)

/-- Distinct indices below `count`, sorted, are the filtered range. -/
theorem insertion_sort_eq_filter_range {keys : List Nat} {count : Nat} (distinct : keys.Nodup)
    (below : ∀ key ∈ keys, key < count) :
    keys.insertionSort (· ≤ ·) = (List.range count).filter (· ∈ keys) := by
  have sorted := insertion_sort_eq_map_filter strictMono_id distinct
    fun key member => ⟨key, below key member, rfl⟩
  rwa [List.map_id] at sorted

/-! ## Concatenations with some parts overwritten -/

section Overwritten

variable {ι : Type} {before after : ι → List α}

theorem flat_map_eq_iff_of_lengths {indices : List ι}
    (lengths : ∀ index ∈ indices, (after index).length = (before index).length) :
    indices.flatMap after = indices.flatMap before ↔
      ∀ index ∈ indices, after index = before index := by
  constructor
  · intro same
    induction indices with
    | nil =>
        intro index member
        cases member
    | cons head rest ih =>
        rw [List.flatMap_cons, List.flatMap_cons] at same
        obtain ⟨heads, tails⟩ := List.append_inj same (lengths head (List.mem_cons_self ..))
        rw [List.forall_mem_cons]
        exact ⟨heads, ih (fun index member => lengths index (List.mem_cons_of_mem _ member)) tails⟩
  · exact List.flatMap_congr

/-- The parts of some indices are all `old` and become `new`. The concatenation stays
the same only if they are equal, or there is no such index. -/
theorem flat_map_overwritten_iff {indices : List ι} {touched : ι → Prop} {old new : List α}
    (inside : ∀ index ∈ indices, touched index → before index = old ∧ after index = new)
    (outside : ∀ index ∈ indices, ¬touched index → after index = before index) :
    indices.flatMap after = indices.flatMap before ↔
      ∀ index ∈ indices, touched index → before index = new := by
  classical
  have balance {some : List ι} (part : some ⊆ indices) :
      (some.flatMap after).length + (some.filter touched).length * old.length =
        (some.flatMap before).length + (some.filter touched).length * new.length := by
    induction some with
    | nil => simp
    | cons head rest ih =>
        have rest := ih (List.subset_of_cons_subset part)
        have member := part (List.mem_cons_self ..)
        rw [List.flatMap_cons, List.flatMap_cons, List.length_append, List.length_append]
        by_cases here : touched head
        · rw [List.filter_cons_of_pos (by simpa using here), List.length_cons,
            (inside head member here).1, (inside head member here).2, Nat.succ_mul, Nat.succ_mul]
          omega
        · rw [List.filter_cons_of_neg (by simpa using here), outside head member here]
          omega
  constructor
  · intro same index member here
    have counted := balance (List.Subset.refl indices)
    rw [same] at counted
    have some : 0 < (indices.filter touched).length :=
      List.length_pos_of_mem (List.mem_filter.mpr ⟨member, by simpa using here⟩)
    have length : new.length = old.length :=
      (Nat.eq_of_mul_eq_mul_left some (Nat.add_left_cancel counted)).symm
    have lengths : ∀ index ∈ indices, (after index).length = (before index).length := by
      intro other otherMember
      by_cases there : touched other
      · rw [(inside other otherMember there).1, (inside other otherMember there).2, length]
      · rw [outside other otherMember there]
    have unchanged := (flat_map_eq_iff_of_lengths lengths).mp same index member
    rw [← unchanged]
    exact (inside index member here).2
  · intro equal
    apply List.flatMap_congr
    intro index member
    by_cases here : touched index
    · rw [(inside index member here).2, equal index member here]
    · exact outside index member here

end Overwritten

/-! ## What the first elements miss -/

/-- The first `limit` elements hold as many hits as they can exactly when they are all
hits or no hit lies behind them. -/
theorem count_take_eq_min_iff (hit : α → Bool) (limit : Nat) (source : List α) :
    (source.take limit).countP hit = min limit (source.countP hit) ↔
      (∀ element ∈ source.take limit, hit element) ∨
      ∀ element ∈ source.drop limit, ¬hit element := by
  have whole : source.countP hit = (source.take limit).countP hit + (source.drop limit).countP hit := by
    rw [← List.countP_append, List.take_append_drop]
  have atMost : (source.take limit).countP hit ≤ (source.take limit).length := List.countP_le_length
  have length : (source.take limit).length = min limit source.length := List.length_take
  have left : (source.drop limit).length = source.length - limit := List.length_drop
  have behind : (source.drop limit).countP hit ≤ (source.drop limit).length := List.countP_le_length
  rw [← List.countP_eq_length, ← List.countP_eq_zero]
  omega

end BootEntropy.Lib
