import BootEntropy.Lib.Entropy
import BootEntropy.RawDump.Slices

/-!
# What the metrics of a slice measure

The histogram determines the entropy, the most common byte, the mean byte and the share
of ones. Metrics of parts of a slice go together with the metrics of the whole.
-/

namespace BootEntropy.RawDump.Slices

open BootEntropy.Lib

set_option autoImplicit false

/-! ## The histogram -/

def cell (byte : UInt8) : Fin 256 := ⟨byte.toNat, byte.toNat_lt⟩

def cells (data : Bytes) : List (Fin 256) := data.map cell

theorem cells_length (data : Bytes) : (cells data).length = data.length := List.length_map _

theorem bincount_to_list (data : Bytes) :
    (bincount data).toList = List.ofFn fun value => (cells data).count value := by
  rw [bincount, Vector.toList_ofFn]
  congr 1
  funext value
  rw [cells, List.count, List.countP_map]
  apply List.countP_congr
  intro byte _
  simp [cell, Fin.ext_iff]

theorem sum_of_fn_zip_idx {n : Nat} (counts : Fin n → Nat) (weight : Nat → Nat) :
    ((List.ofFn counts).zipIdx.map fun cell => weight cell.2 * cell.1).sum =
      ∑ value : Fin n, weight value * counts value := by
  have cells : (List.ofFn counts).zipIdx.map (fun cell => weight cell.2 * cell.1) =
      List.ofFn fun value => weight value * counts value := by
    apply List.ext_getElem
    · simp
    · intro index _ _
      simp
  rw [cells, List.sum_ofFn]

theorem sum_weighed (weight : Nat → Nat) (data : Bytes) :
    ∑ value : Fin 256, weight value * (cells data).count value =
      (data.map fun byte => weight byte.toNat).sum := by
  induction data with
  | nil => simp [cells]
  | cons byte rest ih =>
      have step (value : Fin 256) : weight value * (cells (byte :: rest)).count value =
          weight value * (cells rest).count value + if cell byte = value then weight value else 0 := by
        rw [cells, List.map_cons, List.count_cons, Nat.mul_add]
        simp [cells]
      rw [Finset.sum_congr rfl fun value _ => step value, Finset.sum_add_distrib, ih,
        Finset.sum_ite_eq, if_pos (Finset.mem_univ _), List.map_cons, List.sum_cons, Nat.add_comm]
      rfl

theorem foldl_max_le_iff (values : List Nat) (bound : Nat) :
    ∀ start, values.foldl max start ≤ bound ↔ start ≤ bound ∧ ∀ value ∈ values, value ≤ bound := by
  induction values with
  | nil => simp
  | cons value rest ih =>
      intro start
      rw [List.foldl_cons, ih, List.forall_mem_cons, max_le_iff, and_assoc]

theorem max_of_fn (data : Bytes) :
    (List.ofFn fun value => (cells data).count value).foldl max 0 = mostCommon (cells data) := by
  apply eq_of_forall_ge_iff
  intro bound
  rw [foldl_max_le_iff, mostCommon, Finset.sup_le_iff, List.forall_mem_ofFn_iff]
  simp

theorem casts_eq (counts : List Nat) :
    (do let count ← counts; pure (count : ℝ)) = counts.map fun count : Nat => (count : ℝ) :=
  List.flatMap_pure_eq_map _ _

theorem sum_probs {n : Nat} (counts : Fin n → Nat) (total : Nat) :
    ((((List.ofFn counts).filter (· ≠ 0)).map fun count : Nat => (count : ℝ)).map
        fun count => count / total * Real.logb 2 (count / total)).sum =
      ∑ value, (counts value / total : ℝ) * Real.logb 2 (counts value / total) := by
  have skipped (values : List Nat) :
      (((values.filter (· ≠ 0)).map fun count : Nat => (count : ℝ)).map
        fun count => count / total * Real.logb 2 (count / total)).sum =
      ((values.map fun count : Nat => (count : ℝ)).map
        fun count => count / total * Real.logb 2 (count / total)).sum := by
    induction values with
    | nil => rfl
    | cons value rest ih =>
        rw [List.map_cons, List.map_cons, List.sum_cons, ← ih]
        by_cases zero : value = 0
        · rw [List.filter_cons_of_neg (by simp [zero]), zero]
          simp
        · rw [List.filter_cons_of_pos (by simp [zero]), List.map_cons, List.map_cons, List.sum_cons]
  rw [skipped, List.map_ofFn, List.map_ofFn, List.sum_ofFn]
  rfl

/-! ## The metrics -/

structure Measures (data : Bytes) (metrics : Metrics) : Prop where
  bytes : metrics.bytes = data.length
  entropy : metrics.entropyBitsPerByte = shannon 2 (cells data)
  minEntropy : metrics.mcvMinEntropyBitsPerByte =
    -Real.logb 2 (mostCommon (cells data) / data.length)
  meanByte : metrics.meanByte = ((data.map UInt8.toNat).sum : Nat) / (data.length : ℝ)
  onesRatio : metrics.onesRatio =
    ((data.map fun byte => bitCounts.getD byte.toNat 0).sum : Nat) / (data.length * 8 : ℝ)

theorem finalize_measures (chiSquareExceed : ℝ → ℝ) {data : Bytes} (nonempty : data ≠ []) :
    ∃ metrics, finalizeState chiSquareExceed (summary data) = .ok metrics ∧
      Measures data metrics := by
  have full : ¬(summary data : State ℝ).n ≤ 0 := Nat.not_le_of_lt (List.length_pos_of_ne_nil nonempty)
  rw [finalizeState, metricsFromCounts, if_neg full]
  refine ⟨_, rfl, ?_⟩
  have counts : (summary data : State ℝ).counts = bincount data := rfl
  have size : (summary data : State ℝ).n = data.length := rfl
  rw [counts, size, bincount_to_list]
  constructor
  · rfl
  · dsimp only
    rw [casts_eq, List.map_map, Function.comp_def, sum_probs, shannon, ← Finset.sum_neg_distrib,
      Finset.sum_div]
    apply Finset.sum_congr rfl
    intro value _
    rw [frequency, cells_length, Real.negMulLog, Real.logb, ← mul_div_assoc, neg_mul, neg_div]
  · dsimp only
    rw [max_of_fn]
  · dsimp only
    rw [sum_of_fn_zip_idx _ fun value => value, sum_weighed fun value => value]
  · dsimp only
    rw [sum_of_fn_zip_idx _ (bitCounts.getD · 0), sum_weighed (bitCounts.getD · 0)]

/-! ## Parts of a slice -/

/-- Metrics of the parts and of the whole. Both averages are exact, and no part looks
worse in the whole than alone. -/
structure Combines (parts : List Metrics) (whole : Metrics) : Prop where
  bytes : (parts.map Metrics.bytes).sum = whole.bytes
  entropy : (parts.map fun part => (part.bytes : ℝ) * part.entropyBitsPerByte).sum ≤
    whole.bytes * whole.entropyBitsPerByte
  minEntropy : ∃ part ∈ parts, part.mcvMinEntropyBitsPerByte ≤ whole.mcvMinEntropyBitsPerByte
  meanByte : (parts.map fun part => (part.bytes : ℝ) * part.meanByte).sum = whole.bytes * whole.meanByte
  onesRatio : (parts.map fun part => (part.bytes : ℝ) * part.onesRatio).sum = whole.bytes * whole.onesRatio

theorem map_of_measures {β : Type} {value : Metrics → β} {own : Bytes → β} {chunks : List Bytes}
    {parts : List Metrics} (measured : List.Forall₂ Measures chunks parts)
    (same : ∀ chunk ∈ chunks, ∀ part, Measures chunk part → value part = own chunk) :
    parts.map value = chunks.map own := by
  induction measured with
  | nil => rfl
  | cons first _ ih =>
      rw [List.forall_mem_cons] at same
      rw [List.map_cons, List.map_cons, same.1 _ first, ih same.2]

theorem exists_measured {chunks : List Bytes} {parts : List Metrics} {chunk : Bytes}
    (measured : List.Forall₂ Measures chunks parts) (member : chunk ∈ chunks) :
    ∃ part ∈ parts, Measures chunk part := by
  induction measured with
  | nil => cases member
  | cons first _ ih =>
      rcases List.mem_cons.mp member with rfl | behind
      · exact ⟨_, List.mem_cons_self .., first⟩
      · obtain ⟨part, inside, own⟩ := ih behind
        exact ⟨part, List.mem_cons_of_mem _ inside, own⟩

theorem sum_flatten (weight : UInt8 → Nat) (chunks : List Bytes) :
    (chunks.map fun chunk => (((chunk.map weight).sum : Nat) : ℝ)).sum =
      (((chunks.flatten.map weight).sum : Nat) : ℝ) := by
  induction chunks with
  | nil => simp
  | cons chunk chunks ih =>
      rw [List.map_cons, List.sum_cons, ih, List.flatten_cons, List.map_append, List.sum_append,
        Nat.cast_add]

theorem Measures.mean_bytes {data : Bytes} {metrics : Metrics} (measured : Measures data metrics)
    (nonempty : data ≠ []) :
    metrics.bytes * metrics.meanByte = ((data.map UInt8.toNat).sum : Nat) := by
  have size : (data.length : ℝ) ≠ 0 := by simpa using nonempty
  rw [measured.bytes, measured.meanByte, mul_div_cancel₀ _ size]

theorem Measures.ones_bytes {data : Bytes} {metrics : Metrics} (measured : Measures data metrics)
    (nonempty : data ≠ []) :
    metrics.bytes * metrics.onesRatio =
      ((data.map fun byte => bitCounts.getD byte.toNat 0).sum : Nat) / 8 := by
  have size : (data.length : ℝ) ≠ 0 := by simpa using nonempty
  rw [measured.bytes, measured.onesRatio]
  field_simp

theorem combines {chunks : List Bytes} {parts : List Metrics} {whole : Metrics}
    (solid : ∀ chunk ∈ chunks, chunk ≠ []) (some : chunks ≠ [])
    (measured : List.Forall₂ Measures chunks parts) (total : Measures chunks.flatten whole) :
    Combines parts whole := by
  have full : chunks.flatten ≠ [] := by
    obtain ⟨chunk, member⟩ := List.exists_mem_of_ne_nil chunks some
    intro empty
    exact solid chunk member (List.flatten_eq_nil_iff.mp empty chunk member)
  have joined : (chunks.map cells).flatten = cells chunks.flatten := List.map_flatten.symm
  constructor
  · rw [map_of_measures measured fun _ _ _ own => own.bytes, total.bytes, List.length_flatten]
  · have above := shannon_flatten_le one_lt_two (chunks.map cells)
    have parted := @map_of_measures ℝ _ (fun chunk => chunk.length * shannon 2 (cells chunk)) _ _
      measured fun _ _ part own => by
        show (part.bytes : ℝ) * part.entropyBitsPerByte = _
        rw [own.bytes, own.entropy]
    rw [joined, cells_length, List.map_map] at above
    rw [parted, total.bytes, total.entropy]
    convert above using 3
    funext chunk
    rw [Function.comp_apply, cells_length]
  · have several : chunks.map cells ≠ [] := mt List.map_eq_nil_iff.mp some
    obtain ⟨_, member, common⟩ := exists_most_common_le several
    obtain ⟨chunk, inside, rfl⟩ := List.mem_map.mp member
    obtain ⟨part, part_member, own⟩ := exists_measured measured inside
    refine ⟨part, part_member, ?_⟩
    rw [joined, cells_length, cells_length] at common
    rw [own.minEntropy, total.minEntropy]
    apply neg_le_neg
    have size : (0 : ℝ) < chunk.length := by
      exact_mod_cast List.length_pos_of_ne_nil (solid chunk inside)
    have whole_size : (0 : ℝ) < chunks.flatten.length := by
      exact_mod_cast List.length_pos_of_ne_nil full
    have most : (0 : ℝ) < mostCommon (cells chunks.flatten) := by
      exact_mod_cast most_common_pos (mt List.map_eq_nil_iff.mp full)
    apply Real.logb_le_logb_of_le one_lt_two (div_pos most whole_size)
    rw [div_le_div_iff₀ whole_size size]
    exact_mod_cast common
  · rw [map_of_measures measured fun chunk member _ own => own.mean_bytes (solid chunk member),
      sum_flatten, total.mean_bytes full]
  · rw [map_of_measures measured fun chunk member _ own => own.ones_bytes (solid chunk member),
      total.ones_bytes full, ← sum_flatten, div_eq_mul_inv, ← List.sum_map_mul_right]
    rfl

end BootEntropy.RawDump.Slices
