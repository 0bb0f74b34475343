import BootEntropy.Lib.Bytes
import BootEntropy.Lib.Pairs
import Mathlib.Analysis.SpecialFunctions.Log.Base
import Mathlib.Data.Nat.Digits.Defs

/-!
# Streaming statistics of a captured slice

`analyze_reboot_slices.py` reads a slice in chunks and keeps a histogram and five
sums over neighbouring bytes. The sums are floats there and exact numbers here, so
the order of the additions does not matter. The state after some bytes is the
`summary` of these bytes alone, whatever the chunks were.
-/

namespace BootEntropy.RawDump.Slices

open BootEntropy.Lib

set_option autoImplicit false

/-! ## The state -/

structure State (R : Type) where
  counts : Vector Nat 256
  n : Nat
  prev : Option UInt8
  pairN : Nat
  pairSumX : R
  pairSumY : R
  pairSumX2 : R
  pairSumY2 : R
  pairSumXY : R
  deriving DecidableEq

variable {R : Type} [CommRing R]

def emptyState : State R where
  counts := Vector.replicate 256 0
  n := 0
  prev := none
  pairN := 0
  pairSumX := 0
  pairSumY := 0
  pairSumX2 := 0
  pairSumY2 := 0
  pairSumXY := 0

/-- The products are taken between the integers, before they meet the sums. -/
def addPair (state : State R) (x y : Nat) : State R :=
  { state with
    pairN := state.pairN + 1
    pairSumX := state.pairSumX + (x : R)
    pairSumY := state.pairSumY + (y : R)
    pairSumX2 := state.pairSumX2 + ((x * x : Nat) : R)
    pairSumY2 := state.pairSumY2 + ((y * y : Nat) : R)
    pairSumXY := state.pairSumXY + ((x * y : Nat) : R) }

/-- `counts[value] += 1` -/
def countByte (counts : Vector Nat 256) (value : UInt8) : Vector Nat 256 :=
  let cell : Fin 256 := ⟨value.toNat, value.toNat_lt⟩
  counts.set cell (counts[cell] + 1)

/-- `np.bincount(arr, minlength=256)` -/
def bincount (data : Bytes) : Vector Nat 256 :=
  Vector.ofFn fun value => data.countP fun byte => byte.toNat = value.val

def addCounts (counts more : Vector Nat 256) : Vector Nat 256 :=
  Vector.ofFn fun value => counts[value] + more[value]

/-- The NumPy sums over `xs = arr[:-1]` and `ys = arr[1:]`, taken as numbers. -/
def addArrays (state : State R) (xs ys : List R) : State R :=
  { state with
    pairN := state.pairN + xs.length
    pairSumX := state.pairSumX + xs.sum
    pairSumY := state.pairSumY + ys.sum
    pairSumX2 := state.pairSumX2 + (xs.zipWith (· * ·) xs).sum
    pairSumY2 := state.pairSumY2 + (ys.zipWith (· * ·) ys).sum
    pairSumXY := state.pairSumXY + (xs.zipWith (· * ·) ys).sum }

def joinChunk (state : State R) (first : UInt8) : State R :=
  match state.prev with
  | none => state
  | some prev => addPair state prev.toNat first.toNat

/-- `numpy` says whether the import succeeded (`np is not None`). -/
def updateStatsFromBytes (numpy : Bool) (data : Bytes) (state : State R) : State R :=
  let counts := if numpy then addCounts state.counts (bincount data)
    else data.foldl countByte state.counts
  let counted := { state with counts := counts, n := state.n + data.length }
  match data with
  | [] => counted
  | first :: _ =>
      let joined := joinChunk counted first
      let paired :=
        if numpy then
          if 1 < data.length then
            addArrays joined (data.dropLast.map fun byte => (byte.toNat : R))
              (data.tail.map fun byte => (byte.toNat : R))
          else joined
        else
          (data.dropLast.zip data.tail).foldl
            (fun state pair => addPair state pair.1.toNat pair.2.toNat) joined
      { paired with prev := data.getLast? }

/-! ## Adding pairs -/

def left (pair : UInt8 × UInt8) : R := (pair.1.toNat : R)

def right (pair : UInt8 × UInt8) : R := (pair.2.toNat : R)

def addAll (state : State R) (pairs : List (UInt8 × UInt8)) : State R :=
  { state with
    pairN := state.pairN + pairs.length
    pairSumX := state.pairSumX + (pairs.map left).sum
    pairSumY := state.pairSumY + (pairs.map right).sum
    pairSumX2 := state.pairSumX2 + (pairs.map fun pair => left pair * left pair).sum
    pairSumY2 := state.pairSumY2 + (pairs.map fun pair => right pair * right pair).sum
    pairSumXY := state.pairSumXY + (pairs.map fun pair => left pair * right pair).sum }

theorem add_all_nil (state : State R) : addAll state [] = state := by simp [addAll]

theorem add_all_append (state : State R) (first second : List (UInt8 × UInt8)) :
    addAll state (first ++ second) = addAll (addAll state first) second := by
  simp [addAll, add_assoc]

theorem add_pair_eq (state : State R) (pair : UInt8 × UInt8) :
    addPair state pair.1.toNat pair.2.toNat = addAll state [pair] := by
  simp [addAll, addPair, left, right]

theorem foldl_add_pair (state : State R) (pairs : List (UInt8 × UInt8)) :
    pairs.foldl (fun state pair => addPair state pair.1.toNat pair.2.toNat) state =
      addAll state pairs := by
  induction pairs generalizing state with
  | nil => rw [List.foldl_nil, add_all_nil]
  | cons pair rest ih =>
      rw [List.foldl_cons, ih, add_pair_eq, ← add_all_append]
      rfl

theorem add_arrays_eq (state : State R) (data : Bytes) :
    addArrays state (data.dropLast.map fun byte => (byte.toNat : R))
        (data.tail.map fun byte => (byte.toNat : R)) =
      addAll state (adjacent data) := by
  have width : data.dropLast.length = data.tail.length := by simp
  have lefts : data.dropLast = (adjacent data).map Prod.fst := by
    rw [← drop_last_zip_tail, List.map_fst_zip width.le]
  have rights : data.tail = (adjacent data).map Prod.snd := by
    rw [← drop_last_zip_tail, List.map_snd_zip width.ge]
  rw [lefts, rights]
  simp only [addArrays, addAll, List.map_map, List.length_map, List.zipWith_map, List.zipWith_self]
  rfl

/-! ## Counting bytes -/

theorem count_byte_get (counts : Vector Nat 256) (byte : UInt8) (value : Fin 256) :
    (countByte counts byte)[value] = counts[value] + if byte.toNat = value.val then 1 else 0 := by
  simp only [countByte, Fin.getElem_fin, Vector.getElem_set]
  split_ifs with same
  · simp [same]
  · rfl

theorem foldl_count_byte (data : Bytes) (counts : Vector Nat 256) :
    data.foldl countByte counts = addCounts counts (bincount data) := by
  have cell (value : Fin 256) : (data.foldl countByte counts)[value] =
      counts[value] + data.countP fun byte => byte.toNat = value.val := by
    induction data generalizing counts with
    | nil => simp
    | cons byte rest ih =>
        rw [List.foldl_cons, ih, count_byte_get, List.countP_cons]
        simp only [decide_eq_true_eq]
        omega
  apply Vector.ext
  intro index inside
  have here := cell ⟨index, inside⟩
  simpa [addCounts, bincount] using here

theorem add_counts_bincount (front data : Bytes) :
    addCounts (bincount front) (bincount data) = bincount (front ++ data) := by
  apply Vector.ext
  intro index inside
  simp [addCounts, bincount, List.countP_append]

/-! ## What one chunk does -/

/-- Both branches add the histogram of the chunk, the pair across the cut and the
pairs inside the chunk. -/
theorem update_stats_eq (numpy : Bool) (data : Bytes) (state : State R) :
    updateStatsFromBytes numpy data state =
      { addAll state (state.prev.toList.zip data.head?.toList ++ adjacent data) with
        counts := addCounts state.counts (bincount data)
        n := state.n + data.length
        prev := data.getLast?.or state.prev } := by
  have counted : (if numpy then addCounts state.counts (bincount data)
      else data.foldl countByte state.counts) = addCounts state.counts (bincount data) := by
    rw [foldl_count_byte, ite_self]
  cases data with
  | nil =>
      have no_pairs : state.prev.toList.zip ([] : Bytes).head?.toList ++ adjacent [] = [] := by
        simp [adjacent]
      rw [updateStatsFromBytes, counted, no_pairs, add_all_nil]
      rfl
  | cons first rest =>
      have joined (before : State R) : joinChunk before first =
          addAll before (before.prev.toList.zip [first]) := by
        rw [joinChunk]
        cases before.prev with
        | none => exact (add_all_nil before).symm
        | some prev => exact add_pair_eq before (prev, first)
      have inner (before : State R) :
          (if numpy then
            if 1 < (first :: rest).length then
              addArrays before ((first :: rest).dropLast.map fun byte => (byte.toNat : R))
                ((first :: rest).tail.map fun byte => (byte.toNat : R))
            else before
          else ((first :: rest).dropLast.zip (first :: rest).tail).foldl
            (fun state pair => addPair state pair.1.toNat pair.2.toNat) before) =
          addAll before (adjacent (first :: rest)) := by
        cases numpy with
        | false => rw [if_neg Bool.false_ne_true, foldl_add_pair, drop_last_zip_tail]
        | true =>
            rw [if_pos rfl]
            split_ifs with several
            · exact add_arrays_eq before (first :: rest)
            · have single : rest = [] := by
                apply List.eq_nil_of_length_eq_zero
                rw [List.length_cons] at several
                omega
              rw [single]
              exact (add_all_nil before).symm
      have last : (first :: rest).getLast?.or state.prev = (first :: rest).getLast? := by
        rw [List.getLast?_cons, Option.some_or]
      simp only [updateStatsFromBytes, counted, joined, inner, last, add_all_append]
      simp [addAll]

/-- The state that a byte string determines: its histogram, its length, its last
byte, and the sums over all its neighbouring pairs. -/
def summary (data : Bytes) : State R where
  counts := bincount data
  n := data.length
  prev := data.getLast?
  pairN := (adjacent data).length
  pairSumX := ((adjacent data).map left).sum
  pairSumY := ((adjacent data).map right).sum
  pairSumX2 := ((adjacent data).map fun pair => left pair * left pair).sum
  pairSumY2 := ((adjacent data).map fun pair => right pair * right pair).sum
  pairSumXY := ((adjacent data).map fun pair => left pair * right pair).sum

theorem empty_state_eq : (emptyState : State R) = summary [] := by
  have counts : Vector.replicate 256 0 = bincount [] := by
    apply Vector.ext
    simp [bincount]
  simp [emptyState, summary, adjacent, counts]

theorem update_stats_summary (numpy : Bool) (front data : Bytes) :
    updateStatsFromBytes numpy data (summary front : State R) = summary (front ++ data) := by
  rw [update_stats_eq]
  have cut : (summary front : State R).prev.toList.zip data.head?.toList = across front data := rfl
  have last : data.getLast?.or (summary front : State R).prev = (front ++ data).getLast? :=
    List.getLast?_append.symm
  have counts : addCounts (summary front : State R).counts (bincount data) =
      bincount (front ++ data) := add_counts_bincount front data
  rw [cut, last, counts]
  simp [summary, addAll, adjacent_append]

/-- The fold of one file, `for chunk in …: update_stats_from_bytes(chunk, state)`. -/
def foldChunks (numpy : Bool) (chunks : List Bytes) (state : State R) : State R :=
  chunks.foldl (fun state chunk => updateStatsFromBytes numpy chunk state) state

theorem fold_chunks_summary (numpy : Bool) (chunks : List Bytes) (front : Bytes) :
    foldChunks numpy chunks (summary front : State R) = summary (front ++ chunks.flatten) := by
  induction chunks generalizing front with
  | nil => simp [foldChunks]
  | cons chunk rest ih =>
      have step := ih (front ++ chunk)
      rw [foldChunks, List.foldl_cons, update_stats_summary, List.flatten_cons,
        ← List.append_assoc]
      exact step

theorem fold_chunks_eq (numpy : Bool) (chunks : List Bytes) :
    foldChunks numpy chunks (emptyState : State R) = summary chunks.flatten := by
  rw [empty_state_eq, fold_chunks_summary, List.nil_append]

/-- Any cut of a byte string into chunks gives the same state, with or without NumPy. -/
theorem stats_of_chunks (numpy : Bool) (data : Bytes) (chunks : List Bytes)
    (cut : chunks.flatten = data) :
    let state : State R := foldChunks numpy chunks emptyState
    (∀ value : UInt8, state.counts.toList[value.toNat]? = some (data.count value)) ∧
    state.n = data.length ∧
    state.prev = data.getLast? ∧
    state.pairN = data.length - 1 ∧
    state.pairSumX = ((data.zip data.tail).map fun pair => (pair.1.toNat : R)).sum ∧
    state.pairSumY = ((data.zip data.tail).map fun pair => (pair.2.toNat : R)).sum ∧
    state.pairSumX2 =
      ((data.zip data.tail).map fun pair => (pair.1.toNat : R) * pair.1.toNat).sum ∧
    state.pairSumY2 =
      ((data.zip data.tail).map fun pair => (pair.2.toNat : R) * pair.2.toNat).sum ∧
    state.pairSumXY =
      ((data.zip data.tail).map fun pair => (pair.1.toNat : R) * pair.2.toNat).sum ∧
    foldChunks true chunks (emptyState : State R) = foldChunks false chunks emptyState ∧
    ∀ (chunk : Bytes) (before : State R),
      updateStatsFromBytes true chunk before = updateStatsFromBytes false chunk before := by
  intro state
  have whole : state = summary data := by rw [← cut, ← fold_chunks_eq numpy]
  have branches : foldChunks true chunks (emptyState : State R) =
      foldChunks false chunks emptyState := by
    rw [fold_chunks_eq, fold_chunks_eq]
  have one_branch (chunk : Bytes) (before : State R) :
      updateStatsFromBytes true chunk before = updateStatsFromBytes false chunk before := by
    rw [update_stats_eq, update_stats_eq]
  have histogram (value : UInt8) :
      (bincount data).toList[value.toNat]? = some (data.count value) := by
    have inside : value.toNat < 256 := value.toNat_lt
    simp only [bincount, Vector.toList_ofFn, List.getElem?_ofFn, dif_pos inside, List.count]
    congr 2
    funext byte
    simp only [UInt8.toNat_inj, beq_eq_decide]
  rw [whole]
  exact ⟨histogram, rfl, rfl, adjacent_length data, rfl, rfl, rfl, rfl, rfl, branches,
    one_branch⟩

theorem stats_of_chunks_three :
    let state : State ℤ := foldChunks true [[1, 2], [3], [5, 2]] emptyState
    state.counts.toList[2]? = some 2 ∧ state.pairN = 4 ∧ state.pairSumXY = 33 := by
  obtain ⟨histogram, -, -, pairs, -, -, -, -, product, -⟩ :=
    stats_of_chunks (R := ℤ) true [1, 2, 3, 5, 2] [[1, 2], [3], [5, 2]] (by decide)
  exact ⟨histogram 2, pairs, product⟩

/-! ## The reported metrics -/

def bin (value : Nat) : List Char := '0' :: 'b' :: Nat.toDigits 2 value

/-- `BIT_COUNTS` -/
def bitCounts : List Nat := (List.range 256).map fun value => (bin value).count '1'

structure Metrics where
  bytes : Nat
  entropyBitsPerByte : ℝ
  mcvMinEntropyBitsPerByte : ℝ
  chiSquare : ℝ
  chiSquareExceedPercent : ℝ
  meanByte : ℝ
  onesRatio : ℝ
  serialCorrelation : ℝ
  mostCommonByteCount : Nat

/-- `numerator`, and with `y` equal to `x` also `denom_x` and `denom_y`. -/
def scaledCovariance (pairN : Nat) (sumX sumY sumXY : R) : R := pairN * sumXY - sumX * sumY

def denominator (pairN : Nat) (sum sum2 : R) : R := scaledCovariance pairN sum sum sum2

/-- `serial` in real numbers, where the square root is exact. -/
noncomputable def serial (pairN : Nat) (sumX sumY sumX2 sumY2 sumXY : ℝ) : ℝ :=
  if 1 < pairN then
    let numerator := scaledCovariance pairN sumX sumY sumXY
    let denomX := denominator pairN sumX sumX2
    let denomY := denominator pairN sumY sumY2
    let denom := √(max denomX 0 * max denomY 0)
    if denom ≠ 0 then numerator / denom else 0
  else 0

/-- `chiSquareExceed` stands for the tail of the distribution, taken from SciPy or
approximated. -/
noncomputable def metricsFromCounts (chiSquareExceed : ℝ → ℝ) (counts : Vector Nat 256)
    (n pairN : Nat) (sumX sumY sumX2 sumY2 sumXY : ℝ) : Except String Metrics :=
  if n ≤ 0 then .error "empty input"
  else
    let probs := (counts.toList.filter (· ≠ 0)).map fun count => (count : ℝ) / n
    let expected : ℝ := n / 256
    let chiSquare := (counts.toList.map fun count => ((count : ℝ) - expected) ^ 2 / expected).sum
    let maxCount := counts.toList.foldl max 0
    let byteSum := (counts.toList.zipIdx.map fun cell => cell.2 * cell.1).sum
    let ones := (counts.toList.zipIdx.map fun cell => bitCounts.getD cell.2 0 * cell.1).sum
    .ok {
      bytes := n
      entropyBitsPerByte := -(probs.map fun p => p * Real.logb 2 p).sum
      mcvMinEntropyBitsPerByte := -Real.logb 2 (maxCount / n)
      chiSquare := chiSquare
      chiSquareExceedPercent := chiSquareExceed chiSquare
      meanByte := byteSum / n
      onesRatio := ones / (n * 8)
      serialCorrelation := serial pairN sumX sumY sumX2 sumY2 sumXY
      mostCommonByteCount := maxCount }

noncomputable def finalizeState (chiSquareExceed : ℝ → ℝ) (state : State ℝ) :
    Except String Metrics :=
  metricsFromCounts chiSquareExceed state.counts state.n state.pairN state.pairSumX
    state.pairSumY state.pairSumX2 state.pairSumY2 state.pairSumXY

/-! ## Reading a slice -/

/-- The blocks that `fh.read(size)` returns until the file is at its end. -/
def readBlocks (size : Nat) (rest : Bytes) : List Bytes :=
  if _ : rest.take size = [] then []
  else rest.take size :: readBlocks size (rest.drop size)
termination_by rest.length
decreasing_by
  have content := List.length_pos_of_ne_nil ‹rest.take size ≠ []›
  rw [List.length_take] at content
  rw [List.length_drop]
  omega

theorem read_blocks_flatten {size : Nat} (positive : 0 < size) (rest : Bytes) :
    (readBlocks size rest).flatten = rest := by
  induction rest using readBlocks.induct size with
  | case1 rest ended =>
      rw [readBlocks, dif_pos ended, List.flatten_nil]
      rcases List.take_eq_nil_iff.mp ended with zero | nothing
      · omega
      · exact nothing.symm
  | case2 rest going ih =>
      rw [readBlocks, dif_neg going, List.flatten_cons, ih, List.take_append_drop]

noncomputable def metricsForFile (numpy : Bool) (chiSquareExceed : ℝ → ℝ) (file : Bytes) :
    Except String Metrics :=
  finalizeState chiSquareExceed (foldChunks numpy (readBlocks (1024 * 1024) file) emptyState)

noncomputable def windowsFrom (numpy : Bool) (chiSquareExceed : ℝ → ℝ) (index offset : Nat) :
    List Bytes → Except String (List (Nat × Nat × Metrics))
  | [] => .ok []
  | data :: rest => do
      let metrics ← finalizeState chiSquareExceed (updateStatsFromBytes numpy data emptyState)
      let later ← windowsFrom numpy chiSquareExceed (index + 1) (offset + data.length) rest
      return (index, offset, metrics) :: later

noncomputable def iterWindows (numpy : Bool) (chiSquareExceed : ℝ → ℝ) (windowBytes : Nat)
    (file : Bytes) : Except String (List (Nat × Nat × Metrics)) :=
  windowsFrom numpy chiSquareExceed 0 0 (readBlocks windowBytes file)

theorem metrics_for_file_eq (numpy : Bool) (chiSquareExceed : ℝ → ℝ) (file : Bytes) :
    metricsForFile numpy chiSquareExceed file = finalizeState chiSquareExceed (summary file) := by
  rw [metricsForFile, fold_chunks_eq, read_blocks_flatten (by decide)]

/-- One window as large as the file reports what the whole file reports. -/
theorem iter_windows_whole (numpy : Bool) (chiSquareExceed : ℝ → ℝ) {windowBytes : Nat}
    {file : Bytes} (nonempty : file ≠ []) (large : file.length ≤ windowBytes) :
    iterWindows numpy chiSquareExceed windowBytes file =
      (metricsForFile numpy chiSquareExceed file).map fun metrics => [(0, 0, metrics)] := by
  have first : file.take windowBytes = file := List.take_of_length_le large
  have rest : file.drop windowBytes = [] := List.drop_of_length_le large
  have blocks : readBlocks windowBytes file = [file] := by
    rw [readBlocks, first, dif_neg nonempty, rest, readBlocks, dif_pos List.take_nil]
  rw [iterWindows, blocks, windowsFrom, empty_state_eq, update_stats_summary, List.nil_append,
    metrics_for_file_eq]
  cases finalizeState chiSquareExceed (summary file) <;> rfl

/-! ## The correlation -/

/-- The five sums of a summary come from one list of pairs. -/
theorem summary_covariance (data : Bytes) :
    scaledCovariance (summary data : State R).pairN (summary data : State R).pairSumX
        (summary data : State R).pairSumY (summary data : State R).pairSumXY =
      spread (adjacent data) left right := rfl

theorem summary_denom_x (data : Bytes) :
    denominator (summary data : State R).pairN (summary data : State R).pairSumX
        (summary data : State R).pairSumX2 =
      spread (adjacent data) left left := rfl

theorem summary_denom_y (data : Bytes) :
    denominator (summary data : State R).pairN (summary data : State R).pairSumY
        (summary data : State R).pairSumY2 =
      spread (adjacent data) right right := rfl

theorem abs_serial_le (pairN : Nat) (sumX sumY sumX2 sumY2 sumXY : ℝ)
    (firstPositive : 0 ≤ denominator pairN sumX sumX2)
    (secondPositive : 0 ≤ denominator pairN sumY sumY2)
    (bounded : scaledCovariance pairN sumX sumY sumXY ^ 2 ≤
      denominator pairN sumX sumX2 * denominator pairN sumY sumY2) :
    |serial pairN sumX sumY sumX2 sumY2 sumXY| ≤ 1 := by
  simp only [serial, max_eq_left firstPositive, max_eq_left secondPositive]
  split_ifs with several nonzero
  · have root := Real.abs_le_sqrt bounded
    rw [abs_div, abs_of_nonneg (Real.sqrt_nonneg _)]
    apply div_le_one_of_le₀ root
    exact Real.sqrt_nonneg _
  · simp
  · simp

/-- The variances are never negative, the clamps never change them, and the quotient
is a correlation. -/
theorem serial_correlation_bounded (numpy : Bool) (chiSquareExceed : ℝ → ℝ) (data : Bytes)
    (chunks : List Bytes) (cut : chunks.flatten = data) (nonempty : data ≠ []) :
    let state : State ℝ := foldChunks numpy chunks emptyState
    let numerator := scaledCovariance state.pairN state.pairSumX state.pairSumY state.pairSumXY
    let denomX := denominator state.pairN state.pairSumX state.pairSumX2
    let denomY := denominator state.pairN state.pairSumY state.pairSumY2
    0 ≤ denomX ∧ 0 ≤ denomY ∧ max denomX 0 = denomX ∧ max denomY 0 = denomY ∧
    numerator ^ 2 ≤ denomX * denomY ∧ 0 ≤ max denomX 0 * max denomY 0 ∧
    ∃ metrics, finalizeState chiSquareExceed state = .ok metrics ∧
      metrics.serialCorrelation ∈ Set.Icc (-1) 1 := by
  intro state numerator denomX denomY
  have whole : state = summary data := by rw [← cut, ← fold_chunks_eq numpy]
  have xNonneg : 0 ≤ denomX := by
    simp only [denomX, whole, summary_denom_x]
    exact spread_self_nonneg _ _
  have yNonneg : 0 ≤ denomY := by
    simp only [denomY, whole, summary_denom_y]
    exact spread_self_nonneg _ _
  have bounded : numerator ^ 2 ≤ denomX * denomY := by
    simp only [numerator, denomX, denomY, whole, summary_covariance, summary_denom_x,
      summary_denom_y]
    exact spread_sq_le _ _ _
  have full : ¬state.n ≤ 0 := by
    rw [whole]
    exact Nat.not_le_of_lt (List.length_pos_of_ne_nil nonempty)
  refine ⟨xNonneg, yNonneg, max_eq_left xNonneg, max_eq_left yNonneg, bounded, ?_, ?_⟩
  · rw [max_eq_left xNonneg, max_eq_left yNonneg]
    exact mul_nonneg xNonneg yNonneg
  · rw [finalizeState, metricsFromCounts, if_neg full]
    exact ⟨_, rfl, abs_le.mp (abs_serial_le _ _ _ _ _ _ xNonneg yNonneg bounded)⟩

theorem serial_correlation_bounded_three :
    ∃ metrics, finalizeState id (foldChunks false [[1, 2], [3]] emptyState) = .ok metrics ∧
      metrics.serialCorrelation ∈ Set.Icc (-1) 1 :=
  (serial_correlation_bounded false id [1, 2, 3] [[1, 2], [3]] (by decide) (by decide)).2.2.2.2.2.2

end BootEntropy.RawDump.Slices
