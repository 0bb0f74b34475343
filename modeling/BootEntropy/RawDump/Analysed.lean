import BootEntropy.RawDump.Analysis

/-!
# What the analysis says of the dataset

Over a dataset that was collected with any number of resumed starts the analysis always
succeeds. Its rows are those of the manifest, its averages are those of the aggregate,
and the windows of a slice put the slice together.
-/

namespace BootEntropy.RawDump.Reboots

open BootEntropy.Lib
open BootEntropy.RawDump.Slices

set_option autoImplicit false

/-! ## Statistics of a column -/

theorem foldl_min_le (rest : List ℝ) :
    ∀ start, rest.foldl min start ≤ start ∧ ∀ value ∈ rest, rest.foldl min start ≤ value := by
  induction rest with
  | nil => simp
  | cons value rest ih =>
      intro start
      have below := ih (min start value)
      rw [List.foldl_cons, List.forall_mem_cons]
      exact ⟨below.1.trans (min_le_left _ _), below.1.trans (min_le_right _ _), below.2⟩

theorem stat_range_min {values : List ℝ} {value : ℝ} (member : value ∈ values) :
    ∃ least, (statRange values).min = some least ∧ least ≤ value := by
  cases values with
  | nil => cases member
  | cons first rest =>
      refine ⟨_, rfl, ?_⟩
      have below := foldl_min_le rest first
      rcases List.mem_cons.mp member with rfl | behind
      · exact below.1
      · exact below.2 value behind

theorem stat_range_mean {values : List ℝ} (nonempty : values ≠ []) :
    (statRange values).mean = some (mean values) := by
  cases values with
  | nil => exact absurd rfl nonempty
  | cons first rest => rfl

theorem mean_of_weighed {parts : List Metrics} {whole : Metrics} {size : Nat} (positive : 0 < size)
    (some : parts ≠ []) (combined : Combines parts whole)
    (equal : ∀ part ∈ parts, part.bytes = size) (value : Metrics → ℝ) :
    (parts.map fun part => (part.bytes : ℝ) * value part).sum =
      whole.bytes * mean (parts.map value) := by
  have count : (parts.length : ℝ) ≠ 0 := by simpa using some
  have sizes : parts.map Metrics.bytes = List.replicate parts.length size := by
    rw [List.eq_replicate_iff, List.length_map]
    refine ⟨rfl, ?_⟩
    intro length member
    obtain ⟨part, inside, rfl⟩ := List.mem_map.mp member
    exact equal part inside
  have weighed : (parts.map fun part => (part.bytes : ℝ) * value part) =
      parts.map fun part => (size : ℝ) * value part :=
    List.map_congr_left fun part inside => by rw [equal part inside]
  rw [weighed, List.sum_map_mul_left, ← combined.bytes, sizes, List.sum_replicate, mean,
    List.length_map, smul_eq_mul, Nat.cast_mul]
  field_simp

/-- Parts of one size combine to their averages. -/
theorem combined_averages {parts : List Metrics} {whole : Metrics} {size : Nat}
    (combined : Combines parts whole) (positive : 0 < size) (some : parts ≠ [])
    (equal : ∀ part ∈ parts, part.bytes = size) :
    whole.meanByte = mean (parts.map Metrics.meanByte) ∧
      whole.onesRatio = mean (parts.map Metrics.onesRatio) ∧
      mean (parts.map Metrics.entropyBitsPerByte) ≤ whole.entropyBitsPerByte := by
  have weighed := mean_of_weighed positive some combined equal
  have filled : (0 : ℝ) < whole.bytes := by
    obtain ⟨first, rest, rfl⟩ := List.exists_cons_of_ne_nil some
    rw [← combined.bytes, List.map_cons, List.sum_cons, equal first (List.mem_cons_self ..)]
    exact Nat.cast_pos.mpr (Nat.add_pos_left positive _)
  refine ⟨?_, ?_, ?_⟩
  · exact mul_left_cancel₀ filled.ne' (combined.meanByte.symm.trans (weighed Metrics.meanByte))
  · exact mul_left_cancel₀ filled.ne' (combined.onesRatio.symm.trans (weighed Metrics.onesRatio))
  · have below := combined.entropy
    rw [weighed Metrics.entropyBitsPerByte] at below
    exact le_of_mul_le_mul_left below filled

/-! ## Repeated slices -/

theorem mem_duplicate_run_groups {values : List Text} {left right : Nat} (different : left ≠ right)
    (leftInside : left < values.length) (rightInside : right < values.length) :
    (∃ runs ∈ duplicateRunGroups values, left + 1 ∈ runs ∧ right + 1 ∈ runs) ↔
      values[left] = values[right] := by
  have numbered {index : Nat} (inside : index < values.length) {value : Text} :
      (value, index + 1) ∈ values.zipIdx 1 ↔ values[index] = value := by
    rw [List.mk_mem_zipIdx_iff_le_and_getElem?_sub, Nat.add_sub_cancel,
      List.getElem?_eq_getElem inside, Option.some_inj]
    exact and_iff_right (Nat.le_add_left 1 index)
  have inGroup {index : Nat} (inside : index < values.length) (value : Text) :
      index + 1 ∈ ((values.zipIdx 1).filter fun row => row.1 = value).map Prod.snd ↔
        values[index] = value := by
    rw [List.mem_map, ← numbered inside]
    constructor
    · rintro ⟨⟨other, place⟩, member, same⟩
      rw [List.mem_filter, decide_eq_true_eq] at member
      obtain ⟨held, rfl⟩ := member
      rw [← same]
      exact held
    · intro held
      exact ⟨_, List.mem_filter.mpr ⟨held, decide_eq_true rfl⟩, rfl⟩
  constructor
  · rintro ⟨runs, member, first, second⟩
    obtain ⟨group, held, rfl⟩ := List.mem_map.mp (List.mem_filter.mp member).1
    rw [((mem_group_rows _ _).mp held).2] at first second
    rw [(inGroup leftInside _).mp first, (inGroup rightInside _).mp second]
  · intro same
    have first := (inGroup leftInside values[left]).mpr rfl
    have second := (inGroup rightInside values[left]).mpr same.symm
    have held : (values[left], ((values.zipIdx 1).filter fun row => row.1 = values[left]).map
        Prod.snd) ∈ groupRows Prod.fst Prod.snd (values.zipIdx 1) :=
      (mem_group_rows _ _).mpr ⟨List.mem_map_of_mem ((numbered leftInside).mpr rfl), rfl⟩
    refine ⟨_, List.mem_filter.mpr ⟨List.mem_map_of_mem held, ?_⟩, first, second⟩
    apply decide_eq_true
    by_contra single
    dsimp only at single
    obtain ⟨only, alone⟩ : ∃ only, ((values.zipIdx 1).filter fun row =>
        row.1 = values[left]).map Prod.snd = [only] := by
      apply List.length_eq_one_iff.mp
      have some := List.length_pos_of_mem first
      omega
    rw [alone, List.mem_singleton] at first second
    omega

theorem duplicate_run_groups_sum (values : List Text) :
    values.dedup.length +
      ((duplicateRunGroups values).map fun runs => runs.length - 1).sum = values.length := by
  have total := repeated_groups_sum (Prod.fst : Text × Nat → Text) Prod.snd (values.zipIdx 1)
  rw [List.zipIdx_map_fst, List.length_zipIdx] at total
  rw [duplicateRunGroups, List.filter_map, List.map_map]
  exact total

/-! ## Windows -/

theorem read_blocks_solid {size : Nat} (rest : Bytes) :
    ∀ block ∈ readBlocks size rest, block ≠ [] := by
  induction rest using readBlocks.induct size with
  | case1 rest ended =>
      rw [readBlocks, dif_pos ended]
      simp
  | case2 rest going ih =>
      rw [readBlocks, dif_neg going, List.forall_mem_cons]
      exact ⟨going, ih⟩

theorem windows_from_ok (numpy : Bool) (chiSquareExceed : ℝ → ℝ) {size : Nat} (rest : Bytes) :
    ∀ index offset, ∃ windows,
      windowsFrom numpy chiSquareExceed index offset (readBlocks size rest) = .ok windows ∧
      List.Forall₂ Measures (readBlocks size rest) (windows.map fun window => window.2.2) ∧
      windows.map Prod.fst = List.range' index (readBlocks size rest).length ∧
      ∀ window ∈ windows, window.2.1 = offset + (window.1 - index) * size ∧
        window.2.1 + window.2.2.bytes =
          offset + min ((window.1 - index + 1) * size) rest.length := by
  induction rest using readBlocks.induct size with
  | case1 rest ended =>
      intro index offset
      rw [readBlocks, dif_pos ended]
      exact ⟨[], rfl, .nil, rfl, by simp⟩
  | case2 rest going ih =>
      intro index offset
      obtain ⟨metrics, finalized, own⟩ := finalize_measures chiSquareExceed going
      obtain ⟨later, made, measured, numbers, offsets⟩ :=
        ih (index + 1) (offset + (rest.take size).length)
      have state : updateStatsFromBytes numpy (rest.take size) (emptyState : State ℝ) =
          summary (rest.take size) := by
        rw [empty_state_eq, update_stats_summary, List.nil_append]
      rw [readBlocks, dif_neg going]
      refine ⟨(index, offset, metrics) :: later, ?_, .cons own measured, ?_, ?_⟩
      · rw [windowsFrom, state, finalized, made]
        rfl
      · rw [List.map_cons, numbers, List.length_cons, List.range'_succ]
      · rw [List.forall_mem_cons]
        refine ⟨⟨by simp, by simp [own.bytes]⟩, ?_⟩
        intro window member
        have number : index + 1 ≤ window.1 := by
          have known := List.mem_map_of_mem (f := Prod.fst) member
          rw [numbers] at known
          exact (List.mem_range'_1.mp known).1
        have full : (rest.take size).length = size := by
          rw [List.length_take]
          by_contra short
          have ended : rest.drop size = [] := List.drop_eq_nil_of_le (by omega)
          rw [ended, readBlocks, dif_pos List.take_nil] at measured
          have none := measured.length_eq
          rw [List.length_map, List.length_nil] at none
          rw [List.eq_nil_of_length_eq_zero none.symm] at member
          cases member
        have long : size ≤ rest.length := by
          rw [List.length_take] at full
          omega
        obtain ⟨start, ends⟩ := offsets window member
        have next : window.1 - index = (window.1 - (index + 1)) + 1 := by omega
        constructor
        · rw [start, full, next, Nat.add_mul, Nat.one_mul]
          omega
        · rw [ends, full, next, List.length_drop, Nat.succ_mul (window.1 - (index + 1) + 1)]
          omega

/-! ## One slice -/

/-- The windows of a slice, in order and without a gap. -/
structure Windowed (size : Nat) (row : RunRow) (windows : List WindowRow) : Prop where
  run : ∀ window ∈ windows, window.run = row.run
  numbers : windows.map WindowRow.window = List.range windows.length
  offsets : ∀ window ∈ windows, window.offset = window.window * size
  ends : ∀ window ∈ windows,
    window.offset + window.windowBytes = min ((window.window + 1) * size) row.metrics.bytes
  lengths : ∀ window ∈ windows, window.windowBytes = window.metrics.bytes
  combined : Combines (windows.map WindowRow.metrics) row.metrics

structure RunAnalysed (sha256 : Bytes → Text) (windowBytes : Int) (file : Bytes) (path : Text)
    (run : Nat) (row : RunRow) (windows : List WindowRow) : Prop where
  run : row.run = run
  path : row.path = path
  sha256 : row.sha256 = sha256 file
  measured : Measures file row.metrics
  windowed : Windowed (askedBytes windowBytes file.length) row windows

/-- `read(size)` is not refused. -/
structure Readable (memory : Nat) (size : Int) (length : Nat) : Prop where
  lower : -1 ≤ size
  upper : size < 2 ^ 63
  room : askedBytes size length ≤ memory

theorem read_limit_ok {memory : Nat} {size : Int} {file : Bytes}
    (readable : Readable memory size file.length) :
    readLimit memory size file = .ok (askedBytes size file.length) := by
  have lower := readable.lower
  have upper := readable.upper
  rw [readLimit, if_neg (by omega), if_neg (by omega), if_neg (Nat.not_lt.mpr readable.room)]

theorem metrics_for_file_measures (numpy : Bool) (chiSquareExceed : ℝ → ℝ) {file : Bytes}
    (nonempty : file ≠ []) :
    ∃ metrics, metricsForFile numpy chiSquareExceed file = .ok metrics ∧ Measures file metrics := by
  rw [metrics_for_file_eq]
  exact finalize_measures chiSquareExceed nonempty

theorem read_blocks_ne_nil {size : Nat} (positive : 0 < size) {file : Bytes} (nonempty : file ≠ []) :
    readBlocks size file ≠ [] := by
  intro none
  have all := read_blocks_flatten positive file
  rw [none] at all
  exact nonempty all.symm

theorem analyze_run_ok (numpy : Bool) (memory : Nat) (chiSquareExceed : ℝ → ℝ)
    (sha256 : Bytes → Text) {windowBytes : Int} (allowed : windowBytes = -1 ∨ 0 < windowBytes)
    {dataset : Dataset} {path : Text} {file : Bytes} (held : dataset.files path = some file)
    (nonempty : file ≠ []) (readable : Readable memory windowBytes file.length) (run : Nat) :
    ∃ result, analyzeRun numpy memory chiSquareExceed sha256 windowBytes dataset (path, run) =
        .ok result ∧
      RunAnalysed sha256 windowBytes file path run result.1 result.2 := by
  have positive : 0 < askedBytes windowBytes file.length := by
    have some := List.length_pos_of_ne_nil nonempty
    rw [askedBytes]
    split_ifs with whole
    · exact some
    · omega
  obtain ⟨metrics, total, measured⟩ := metrics_for_file_measures numpy chiSquareExceed nonempty
  obtain ⟨windows, made, parts, numbers, places⟩ :=
    @windows_from_ok numpy chiSquareExceed (askedBytes windowBytes file.length) file 0 0
  have count := parts.length_eq
  rw [List.length_map] at count
  have opened : dataset.open path = .ok file := by
    rw [Dataset.open, held]
  have cut : iterWindows numpy chiSquareExceed (askedBytes windowBytes file.length) file =
      .ok windows := made
  refine ⟨(⟨run, path, metrics, sha256 file⟩, windows.map fun window =>
    ⟨run, window.1, window.2.1, window.2.2.bytes, window.2.2⟩), ?_, rfl, rfl, rfl, measured, ?_⟩
  · rw [analyzeRun, opened, ok_bind, total, map_error_ok, ok_bind, read_limit_ok readable, ok_bind,
      cut, map_error_ok, ok_bind]
    rfl
  · constructor
    · exact List.forall_mem_map.mpr fun _ _ => rfl
    · rw [List.map_map, List.length_map, List.range_eq_range', ← count, ← numbers]
      rfl
    · simp only [List.forall_mem_map]
      intro window member
      rw [(places window member).1, Nat.zero_add, Nat.sub_zero]
    · simp only [List.forall_mem_map]
      intro window member
      rw [(places window member).2, Nat.zero_add, Nat.sub_zero, measured.bytes]
    · exact List.forall_mem_map.mpr fun _ _ => rfl
    · rw [List.map_map]
      apply combines (read_blocks_solid file) (read_blocks_ne_nil positive nonempty) parts
      rw [read_blocks_flatten positive]
      exact measured

/-! ## The rows of all slices -/

theorem filter_flat_map_tag {κ α : Type} [DecidableEq κ] {keys : List κ} (distinct : keys.Nodup) {own : κ → List α} {tag : α → κ}
    (tagged : ∀ key ∈ keys, ∀ row ∈ own key, tag row = key) {key : κ} (member : key ∈ keys) :
    (keys.flatMap own).filter (fun row => tag row = key) = own key := by
  induction keys with
  | nil => cases member
  | cons first rest ih =>
      obtain ⟨fresh, distinct⟩ := List.nodup_cons.mp distinct
      rw [List.forall_mem_cons] at tagged
      rw [List.flatMap_cons, List.filter_append]
      rcases List.mem_cons.mp member with rfl | behind
      · have all : (own key).filter (fun row => tag row = key) = own key :=
          List.filter_eq_self.mpr fun row inside => decide_eq_true (tagged.1 row inside)
        have none : (rest.flatMap own).filter (fun row => tag row = key) = [] := by
          rw [List.filter_eq_nil_iff]
          intro row inside same
          obtain ⟨other, later, held⟩ := List.mem_flatMap.mp inside
          have named := tagged.2 other later row held
          rw [of_decide_eq_true same] at named
          exact fresh (named ▸ later)
        rw [all, none, List.append_nil]
      · have none : (own first).filter (fun row => tag row = key) = [] := by
          rw [List.filter_eq_nil_iff]
          intro row inside same
          have named := tagged.1 row inside
          rw [of_decide_eq_true same] at named
          exact fresh (named ▸ behind)
        rw [none, List.nil_append]
        exact ih distinct tagged.2 behind

theorem max_window_of_range {windows : List WindowRow} {count : Nat}
    (numbers : windows.map WindowRow.window = List.range (count + 1)) :
    windows.foldl (fun most row => max most (row.window : Int)) (-1) = count := by
  have folded : windows.foldl (fun most row => max most (row.window : Int)) (-1) =
      (windows.map WindowRow.window).foldl (fun most (number : Nat) => max most (number : Int)) (-1) := by
    rw [List.foldl_map]
  rw [folded, numbers]
  clear folded numbers
  induction count with
  | zero => decide
  | succ count ih =>
      rw [List.range_succ, List.foldl_append, ih]
      simp

theorem filter_window_length {windows : List WindowRow}
    (numbers : windows.map WindowRow.window = List.range windows.length) {number : Nat}
    (inside : number < windows.length) :
    (windows.filter fun row => row.window = number).length = 1 := by
  have counted : (windows.filter fun row => row.window = number).length =
      (windows.map WindowRow.window).count number := by
    rw [List.count, List.countP_map, List.countP_eq_length_filter]
    congr 1
  rw [counted, numbers, List.count_eq_one_of_mem List.nodup_range (List.mem_range.mpr inside)]

theorem Windowed.last_end {size : Nat} {row : RunRow} {windows : List WindowRow} {window : WindowRow}
    (windowed : Windowed size row windows) (member : window ∈ windows)
    (last : window.window = windows.length - 1) :
    window.offset + window.windowBytes = row.metrics.bytes := by
  have short : ∀ bytes ∈ windows.map fun window => window.metrics.bytes, bytes ≤ size := by
    rw [List.forall_mem_map]
    intro other inside
    have ends := windowed.ends other inside
    rw [windowed.offsets other inside, windowed.lengths other inside, Nat.succ_mul] at ends
    omega
  have total := List.sum_le_card_nsmul _ _ short
  have whole := windowed.combined.bytes
  have some := List.length_pos_of_mem member
  rw [List.map_map] at whole
  rw [List.length_map, smul_eq_mul] at total
  rw [windowed.ends window member, last, Nat.sub_add_cancel some]
  apply min_eq_right
  calc row.metrics.bytes
    _ = (windows.map fun window => window.metrics.bytes).sum := whole.symm
    _ ≤ windows.length * size := total

/-! ## The whole dataset -/

/-- What the analysis says agrees with the manifest and with itself. -/
structure Consistent (sha256 : Bytes → Text) (plan : Plan) (windowBytes : Int) (dataset : Dataset)
    (manifest : Manifest) (analysis : Analysis) : Prop where
  rows : analysis.runRows.map (fun row => (row.run, row.path, row.metrics.bytes, row.sha256)) =
    manifest.runs.map fun entry => (entry.run, entry.path, entry.bytes, entry.sha256)
  aggregateBytes : analysis.aggregate.bytes = manifest.aggregateBytes
  aggregateSha256 : analysis.aggregateSha256 = manifest.aggregateSha256
  combined : Combines (analysis.runRows.map RunRow.metrics) analysis.aggregate
  meanByte : (analysis.perRun .meanByte).mean = some analysis.aggregate.meanByte
  onesRatio : (analysis.perRun .onesRatio).mean = some analysis.aggregate.onesRatio
  entropy : ∃ average, (analysis.perRun .entropy).mean = some average ∧
    average ≤ analysis.aggregate.entropyBitsPerByte
  minEntropy : ∃ least, (analysis.perRun .mcvMinEntropy).min = some least ∧
    least ≤ analysis.aggregate.mcvMinEntropyBitsPerByte
  windows : ∀ row ∈ analysis.runRows,
    Windowed (askedBytes windowBytes plan.bytesPerRun) row
      (analysis.windowRows.filter fun window => window.run = row.run)
  firstRuns : (firstRows analysis.windowRows).map WindowRow.run = plan.indices
  lastRuns : (lastRows analysis.windowRows).map WindowRow.run = plan.indices
  firsts : ∀ row ∈ firstRows analysis.windowRows, row.offset = 0
  lasts : ∀ row ∈ lastRows analysis.windowRows, row.offset + row.windowBytes = plan.bytesPerRun
  firstLast : analysis.firstLastWindow = windowColumns.map fun column => (column,
    firstLast ((firstRows analysis.windowRows).map fun row => column.value row.metrics)
      ((lastRows analysis.windowRows).map fun row => column.value row.metrics) plan.runs)
  unique : analysis.similarity.uniqueSha256 +
    (analysis.similarity.duplicateSha256Runs.map fun runs => runs.length - 1).sum = plan.runs
  duplicates : ∀ left ∈ plan.indices, ∀ right ∈ plan.indices, left ≠ right →
    ((∃ runs ∈ analysis.similarity.duplicateSha256Runs, left ∈ runs ∧ right ∈ runs) ↔
      sha256 (dataset.contents (plan.slicePath left)) =
        sha256 (dataset.contents (plan.slicePath right)))
  adjacent : analysis.similarity.adjacentPairs = plan.runs - 1

section Analysed

variable {numpy : Bool} {memory : Nat} {chiSquareExceed : ℝ → ℝ} {sha256 : Bytes → Text}
variable {plan : Plan} {dataset : Dataset} {manifest : Manifest}

theorem Describes.paths (described : Describes sha256 plan dataset manifest) :
    runPaths manifest = plan.indices.map plan.slicePath := by
  have captured : ∀ entry ∈ manifest.runs, entry.status = "captured".toList := by
    intro entry member
    have known := List.mem_map_of_mem (f := ManifestRun.facts) member
    rw [described.runs] at known
    obtain ⟨index, _, same⟩ := List.mem_map.mp known
    exact (congrArg (fun facts => facts.2.1) same).symm
  rw [runPaths, List.filter_eq_self.mpr fun entry member => decide_eq_true (captured entry member)]
  have paths := congrArg (List.map fun facts => facts.2.2.1) described.runs
  rw [List.map_map, List.map_map] at paths
  exact paths

theorem indices_zip_idx (plan : Plan) :
    (plan.indices.map plan.slicePath).zipIdx 1 =
      plan.indices.map fun index => (plan.slicePath index, index) := by
  apply List.ext_getElem
  · simp
  · intro place _ _
    simp [Plan.indices]

theorem similarity_ok {files : List Bytes} {shaValues : List Text} {prefixBytes : Int}
    (readable : ∀ file ∈ files, Readable memory prefixBytes file.length) :
    ∃ similarity,
      crossRebootSimilarity numpy memory sha256 files shaValues prefixBytes = .ok similarity ∧
      similarity.uniqueSha256 = shaValues.dedup.length ∧
      similarity.duplicateSha256Runs = duplicateRunGroups shaValues ∧
      similarity.adjacentPairs = files.length - 1 := by
  have prefixes : files.mapM (prefixSha256 memory sha256 prefixBytes) =
      .ok (files.map fun file => sha256 (file.take (askedBytes prefixBytes file.length))) := by
    apply map_m_ok
    intro file member
    rw [prefixSha256, read_limit_ok (readable file member)]
    rfl
  rw [crossRebootSimilarity, prefixes]
  refine ⟨_, rfl, rfl, rfl, ?_⟩
  simp

theorem Describes.slice (described : Describes sha256 plan dataset manifest) {index : Nat}
    (member : index ∈ plan.indices) :
    dataset.files (plan.slicePath index) = some (dataset.contents (plan.slicePath index)) ∧
      (dataset.contents (plan.slicePath index)).length = plan.bytesPerRun ∧
      dataset.contents (plan.slicePath index) ≠ [] := by
  have complete := described.complete index member
  obtain ⟨file, held, _⟩ := complete_file complete
  have length := contents_length complete
  refine ⟨?_, length, ?_⟩
  · rw [Dataset.contents, held, Option.getD_some]
  · intro empty
    rw [empty, List.length_nil] at length
    have positive := plan.bytesPositive
    omega

theorem mem_run_groups {values : Nat → Text} {left right : Nat} (leftInside : left ∈ plan.indices)
    (rightInside : right ∈ plan.indices) (different : left ≠ right) :
    (∃ runs ∈ duplicateRunGroups (plan.indices.map values), left ∈ runs ∧ right ∈ runs) ↔
      values left = values right := by
  have leftBounds := List.mem_range'_1.mp leftInside
  have rightBounds := List.mem_range'_1.mp rightInside
  obtain ⟨low, rfl⟩ : ∃ low, left = low + 1 := ⟨left - 1, by omega⟩
  obtain ⟨high, rfl⟩ : ∃ high, right = high + 1 := ⟨right - 1, by omega⟩
  have length : (plan.indices.map values).length = plan.runs := by
    rw [List.length_map]
    exact List.length_range' ..
  rw [mem_duplicate_run_groups (by omega) (by omega) (by omega)]
  simp [Plan.indices, Nat.add_comm 1]

section Results

variable {windowBytes : Int} {result : Nat → RunRow × List WindowRow}
  (analysed : ∀ index ∈ plan.indices,
    RunAnalysed sha256 windowBytes (dataset.contents (plan.slicePath index))
      (plan.slicePath index) index (result index).1 (result index).2)

include analysed

theorem Describes.combined (described : Describes sha256 plan dataset manifest)
    {aggregate : Metrics} (measured : Measures (dataset.whole plan) aggregate) :
    Combines (plan.indices.map fun index => (result index).1.metrics) aggregate := by
  have solid : ∀ chunk ∈ plan.indices.map (fun index => dataset.contents (plan.slicePath index)),
      chunk ≠ [] := by
    rw [List.forall_mem_map]
    exact fun index member => (described.slice member).2.2
  have some : plan.indices.map (fun index => dataset.contents (plan.slicePath index)) ≠ [] := by
    have positive := plan.runsPositive
    rw [ne_eq, List.map_eq_nil_iff, Plan.indices, List.range'_eq_nil_iff]
    omega
  apply combines solid some
  · rw [List.forall₂_map_left_iff, List.forall₂_map_right_iff, List.forall₂_same]
    exact fun index member => (analysed index member).measured
  · rw [← List.flatMap_def]
    exact measured

theorem own_windows {index : Nat} (member : index ∈ plan.indices) :
    (plan.indices.flatMap fun index => (result index).2).filter (fun row => row.run = index) =
      (result index).2 := by
  apply filter_flat_map_tag (List.nodup_range' ..) _ member
  intro key inside row own
  have run := (analysed key inside).windowed.run row own
  rw [run, (analysed key inside).run]

theorem filter_window_run {index number : Nat} (member : index ∈ plan.indices)
    (inside : number < (result index).2.length) :
    ((result index).2.filter fun row => row.window = number).map WindowRow.run = [index] := by
  have own := analysed index member
  have one := filter_window_length own.windowed.numbers inside
  rw [← List.replicate_one, List.eq_replicate_iff, List.length_map]
  refine ⟨one, ?_⟩
  rw [List.forall_mem_map]
  intro row kept
  rw [own.windowed.run row (List.mem_of_mem_filter kept), own.run]

theorem windows_filled {index : Nat} (member : index ∈ plan.indices) :
    0 < (result index).2.length := by
  obtain ⟨part, inside, _⟩ := (analysed index member).windowed.combined.minEntropy
  rw [← List.length_map (f := WindowRow.metrics)]
  exact List.length_pos_of_mem inside

theorem last_rows_eq :
    lastRows (plan.indices.flatMap fun index => (result index).2) =
      plan.indices.flatMap fun index =>
        (result index).2.filter fun row => row.window = (result index).2.length - 1 := by
  rw [lastRows, List.filter_flatMap]
  apply List.flatMap_congr
  intro index member
  have windowed := (analysed index member).windowed
  have some := windows_filled analysed member
  have most : maxWindowByRun (plan.indices.flatMap fun index => (result index).2) index =
      ((result index).2.length - 1 : Nat) := by
    rw [maxWindowByRun, own_windows analysed member]
    apply max_window_of_range
    rw [windowed.numbers]
    congr 1
    omega
  apply List.filter_congr
  intro row inside
  rw [windowed.run row inside, (analysed index member).run, most]
  simp only [Nat.cast_inj]

theorem first_runs :
    (firstRows (plan.indices.flatMap fun index => (result index).2)).map WindowRow.run =
      plan.indices := by
  rw [firstRows, List.filter_flatMap, List.map_flatMap]
  calc (plan.indices.flatMap fun index =>
        ((result index).2.filter fun row => row.window = 0).map WindowRow.run)
    _ = plan.indices.flatMap fun index => [index] := by
      apply List.flatMap_congr
      intro index member
      exact filter_window_run analysed member (windows_filled analysed member)
    _ = plan.indices := List.flatMap_singleton' _

theorem last_runs :
    (lastRows (plan.indices.flatMap fun index => (result index).2)).map WindowRow.run =
      plan.indices := by
  rw [last_rows_eq analysed, List.map_flatMap]
  calc (plan.indices.flatMap fun index => ((result index).2.filter fun row =>
        row.window = (result index).2.length - 1).map WindowRow.run)
    _ = plan.indices.flatMap fun index => [index] := by
      apply List.flatMap_congr
      intro index member
      have some := windows_filled analysed member
      exact filter_window_run analysed member (by omega)
    _ = plan.indices := List.flatMap_singleton' _

theorem first_rows_start {row : WindowRow}
    (first : row ∈ firstRows (plan.indices.flatMap fun index => (result index).2)) :
    row.offset = 0 := by
  rw [firstRows, List.mem_filter, decide_eq_true_eq] at first
  obtain ⟨index, member, own⟩ := List.mem_flatMap.mp first.1
  rw [(analysed index member).windowed.offsets row own, first.2, Nat.zero_mul]

theorem Describes.last_rows_end (described : Describes sha256 plan dataset manifest)
    {row : WindowRow}
    (last : row ∈ lastRows (plan.indices.flatMap fun index => (result index).2)) :
    row.offset + row.windowBytes = plan.bytesPerRun := by
  rw [last_rows_eq analysed, List.mem_flatMap] at last
  obtain ⟨index, member, kept⟩ := last
  have windowed := (analysed index member).windowed
  rw [windowed.last_end (List.mem_of_mem_filter kept) (of_decide_eq_true (List.mem_filter.mp kept).2),
    (analysed index member).measured.bytes, (described.slice member).2.1]

/-- There are as many first and as many last windows as runs. -/
theorem first_last_window_eq (column : Column) :
    firstLastWindow (plan.indices.flatMap fun index => (result index).2) column =
      firstLast
        ((firstRows (plan.indices.flatMap fun index => (result index).2)).map
          fun row => column.value row.metrics)
        ((lastRows (plan.indices.flatMap fun index => (result index).2)).map
          fun row => column.value row.metrics) plan.runs := by
  have count : plan.indices.length = plan.runs := List.length_range' ..
  have firstCount := congrArg List.length (first_runs analysed)
  have lastCount := congrArg List.length (last_runs analysed)
  rw [List.length_map, count] at firstCount lastCount
  simp only [firstLastWindow, firstCount, lastCount, Nat.min_self]

theorem Describes.run_rows (described : Describes sha256 plan dataset manifest) :
    (plan.indices.map fun index => (result index).1).map
        (fun row => (row.run, row.path, row.metrics.bytes, row.sha256)) =
      manifest.runs.map fun entry => (entry.run, entry.path, entry.bytes, entry.sha256) := by
  have told := congrArg (List.map fun facts => (facts.1, facts.2.2.1, facts.2.2.2)) described.runs
  rw [List.map_map, List.map_map] at told
  calc (plan.indices.map fun index => (result index).1).map
        (fun row => (row.run, row.path, row.metrics.bytes, row.sha256))
    _ = plan.indices.map fun index => (index, plan.slicePath index, plan.bytesPerRun,
          sha256 (dataset.contents (plan.slicePath index))) := by
      rw [List.map_map]
      apply List.map_congr_left
      intro index member
      have own := analysed index member
      simp only [Function.comp_apply, own.run, own.path, own.sha256, own.measured.bytes,
        (described.slice member).2.1]
    _ = _ := told.symm

theorem Describes.summarized (described : Describes sha256 plan dataset manifest)
    {aggregate : Metrics} (measured : Measures (dataset.whole plan) aggregate)
    {similarity : Similarity}
    (unique : similarity.uniqueSha256 =
      ((plan.indices.map result).map fun run => run.1.sha256).dedup.length)
    (duplicates : similarity.duplicateSha256Runs =
      duplicateRunGroups ((plan.indices.map result).map fun run => run.1.sha256))
    (adjacent : similarity.adjacentPairs = plan.runs - 1) :
    Consistent sha256 plan windowBytes dataset manifest
      (summarizeRuns aggregate (sha256 (dataset.whole plan)) (plan.indices.map result)
        similarity) := by
  have count : plan.indices.length = plan.runs := List.length_range' ..
  have nonempty : plan.indices ≠ [] :=
    List.ne_nil_of_length_pos (count.trans_gt plan.runsPositive)
  have runs : (plan.indices.map result).map Prod.fst = plan.indices.map fun index =>
      (result index).1 := by
    rw [List.map_map]
    rfl
  have windowRows : (plan.indices.map result).flatMap Prod.snd =
      plan.indices.flatMap fun index => (result index).2 := List.flatMap_map ..
  have values (column : Column) :
      ((plan.indices.map result).map Prod.fst).map (fun row => column.value row.metrics) =
        (plan.indices.map fun index => (result index).1.metrics).map column.value := by
    rw [runs, List.map_map, List.map_map]
    rfl
  have shas : (plan.indices.map result).map (fun run => run.1.sha256) =
      plan.indices.map fun index => sha256 (dataset.contents (plan.slicePath index)) := by
    rw [List.map_map]
    exact List.map_congr_left fun index member => (analysed index member).sha256
  have combined := described.combined analysed measured
  have equal : ∀ part ∈ plan.indices.map (fun index => (result index).1.metrics),
      part.bytes = plan.bytesPerRun := by
    rw [List.forall_mem_map]
    intro index member
    rw [(analysed index member).measured.bytes, (described.slice member).2.1]
  have parts : plan.indices.map (fun index => (result index).1.metrics) ≠ [] :=
    mt List.map_eq_nil_iff.mp nonempty
  have ranged (column : Column) : (statRange (((plan.indices.map result).map Prod.fst).map
      fun row => column.value row.metrics)).mean =
        some (mean ((plan.indices.map fun index => (result index).1.metrics).map column.value)) := by
    rw [values, stat_range_mean (mt List.map_eq_nil_iff.mp parts)]
  obtain ⟨meanByte, onesRatio, entropy⟩ := combined_averages combined plan.bytesPositive parts equal
  constructor
  · show ((plan.indices.map result).map Prod.fst).map _ = _
    rw [runs]
    exact described.run_rows analysed
  · rw [described.bytes]
    exact measured.bytes.trans (whole_length described.complete)
  · exact described.digest.symm
  · show Combines (((plan.indices.map result).map Prod.fst).map RunRow.metrics) aggregate
    rw [runs, List.map_map]
    exact combined
  · exact (ranged .meanByte).trans (congrArg some meanByte.symm)
  · exact (ranged .onesRatio).trans (congrArg some onesRatio.symm)
  · exact ⟨_, ranged .entropy, entropy⟩
  · obtain ⟨part, member, below⟩ := combined.minEntropy
    obtain ⟨least, found, most⟩ := stat_range_min (List.mem_map_of_mem
      (f := Column.mcvMinEntropy.value) member)
    refine ⟨least, ?_, most.trans below⟩
    rw [← found, ← values]
    rfl
  · intro row inside
    have held : row ∈ (plan.indices.map result).map Prod.fst := inside
    rw [runs] at held
    obtain ⟨index, member, rfl⟩ := List.mem_map.mp held
    have own := analysed index member
    show Windowed _ _ (((plan.indices.map result).flatMap Prod.snd).filter _)
    have windowed := own.windowed
    rw [(described.slice member).2.1] at windowed
    rw [windowRows, own.run, own_windows analysed member]
    exact windowed
  · show (firstRows ((plan.indices.map result).flatMap Prod.snd)).map WindowRow.run = _
    rw [windowRows]
    exact first_runs analysed
  · show (lastRows ((plan.indices.map result).flatMap Prod.snd)).map WindowRow.run = _
    rw [windowRows]
    exact last_runs analysed
  · intro row (inside : row ∈ firstRows ((plan.indices.map result).flatMap Prod.snd))
    rw [windowRows] at inside
    exact first_rows_start analysed inside
  · intro row (inside : row ∈ lastRows ((plan.indices.map result).flatMap Prod.snd))
    rw [windowRows] at inside
    exact described.last_rows_end analysed inside
  · show (if (plan.indices.map result).flatMap Prod.snd = [] then []
      else windowColumns.map fun column =>
        (column, firstLastWindow ((plan.indices.map result).flatMap Prod.snd) column)) = _
    rw [if_neg]
    · apply List.map_congr_left
      intro column _
      have counted := first_last_window_eq analysed column
      rw [← windowRows] at counted
      exact congrArg (Prod.mk column) counted
    · intro none
      have starts := first_runs analysed
      rw [← windowRows, none] at starts
      exact nonempty starts.symm
  · show similarity.uniqueSha256 +
      (similarity.duplicateSha256Runs.map fun runs => runs.length - 1).sum = plan.runs
    rw [unique, duplicates, duplicate_run_groups_sum, List.length_map, List.length_map, count]
  · intro left leftInside right rightInside different
    show (∃ runs ∈ similarity.duplicateSha256Runs, left ∈ runs ∧ right ∈ runs) ↔ _
    rw [duplicates, shas]
    exact mem_run_groups leftInside rightInside different
  · exact adjacent

end Results

theorem Describes.analyzed (described : Describes sha256 plan dataset manifest)
    (stored : dataset.manifest = .whole manifest) {windowBytes prefixBytes : Int}
    (windows : windowBytes = -1 ∨ 0 < windowBytes)
    (window : Readable memory windowBytes plan.bytesPerRun)
    (front : Readable memory (min prefixBytes plan.bytesPerRun) plan.bytesPerRun) :
    ∃ analysis,
      analyze numpy memory chiSquareExceed sha256 windowBytes prefixBytes dataset = .ok analysis ∧
      Consistent sha256 plan windowBytes dataset manifest analysis := by
  have each : ∀ index ∈ plan.indices, ∃ result,
      analyzeRun numpy memory chiSquareExceed sha256 windowBytes dataset
        (plan.slicePath index, index) = .ok result ∧
      RunAnalysed sha256 windowBytes (dataset.contents (plan.slicePath index))
        (plan.slicePath index) index result.1 result.2 := by
    intro index member
    obtain ⟨held, length, nonempty⟩ := described.slice member
    exact analyze_run_ok numpy memory chiSquareExceed sha256 windows held nonempty
      (length ▸ window) index
  have first : 1 ∈ plan.indices := List.mem_range'_1.mpr ⟨le_rfl, by have := plan.runsPositive; omega⟩
  obtain ⟨one, _⟩ := each 1 first
  have : Nonempty (RunRow × List WindowRow) := ⟨one⟩
  choose! result made analysed using each
  have rows : ((plan.indices.map plan.slicePath).zipIdx 1).mapM
      (analyzeRun numpy memory chiSquareExceed sha256 windowBytes dataset) =
        .ok (plan.indices.map result) := by
    rw [indices_zip_idx, List.mapM_map]
    exact map_m_ok made
  have files : (plan.indices.map plan.slicePath).mapM dataset.open =
      .ok (plan.indices.map fun index => dataset.contents (plan.slicePath index)) := by
    rw [List.mapM_map]
    apply map_m_ok
    intro index member
    rw [Function.comp_apply, Dataset.open, (described.slice member).1]
  have whole : dataset.whole plan ≠ [] := by
    rw [Dataset.whole, ne_eq, List.flatMap_eq_nil_iff]
    exact fun none => (described.slice first).2.2 (none 1 first)
  obtain ⟨aggregate, total, measured⟩ := @metrics_for_file_measures numpy chiSquareExceed _ whole
  have fronts : ∀ file ∈ plan.indices.map fun index => dataset.contents (plan.slicePath index),
      Readable memory (min prefixBytes manifest.bytesPerRun) file.length := by
    rw [List.forall_mem_map, described.bytesPerRun]
    intro index member
    rw [(described.slice member).2.1]
    exact front
  obtain ⟨similarity, compared, unique, duplicates, adjacent⟩ := @similarity_ok numpy memory sha256
    _ ((plan.indices.map result).map fun run => run.1.sha256) _ fronts
  have some : plan.indices.map plan.slicePath ≠ [] := by
    intro none
    rw [List.map_eq_nil_iff.mp none] at first
    cases first
  have success : analyze numpy memory chiSquareExceed sha256 windowBytes prefixBytes dataset =
      .ok (summarizeRuns aggregate (sha256 (dataset.whole plan)) (plan.indices.map result)
        similarity) := by
    rw [analyze, stored]
    dsimp only
    rw [described.paths, if_neg some, described.aggregate]
    dsimp only
    rw [total, map_error_ok, ok_bind, rows, ok_bind, files, ok_bind, compared, ok_bind]
    rfl
  refine ⟨_, success, described.summarized analysed measured unique duplicates ?_⟩
  rw [adjacent, List.length_map]
  exact congrArg (· - 1) (List.length_range' ..)

end Analysed

end BootEntropy.RawDump.Reboots
