import BootEntropy.Aeb.HexLog
import BootEntropy.Lib.Columns
import BootEntropy.Lib.Double

/-!
# Derived ratios of a log

`numeric` and the two columns that `build_summary` derives from pairs of fields. Every
field is filtered over all rows before the fields are joined, so that which row an
operand comes from depends on what the rows in front of it lack. A trial that `int`
refuses and a quotient beyond the largest float end the summary.
-/

namespace BootEntropy.Aeb

open BootEntropy.Lib

set_option autoImplicit false

/-! ## `build_summary` -/

/-- `int(row[key])`; `none` is a `KeyError` or a `ValueError`. -/
def intField (key : Text) (row : Entries) : Option Int := (row.lookup key).bind parseInt

def numeric (rows : List Entries) (key : Text) : List Int := rows.filterMap (intField key)

def onesKey : Text := "ones".toList
def sampleBytesKey : Text := "sample_bytes".toList
def packetsExpectedKey : Text := "packets_expected".toList
def packetsSeenKey : Text := "packets_seen".toList

def onesRatio (rows : List Entries) : Except Raised (List Double) :=
  let bitTotals := (numeric rows sampleBytesKey).map fun bytes => bytes * (8 : Int)
  (((numeric rows onesKey).zip bitTotals).filter fun pair => pair.2 ≠ 0).mapM fun pair =>
    divideInts pair.1 pair.2

/-- `packet_loss`, before `summarize_dist`. -/
def packetLoss (rows : List Entries) : List Int :=
  ((numeric rows packetsExpectedKey).zip (numeric rows packetsSeenKey)).map fun pair =>
    max (pair.1 - pair.2) 0

structure DerivedColumns where
  onesRatio : List Double
  packetLoss : List Int
  deriving DecidableEq, Repr

/-- `build_summary` as far as its two derived columns, behind `raw_values`. -/
def deriveColumns (log : ParsedLog) : Except Raised DerivedColumns :=
  match rawValues log with
  | none => .error .valueError
  | some _ => (onesRatio log.rows).map fun ratios => ⟨ratios, packetLoss log.rows⟩

/-! ## Where the operands come from -/

abbrev NumberedRow := Entries × Nat

def hasInt (key : Text) (row : Entries) : Bool := (intField key row).isSome

def intOf (key : Text) (row : Entries) : Int := (intField key row).getD 0

def rowRatio (onesRow bytesRow : Entries) : Rat :=
  (intOf onesKey onesRow : Rat) / ((intOf sampleBytesKey bytesRow * 8 : Int) : Rat)

def rowLoss (expectedRow seenRow : Entries) : Int :=
  max (intOf packetsExpectedKey expectedRow - intOf packetsSeenKey seenRow) 0

def sampled (row : Entries) : Bool := intOf sampleBytesKey row ≠ 0

/-- The rows that the entries of `ones_ratio` take their two operands from. -/
def onesSources (rows : List Entries) : List (NumberedRow × NumberedRow) :=
  (joined (hasInt onesKey ∘ Prod.fst) (hasInt sampleBytesKey ∘ Prod.fst) rows.zipIdx).filter
    fun pair => (sampled ∘ Prod.fst) pair.2

def lossSources (rows : List Entries) : List (NumberedRow × NumberedRow) :=
  joined (hasInt packetsExpectedKey ∘ Prod.fst) (hasInt packetsSeenKey ∘ Prod.fst) rows.zipIdx

theorem numeric_eq_filter (rows : List Entries) (key : Text) :
    numeric rows key = (rows.filter (hasInt key)).map (intOf key) := by
  induction rows with
  | nil => rfl
  | cons row rest ih =>
      rw [numeric] at ih ⊢
      cases found : intField key row with
      | none =>
          have lacks : ¬hasInt key row = true := by simp [hasInt, found]
          rw [List.filterMap_cons_none found, List.filter_cons_of_neg lacks, ih]
      | some value =>
          have has : hasInt key row = true := by simp [hasInt, found]
          rw [List.filterMap_cons_some found, List.filter_cons_of_pos has, ih, List.map_cons, intOf,
            found]
          rfl

theorem numeric_eq (rows : List Entries) (key : Text) :
    numeric rows key =
      (rows.zipIdx.filter (hasInt key ∘ Prod.fst)).map fun row => intOf key row.1 := by
  have own : rows.filter (hasInt key) =
      (rows.zipIdx.filter (hasInt key ∘ Prod.fst)).map Prod.fst := by
    rw [← List.filter_map, List.zipIdx_map_fst]
  rw [numeric_eq_filter, own, List.map_map]
  rfl

theorem ones_ratio_eq (rows : List Entries) :
    onesRatio rows = unlessOverflow
      (∀ pair ∈ onesSources rows, FitsDouble (rowRatio pair.1.1 pair.2.1))
      ((onesSources rows).map fun pair => Double.ofRat (rowRatio pair.1.1 pair.2.1)) := by
  have kept (bytes : Int) : decide (bytes * 8 ≠ 0) = decide (bytes ≠ 0) := by
    by_cases zero : bytes = 0
    · simp [zero]
    · simp [zero]
  rw [onesRatio, numeric_eq, numeric_eq, List.map_map, List.zip_map, List.filter_map, List.mapM_map,
    ← map_m_unless_overflow, onesSources, joined]
  dsimp only [Function.comp_def, Prod.map]
  simp only [kept]
  rfl

theorem packet_loss_eq (rows : List Entries) :
    packetLoss rows = (lossSources rows).map fun pair => rowLoss pair.1.1 pair.2.1 := by
  rw [packetLoss, numeric_eq, numeric_eq, List.zip_map, List.map_map]
  rfl

/-! ## Pairing -/

/-- The columns are derived, every entry takes its operands from one row, and every row
with both fields has one entry. -/
structure RatiosPaired (log : ParsedLog) : Prop where
  derived : Succeeds (deriveColumns log)
  ones : onesSources log.rows =
    matched (hasInt onesKey ∘ Prod.fst) (hasInt sampleBytesKey ∘ Prod.fst) log.rows.zipIdx
  loss : lossSources log.rows =
    matched (hasInt packetsExpectedKey ∘ Prod.fst) (hasInt packetsSeenKey ∘ Prod.fst)
      log.rows.zipIdx

/-- Which rows lack which fields, and how large their values are. -/
structure RatiosAligned (log : ParsedLog) : Prop where
  trials : ∀ row ∈ log.rows, ∀ trial, row.lookup "trial".toList = some trial →
    isDigitText trial = true → (parseInt trial).isSome
  loss : log.rows.Pairwise (Followed (hasInt packetsExpectedKey) (hasInt packetsSeenKey))
  nonempty : ∀ row ∈ log.rows, hasInt onesKey row = true → hasInt sampleBytesKey row = true →
    sampled row = true
  ranked : Ranked (hasInt onesKey) (hasInt sampleBytesKey) sampled log.rows
  fits : ∀ row ∈ log.rows, hasInt onesKey row = true → hasInt sampleBytesKey row = true →
    FitsDouble (rowRatio row row)

theorem row_window_reads_iff (log : ParsedLog) (row : Entries) :
    (rowWindow log row).isSome ↔ ∀ trial, row.lookup "trial".toList = some trial →
      isDigitText trial = true → (parseInt trial).isSome := by
  simp only [rowWindow]
  cases row.lookup "trial".toList with
  | none => simp [isDigitText]
  | some trial =>
      by_cases digits : isDigitText trial = true
      · simp [digits]
      · simp [digits]

theorem raw_values_reads_iff (log : ParsedLog) :
    (rawValues log).isSome ↔ ∀ row ∈ log.rows, ∀ trial, row.lookup "trial".toList = some trial →
      isDigitText trial = true → (parseInt trial).isSome := by
  simp only [rawValues, Option.isSome_map, ← row_window_reads_iff log]
  induction log.rows with
  | nil => simp
  | cons row rows ih =>
      rw [List.mapM_cons, List.forall_mem_cons, ← ih]
      cases rowWindow log row with
      | none => simp
      | some window => cases rows.mapM (rowWindow log) <;> simp

theorem derive_columns_succeeds (log : ParsedLog) :
    Succeeds (deriveColumns log) ↔ (rawValues log).isSome ∧
      ∀ pair ∈ onesSources log.rows, FitsDouble (rowRatio pair.1.1 pair.2.1) := by
  rw [deriveColumns, ones_ratio_eq]
  cases rawValues log with
  | none => exact iff_of_false (not_succeeds_error _) (by simp)
  | some values =>
      rw [unlessOverflow]
      split_ifs with fits
      · exact iff_of_true (succeeds_ok _) ⟨rfl, fits⟩
      · exact iff_of_false (not_succeeds_error _) fun both => fits both.2

theorem derive_columns_values {log : ParsedLog} {columns : DerivedColumns}
    (derived : deriveColumns log = .ok columns) :
    columns.onesRatio =
        (onesSources log.rows).map (fun pair => Double.ofRat (rowRatio pair.1.1 pair.2.1)) ∧
      columns.packetLoss = (lossSources log.rows).map fun pair => rowLoss pair.1.1 pair.2.1 := by
  rw [deriveColumns, ones_ratio_eq, packet_loss_eq] at derived
  cases read : rawValues log with
  | none => simp [read] at derived
  | some values =>
      rw [read, unlessOverflow] at derived
      split_ifs at derived with fits
      · cases derived
        exact ⟨rfl, rfl⟩
      · cases derived

theorem numbered_nodup (rows : List Entries) : rows.zipIdx.Nodup := by
  apply List.Nodup.of_map Prod.snd
  rw [List.zipIdx_map_snd]
  exact List.nodup_range'

theorem loss_paired_iff (rows : List Entries) :
    lossSources rows = matched (hasInt packetsExpectedKey ∘ Prod.fst)
        (hasInt packetsSeenKey ∘ Prod.fst) rows.zipIdx ↔
      rows.Pairwise (Followed (hasInt packetsExpectedKey) (hasInt packetsSeenKey)) := by
  rw [lossSources, joined_eq_matched_iff _ _ (numbered_nodup rows)]
  conv_rhs => rw [← List.zipIdx_map_fst 0 rows, List.pairwise_map]
  rfl

theorem ones_paired_iff (rows : List Entries) :
    onesSources rows = matched (hasInt onesKey ∘ Prod.fst) (hasInt sampleBytesKey ∘ Prod.fst)
        rows.zipIdx ↔
      (∀ row ∈ rows, hasInt onesKey row = true → hasInt sampleBytesKey row = true →
        sampled row = true) ∧ Ranked (hasInt onesKey) (hasInt sampleBytesKey) sampled rows := by
  have ranked := @ranked_map _ _ (hasInt onesKey) (hasInt sampleBytesKey) sampled
    (Prod.fst : NumberedRow → Entries) rows.zipIdx
  rw [List.zipIdx_map_fst] at ranked
  rw [onesSources, joined_kept_eq_matched_iff _ _ _ (numbered_nodup rows), ranked]
  apply and_congr_left'
  conv_rhs => rw [← List.zipIdx_map_fst 0 rows, List.forall_mem_map]
  rfl

theorem forall_matched_rows (left right : Entries → Bool) (rows : List Entries)
    (holds : Entries → Entries → Prop) :
    (∀ pair ∈ matched (left ∘ Prod.fst) (right ∘ Prod.fst) rows.zipIdx, holds pair.1.1 pair.2.1) ↔
      ∀ row ∈ rows, left row = true → right row = true → holds row row := by
  simp only [matched, List.forall_mem_map, List.mem_filter, Function.comp_apply, Bool.and_eq_true]
  constructor
  · intro all row member has other
    obtain ⟨index, inside, rfl⟩ := List.getElem_of_mem member
    exact all (rows[index], index) ⟨List.mk_mem_zipIdx_iff_getElem?.mpr
      (List.getElem?_eq_getElem inside), has, other⟩
  · rintro all ⟨row, index⟩ ⟨member, has, other⟩
    exact all row (List.fst_mem_of_mem_zipIdx member) has other

/-- The values of the columns are those of their sources, and the columns are derived and
their sources paired row by row exactly when the rows are aligned. -/
theorem ratios_paired_iff (log : ParsedLog) :
    (∀ columns, deriveColumns log = .ok columns →
      columns.onesRatio =
          (onesSources log.rows).map (fun pair => Double.ofRat (rowRatio pair.1.1 pair.2.1)) ∧
        columns.packetLoss =
          (lossSources log.rows).map fun pair => rowLoss pair.1.1 pair.2.1) ∧
      (RatiosPaired log ↔ RatiosAligned log) := by
  refine ⟨fun _ => derive_columns_values, ?_, ?_⟩
  · intro paired
    have ones := (ones_paired_iff log.rows).mp paired.ones
    obtain ⟨read, fits⟩ := (derive_columns_succeeds log).mp paired.derived
    rw [paired.ones, forall_matched_rows _ _ _ fun left right => FitsDouble (rowRatio left right)]
      at fits
    exact ⟨(raw_values_reads_iff log).mp read, (loss_paired_iff log.rows).mp paired.loss, ones.1,
      ones.2, fits⟩
  · intro aligned
    have ones := (ones_paired_iff log.rows).mpr ⟨aligned.nonempty, aligned.ranked⟩
    have fits := (forall_matched_rows (hasInt onesKey) (hasInt sampleBytesKey) log.rows
      fun left right => FitsDouble (rowRatio left right)).mpr aligned.fits
    rw [← ones] at fits
    exact ⟨(derive_columns_succeeds log).mpr ⟨(raw_values_reads_iff log).mpr aligned.trials, fits⟩,
      ones, (loss_paired_iff log.rows).mpr aligned.loss⟩

/-! ## A corrupted log -/

def corruptedRows : List Entries :=
  [ofEntries [(packetsExpectedKey, "10".toList), (sampleBytesKey, "2".toList)],
    ofEntries [(packetsExpectedKey, "5".toList), (packetsSeenKey, "5".toList),
      (onesKey, "16".toList), (sampleBytesKey, "4".toList)]]

def corruptedLog : ParsedLog := ⟨corruptedRows, ∅⟩

/-- The one row with both pairs of fields lost no packet and has every second bit set;
the columns say five packets and every bit. -/
theorem corrupted_rows_mispaired :
    deriveColumns corruptedLog = .ok ⟨[Double.ofRat 1], [5]⟩ ∧
      (corruptedRows.filter fun row => hasInt packetsExpectedKey row && hasInt packetsSeenKey row).map
        (fun row => rowLoss row row) = [0] ∧
      (corruptedRows.filter fun row => hasInt onesKey row && hasInt sampleBytesKey row).map
        (fun row => rowRatio row row) = [1 / 2] ∧
      ¬RatiosPaired corruptedLog := by
  have loss : packetLoss corruptedRows = [5] := by decide +kernel
  have rowWise : (corruptedRows.filter fun row =>
      hasInt packetsExpectedKey row && hasInt packetsSeenKey row).map
        (fun row => rowLoss row row) = [0] := by decide +kernel
  have ratio : onesRatio corruptedRows = .ok [Double.ofRat 1] := by decide +kernel
  refine ⟨?_, rowWise, by decide +kernel, ?_⟩
  · rw [deriveColumns, show rawValues corruptedLog = some [] by decide +kernel,
      show corruptedLog.rows = corruptedRows from rfl, ratio, loss]
    rfl
  · intro paired
    have own := paired.loss
    rw [packet_loss_eq, show corruptedRows = corruptedLog.rows from rfl, own] at loss
    exact absurd loss (by decide +kernel)

end BootEntropy.Aeb
