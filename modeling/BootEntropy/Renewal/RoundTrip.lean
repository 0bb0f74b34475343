import BootEntropy.Lib.Rounding
import BootEntropy.Renewal.Durations
import BootEntropy.Renewal.Totals

/-!
# Renewal rows, printed and read back

The firmware prints twenty-two numbers in the order of a format string, the parser
reads them in the order of its two name lists. Both orders are the one of the printed
header, so each number comes back under the name of the quantity it is.
-/

namespace BootEntropy.Renewal

open BootEntropy.Lib
open BootEntropy.BootLog (behindTag)

set_option autoImplicit false

/-- `[RENEWAL_HEADER]`, printed before the first row. -/
def renewalHeader : String :=
  "[RENEWAL_HEADER] iter,ret,elapsed_us,response_bytes," ++
    "accepted_net_bytes,rng_block_calls,rng_block_bytes," ++
    "rng_byte_calls,rng_byte_bytes,local_hw_bytes,external_bytes," ++
    "pool_debit_bytes,thread_get_bytes,isr_get_bytes," ++
    "fast_refill_bytes,pool_credit_bits_pre,pool_credit_bits_post," ++
    "rng_block_cycles,rng_byte_cycles,rng_errors," ++
    "pool_timestamp_us_pre,pool_timestamp_us_post"

theorem header_columns : renewalHeader.toList =
    "[RENEWAL_HEADER] ".toList ++ [','].intercalate (fields.map fun field => field.name.toList) := by
  have pieces (a b c d e f g : String) : (a ++ b ++ c ++ d ++ e ++ f ++ g).toList =
      a.toList ++ b.toList ++ c.toList ++ d.toList ++ e.toList ++ f.toList ++ g.toList := by
    simp only [String.toList_append]
  exact (pieces ..).trans (by decide +kernel)

def counted (pre post : UInt64) : Int := ((post.toNat : Int) - pre.toNat) % 2 ^ 64

/-- What a name stands for. The pool columns are differences of two snapshots, the
credits and the timestamps are the snapshots themselves. -/
def quantity (session : Session) (iter : Int) (mixed : Mixed) : Field → Int
  | .iter => iter
  | .ret => mixed.ret
  | .elapsedUs => (cyclesToUs (getCycles session.startCycles)
      (getCycles (session.cyclesAfter mixed.exchange.calls.length))).toNat
  | .responseBytes => mixed.exchange.responseDataLen
  | .acceptedNetBytes => mixed.acceptedNetBytes
  | .rngBlockCalls => session.rng.blockCalls.toNat
  | .rngBlockBytes => session.rng.blockBytes.toNat
  | .rngBlockCycles => session.rng.blockCycles.toNat
  | .rngByteCalls => session.rng.byteCalls.toNat
  | .rngByteBytes => session.rng.byteBytes.toNat
  | .rngByteCycles => session.rng.byteCycles.toNat
  | .rngErrors => session.rng.errors.toNat
  | .localHwBytes => counted session.pre.totalHwBytes session.post.totalHwBytes
  | .externalBytes => counted session.pre.totalExternalBytes session.post.totalExternalBytes
  | .poolDebitBytes => counted session.pre.totalPoolDebitBytes session.post.totalPoolDebitBytes
  | .threadGetBytes => counted session.pre.totalThreadGetBytes session.post.totalThreadGetBytes
  | .isrGetBytes => counted session.pre.totalIsrGetBytes session.post.totalIsrGetBytes
  | .fastRefillBytes => counted session.pre.totalFastRefillBytes session.post.totalFastRefillBytes
  | .poolCreditBitsPre => session.pre.creditedPoolBits.toNat
  | .poolCreditBitsPost => session.post.creditedPoolBits.toNat
  | .poolTimestampUsPre => session.pre.timestampUs.toNat
  | .poolTimestampUsPost => session.post.timestampUs.toNat

/-! ## Printed numbers -/

/-- Far below the limit of `int`. -/
def Wide (value : Int) : Prop := value.natAbs < 2 ^ 64

theorem parse_values {values : List Int} (wide : ∀ value ∈ values, Wide value) :
    (values.map signedDecimal).mapM parseInt = some values := by
  induction values with
  | nil => rfl
  | cons value rest ih =>
      rw [List.forall_mem_cons] at wide
      rw [List.map_cons, List.mapM_cons, parse_int_signed (decimal_short wide.1), ih wide.2]
      rfl

structure NumeralChar (c : Char) : Prop where
  noComma : c ≠ ','
  noSpace : isSpace c = false
  noBreak : isLineBreak c = false

theorem signed_decimal_chars (value : Int) : ∀ c ∈ signedDecimal value, NumeralChar c := by
  have digit : ∀ d < 10, d.digitChar ≠ ',' ∧ isSpace d.digitChar = false ∧
      isLineBreak d.digitChar = false := by decide
  have printed : ∀ d < 10, NumeralChar d.digitChar := by
    intro d below
    obtain ⟨comma, space, lineBreak⟩ := digit d below
    exact ⟨comma, space, lineBreak⟩
  have natural (number : Nat) : ∀ c ∈ decimal number, NumeralChar c :=
    forall_mem_to_digits (by decide) printed number
  cases value with
  | ofNat number => exact natural number
  | negSucc number =>
      rw [signedDecimal, List.forall_mem_cons]
      exact ⟨⟨by decide, by decide, by decide⟩, natural (number + 1)⟩

theorem signed_decimal_ne_nil (value : Int) : signedDecimal value ≠ [] := by
  cases value with
  | ofNat number => exact Nat.toDigits_ne_nil
  | negSucc number => exact List.cons_ne_nil _ _

/-! ## The line -/

def payloadText (values : List Int) : Text := [','].intercalate (values.map signedDecimal)

theorem payload_columns {values : List Int} (some : values ≠ []) :
    (payloadText values).splitOn ',' = values.map signedDecimal := by
  apply List.splitOn_intercalate
  · rw [List.forall_mem_map]
    intro value _ comma
    exact (signed_decimal_chars value ',' comma).noComma rfl
  · simpa using some

theorem payload_single (value : Int) : payloadText [value] = signedDecimal value := by
  simp [payloadText, List.intercalate]

theorem payload_cons (value next : Int) (later : List Int) :
    payloadText (value :: next :: later) =
      signedDecimal value ++ ',' :: payloadText (next :: later) := by
  simp [payloadText, List.intercalate]

theorem payload_chars (values : List Int) :
    ∀ c ∈ payloadText values, c = ',' ∨ NumeralChar c := by
  induction values with
  | nil => exact List.forall_mem_nil _
  | cons value rest ih =>
      cases rest with
      | nil =>
          rw [payload_single]
          exact fun c member => .inr (signed_decimal_chars value c member)
      | cons next later =>
          rw [payload_cons, List.forall_mem_append, List.forall_mem_cons]
          exact ⟨fun c member => .inr (signed_decimal_chars value c member), .inl rfl, ih⟩

theorem payload_ne_nil {values : List Int} (some : values ≠ []) : payloadText values ≠ [] := by
  cases values with
  | nil => exact absurd rfl some
  | cons value rest =>
      cases rest with
      | nil =>
          rw [payload_single]
          exact signed_decimal_ne_nil value
      | cons next later =>
          rw [payload_cons]
          exact List.append_ne_nil_of_right_ne_nil _ (List.cons_ne_nil _ _)

theorem payload_last (values : List Int) : ∀ c ∈ (payloadText values).getLast?, NumeralChar c := by
  induction values with
  | nil => exact fun c member => absurd member (Option.not_mem_none c)
  | cons value rest ih =>
      cases rest with
      | nil =>
          rw [payload_single]
          exact fun c member => signed_decimal_chars value c (List.mem_of_mem_getLast? member)
      | cons next later =>
          have filled : payloadText (next :: later) ≠ [] := payload_ne_nil (List.cons_ne_nil _ _)
          rw [payload_cons, List.getLast?_append_of_ne_nil _ (List.cons_ne_nil _ _),
            ← List.singleton_append, List.getLast?_append_of_ne_nil _ filled]
          exact ih

section Row

variable {values : List Int}

theorem row_line_plain : PlainLine (iterTag ++ payloadText values) := by
  rw [PlainLine, List.forall_mem_append]
  refine ⟨by decide, fun c member => ?_⟩
  rcases payload_chars values c member with rfl | numeral
  · decide
  · exact numeral.noBreak

theorem row_line_strip (some : values ≠ []) :
    strip (iterTag ++ payloadText values) = iterTag ++ payloadText values := by
  have trimmed := @strip_line (iterTag ++ payloadText values) [] ?_ ?_ ?_
  · rwa [List.append_nil] at trimmed
  · rintro c ⟨⟩
    decide
  · rw [List.getLast?_append_of_ne_nil _ (payload_ne_nil some)]
    exact fun c member => (payload_last values c member).noSpace
  · exact List.forall_mem_nil _

theorem read_row_line (width : values.length = fields.length) :
    readLine (strip (iterTag ++ payloadText values)) =
      .row fields (values.map signedDecimal) := by
  have some : values ≠ [] := List.ne_nil_of_length_pos (by rw [width]; decide)
  have long : (values.map signedDecimal).length = fields.length := by
    rw [List.length_map, width]
  have notShort : ¬(values.map signedDecimal).length = baseFields.length := by
    rw [long]
    decide
  rw [row_line_strip some, readLine, BootLog.behind_tag_none (iter_line_not_meta _),
    BootLog.behind_tag_append]
  simp only [readPayload, payload_columns some, if_neg notShort, if_pos long]

theorem enter_row_line (width : values.length = fields.length)
    (wide : ∀ value ∈ values, Wide value) (before : Parsed) :
    enterLine before (iterTag ++ payloadText values) =
      .ok { before with rows := before.rows ++ [readRow fields values] } := by
  rw [enterLine, read_row_line width, enterReading, parse_values wide]

end Row

/-! ## The printed session -/

/-- The arguments of the `printf`, in its order. -/
def IterLine.values (line : IterLine) : List Int :=
  [line.iter, line.ret, line.elapsedUs.toNat, line.responseBytes, line.acceptedNetBytes,
    line.rngBlockCalls.toNat, line.rngBlockBytes.toNat, line.rngByteCalls.toNat,
    line.rngByteBytes.toNat, line.localHwBytes.toNat, line.externalBytes.toNat,
    line.poolDebitBytes.toNat, line.threadGetBytes.toNat, line.isrGetBytes.toNat,
    line.fastRefillBytes.toNat, line.poolCreditBitsPre.toNat, line.poolCreditBitsPost.toNat,
    line.rngBlockCycles.toNat, line.rngByteCycles.toNat, line.rngErrors.toNat,
    line.poolTimestampUsPre.toNat, line.poolTimestampUsPost.toNat]

theorem iter_text_eq (line : IterLine) :
    (RenewalLine.iter line).text = iterTag ++ payloadText line.values := rfl

theorem sub_eq_counted (pre post : UInt64) : ((post - pre).toNat : Int) = counted pre post := by
  have bound := pre.toNat_lt
  rw [counted, UInt64.toNat_sub]
  omega

theorem row_quantity (session : Session) (iter : Int) (mixed : Mixed) (field : Field) :
    readRow fields (iterLine session iter mixed).values field = quantity session iter mixed field := by
  cases field with
  | localHwBytes => exact sub_eq_counted _ _
  | externalBytes => exact sub_eq_counted _ _
  | poolDebitBytes => exact sub_eq_counted _ _
  | threadGetBytes => exact sub_eq_counted _ _
  | isrGetBytes => exact sub_eq_counted _ _
  | fastRefillBytes => exact sub_eq_counted _ _
  | _ => rfl

theorem wide_int {value : Int} (lower : -2 ^ 31 ≤ value) (upper : value < 2 ^ 31) : Wide value := by
  rw [Wide]
  omega

theorem wide_nat {value : Nat} (fits : value < 2 ^ 64) : Wide value := fits

theorem values_wide (session : Session) {iter : Int} {mixed : Mixed}
    (iterInt : -2 ^ 31 ≤ iter ∧ iter < 2 ^ 31) (retInt : -2 ^ 31 ≤ mixed.ret ∧ mixed.ret ≤ 0)
    (sizes : mixed.exchange.responseDataLen < 2 ^ 32 ∧ mixed.acceptedNetBytes < 2 ^ 32) :
    ∀ value ∈ (iterLine session iter mixed).values, Wide value := by
  have long (value : UInt64) : Wide value.toNat := wide_nat value.toNat_lt
  have word (value : UInt32) : Wide value.toNat :=
    wide_nat (lt_of_lt_of_le value.toNat_lt (by decide))
  have size {value : Nat} (fits : value < 2 ^ 32) : Wide value :=
    wide_nat (lt_of_lt_of_le fits (by decide))
  have ret : Wide mixed.ret := wide_int retInt.1 (lt_of_le_of_lt retInt.2 (by decide))
  simp only [IterLine.values, List.forall_mem_cons]
  exact ⟨wide_int iterInt.1 iterInt.2, ret, word _, size sizes.1, size sizes.2, long _, long _,
    long _, long _, long _, long _, long _, long _, long _, long _, word _, word _, long _, long _,
    long _, long _, long _, List.forall_mem_nil _⟩

/-! ## The derived columns -/

theorem derive_rows_items {interMs : Int} {cumulative : Double} {rows : List Row}
    {items : List Item} (derived : deriveRows interMs cumulative rows = .ok items) :
    ∀ item ∈ items, ∃ activeS wallS cumulativeWallS,
      item = deriveItem item.row activeS wallS cumulativeWallS := by
  induction rows generalizing cumulative items with
  | nil =>
      cases derived
      exact List.forall_mem_nil _
  | cons row rest ih =>
      rw [deriveRows] at derived
      obtain ⟨activeS, -, derived⟩ := bind_eq_ok derived
      obtain ⟨pauseS, -, derived⟩ := bind_eq_ok derived
      obtain ⟨later, recursive, derived⟩ := bind_eq_ok derived
      cases derived
      rw [List.forall_mem_cons]
      exact ⟨⟨_, _, _, rfl⟩, ih recursive⟩

/-- Whatever log a row stands in, its derived columns are combinations of its own. -/
theorem parse_log_items {text : Text} {log : Log} (parsed : parseLog text = .ok log) :
    ∀ item ∈ log.items, ∃ activeS wallS cumulativeWallS,
      item = deriveItem item.row activeS wallS cumulativeWallS := by
  rw [parseLog] at parsed
  obtain ⟨lines, -, parsed⟩ := bind_eq_ok parsed
  obtain ⟨items, derived, parsed⟩ := bind_eq_ok parsed
  cases parsed
  rw [addDerivedFields] at derived
  obtain ⟨interMs, -, derived⟩ := bind_eq_ok derived
  exact derive_rows_items derived

theorem parse_row_line {values : List Int} (width : values.length = fields.length)
    (wide : ∀ value ∈ values, Wide value)
    (elapsed : |(readRow fields values .elapsedUs : ℚ)| ≤ 2 ^ 64) :
    ∃ item, parseLog (iterTag ++ payloadText values ++ ['\n']) = .ok ⟨∅, [item], [], []⟩ ∧
      item.row = readRow fields values := by
  have lines : splitLines (iterTag ++ payloadText values ++ ['\n']) =
      [iterTag ++ payloadText values] := by
    have split := split_lines_line (@row_line_plain values) (.inl rfl) []
    rwa [List.append_nil] at split
  have small : |(readRow fields values .elapsedUs / (1000000 : Int) : ℚ)| ≤ 2 ^ 64 := by
    rw [abs_div]
    apply le_trans (div_le_self (abs_nonneg _) _) elapsed
    norm_num
  have zero : FitsDouble ((0 : Int) / (1000 : Int)) := fits_double_small (by norm_num)
  obtain ⟨items, derived⟩ := (derive_rows_succeeds 0 (.finite 0) [readRow fields values]).mpr (by
    rw [List.forall_mem_singleton]
    exact ⟨fits_double_small small, zero⟩)
  obtain ⟨own, -⟩ := derive_rows_rows derived
  obtain ⟨item, rfl, same⟩ := List.map_eq_singleton_iff.mp own
  refine ⟨item, ?_, same⟩
  have pause : pauseOf ∅ = some 0 := by decide
  rw [parseLog, lines, List.foldlM_cons, enter_row_line width wide]
  show (addDerivedFields ∅ [readRow fields values] >>= fun items =>
    Except.ok (⟨∅, items, [], []⟩ : Log)) = _
  rw [add_derived_fields_eq pause, derived]
  rfl

theorem elapsed_small (session : Session) (iter : Int) (mixed : Mixed) :
    |(readRow fields (iterLine session iter mixed).values .elapsedUs : ℚ)| ≤ 2 ^ 64 := by
  have bound := (iterLine session iter mixed).elapsedUs.toNat_lt
  have printed : readRow fields (iterLine session iter mixed).values .elapsedUs =
      (iterLine session iter mixed).elapsedUs.toNat := rfl
  rw [printed, Int.cast_natCast, Nat.abs_cast]
  exact_mod_cast (lt_trans bound (by decide)).le

/-- The printed line of an iteration comes back as one row. The ranges are those of the
printed C types. -/
theorem iter_row_round_trip (session : Session) (iter : Int) (mixed : Mixed)
    (iterInt : -2 ^ 31 ≤ iter ∧ iter < 2 ^ 31) (retInt : -2 ^ 31 ≤ mixed.ret ∧ mixed.ret ≤ 0)
    (sizes : mixed.exchange.responseDataLen < 2 ^ 32 ∧ mixed.acceptedNetBytes < 2 ^ 32) :
    let line := (RenewalLine.iter (iterLine session iter mixed)).text
    renewalHeader.toList =
      "[RENEWAL_HEADER] ".toList ++ [','].intercalate (fields.map fun field => field.name.toList) ∧
    ∃ row : Row,
      (∀ field, row field = quantity session iter mixed field) ∧
      (∀ before, enterLine before line = .ok { before with rows := before.rows ++ [row] }) ∧
      (∃ item, parseLog (line ++ ['\n']) = .ok ⟨∅, [item], [], []⟩ ∧ item.row = row) ∧
      ∀ text log, parseLog text = .ok log → ∀ item ∈ log.items, item.row = row →
        item.poolCreditDeltaBits =
          (session.post.creditedPoolBits.toNat : Int) - session.pre.creditedPoolBits.toNat ∧
        item.supplyBytes =
          counted session.pre.totalHwBytes session.post.totalHwBytes +
            counted session.pre.totalExternalBytes session.post.totalExternalBytes ∧
        item.outMinusSupplyBytes =
          counted session.pre.totalPoolDebitBytes session.post.totalPoolDebitBytes -
            (counted session.pre.totalHwBytes session.post.totalHwBytes +
              counted session.pre.totalExternalBytes session.post.totalExternalBytes) := by
  intro line
  have same := row_quantity session iter mixed
  have wide := values_wide session iterInt retInt sizes
  have width : (iterLine session iter mixed).values.length = fields.length := rfl
  have printed : line = iterTag ++ payloadText (iterLine session iter mixed).values :=
    iter_text_eq _
  have elapsed := elapsed_small session iter mixed
  rw [printed]
  refine ⟨header_columns, readRow fields (iterLine session iter mixed).values, same,
    enter_row_line width wide, parse_row_line width wide elapsed, ?_⟩
  intro text log parsed item member own
  obtain ⟨activeS, wallS, cumulativeWallS, derived⟩ := parse_log_items parsed item member
  rw [derived]
  simp only [deriveItem, own, same, quantity, and_self]

def idleMixed : Mixed := ⟨-61, 0, { emptyResponse with calls := [], console := [] }⟩

theorem iter_row_round_trip_idle :
    ∃ row : Row, row .ret = -61 ∧
      enterLine emptyParsed (RenewalLine.iter (iterLine (waitingSession 5) 7 idleMixed)).text =
        .ok { emptyParsed with rows := [row] } := by
  obtain ⟨-, row, same, entered, -⟩ := iter_row_round_trip (waitingSession 5) 7 idleMixed
    (by decide) (by decide) (by decide)
  exact ⟨row, same .ret, entered emptyParsed⟩

end BootEntropy.Renewal
