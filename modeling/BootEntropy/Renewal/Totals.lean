import BootEntropy.Lib.Checked
import BootEntropy.Renewal.Parser

/-!
# When the renewal parser is total

A row with the right number of columns is read with `int`, and so is the pause
between the handshakes. Neither call stands in a `try`, so a damaged character in a
column ends the whole analysis instead of giving a warning.
-/

namespace BootEntropy.Renewal

open BootEntropy.Lib
open BootEntropy.BootLog (behindTag)

set_option autoImplicit false

/-! ## What the lines say -/

def Reading.entry? : Reading → Option (Text × Text)
  | .entry key value => some (key, value)
  | _ => none

def Reading.row? : Reading → Option Row
  | .row names columns => (columns.mapM parseInt).map (readRow names)
  | _ => none

def Reading.warning? : Reading → Option Text
  | .malformed payload => some (malformedWarning payload)
  | .warning text => some text
  | _ => none

def Reading.error? : Reading → Option Text
  | .error text => some text
  | _ => none

def Reading.Literal : Reading → Prop
  | .row _ columns => ∀ column ∈ columns, (parseInt column).isSome = true
  | _ => True

instance literalDecidable : (reading : Reading) → Decidable reading.Literal
  | .row _ columns =>
      inferInstanceAs (Decidable (∀ column ∈ columns, (parseInt column).isSome = true))
  | .entry _ _ | .malformed _ | .warning _ | .error _ | .nothing =>
      inferInstanceAs (Decidable True)

def readings (text : Text) : List Reading := (splitLines text).map fun raw => readLine (strip raw)

def rowsOf (text : Text) : List Row := (readings text).filterMap Reading.row?

def metadataOf (text : Text) : Entries := ofEntries ((readings text).filterMap Reading.entry?)

def Parsed.addAll (parsed : Parsed) (readings : List Reading) : Parsed where
  metadata := (readings.filterMap Reading.entry?).foldl
    (fun metadata entry => metadata.insert entry.1 entry.2) parsed.metadata
  rows := parsed.rows ++ readings.filterMap Reading.row?
  warnings := parsed.warnings ++ readings.filterMap Reading.warning?
  errors := parsed.errors ++ readings.filterMap Reading.error?

theorem map_m_is_some {columns : List Text} :
    (columns.mapM parseInt).isSome = true ↔ ∀ column ∈ columns, (parseInt column).isSome = true := by
  induction columns with
  | nil => simp
  | cons column rest ih =>
      rw [List.forall_mem_cons, ← ih, List.mapM_cons]
      cases parseInt column with
      | none => simp
      | some value => cases rest.mapM parseInt <;> simp

theorem enter_reading_ok {reading : Reading} (literal : reading.Literal) (parsed : Parsed) :
    enterReading parsed reading = .ok (parsed.addAll [reading]) := by
  cases reading with
  | row names columns =>
      obtain ⟨values, read⟩ := Option.isSome_iff_exists.mp (map_m_is_some.mpr literal)
      simp [enterReading, Parsed.addAll, List.filterMap_cons, Reading.entry?, Reading.row?,
        Reading.warning?, Reading.error?, read]
  | _ =>
      simp [enterReading, Parsed.addAll, List.filterMap_cons, Reading.entry?, Reading.row?,
        Reading.warning?, Reading.error?]

theorem enter_reading_error {reading : Reading} (damaged : ¬reading.Literal) (parsed : Parsed) :
    enterReading parsed reading = .error .valueError := by
  cases reading with
  | row names columns =>
      have none : columns.mapM parseInt = Option.none := by
        rw [← Option.not_isSome_iff_eq_none]
        exact fun read => damaged (map_m_is_some.mp read)
      simp [enterReading, none]
  | _ => exact absurd trivial damaged

theorem add_all_cons (parsed : Parsed) (reading : Reading) (rest : List Reading) :
    parsed.addAll (reading :: rest) = (parsed.addAll [reading]).addAll rest := by
  have front : reading :: rest = [reading] ++ rest := rfl
  rw [front]
  simp only [Parsed.addAll, List.filterMap_append, List.foldl_append, List.append_assoc]

theorem fold_lines (lines : List Text) (parsed : Parsed) :
    lines.foldlM enterLine parsed =
      if ∀ raw ∈ lines, (readLine (strip raw)).Literal then
        .ok (parsed.addAll (lines.map fun raw => readLine (strip raw)))
      else .error .valueError := by
  induction lines generalizing parsed with
  | nil => simp [Parsed.addAll, pure, Except.pure]
  | cons raw rest ih =>
      rw [List.foldlM_cons, enterLine]
      by_cases literal : (readLine (strip raw)).Literal
      · simp only [List.forall_mem_cons, literal, true_and, List.map_cons]
        rw [add_all_cons parsed (readLine (strip raw)), enter_reading_ok literal]
        exact ih _
      · rw [enter_reading_error literal]
        simp only [List.forall_mem_cons, literal, false_and, if_false]
        rfl

/-! ## The derived fields -/

section Derived

variable {interMs : Int} {rows : List Row} {items : List Item}

theorem derive_rows_rows {cumulative : Double} (derived : deriveRows interMs cumulative rows = .ok items) :
    items.map (·.row) = rows ∧
      items.map (·.rngOutputBytes) = rows.map fun row => row .rngBlockBytes + row .rngByteBytes := by
  induction rows generalizing cumulative items with
  | nil =>
      cases derived
      exact ⟨rfl, rfl⟩
  | cons row rest ih =>
      rw [deriveRows] at derived
      obtain ⟨activeS, -, derived⟩ := bind_eq_ok derived
      obtain ⟨pauseS, -, derived⟩ := bind_eq_ok derived
      obtain ⟨later, recursive, derived⟩ := bind_eq_ok derived
      cases derived
      obtain ⟨same, bytes⟩ := ih recursive
      exact ⟨congrArg (row :: ·) same, congrArg (_ :: ·) bytes⟩

theorem derive_rows_succeeds (interMs : Int) (cumulative : Double) (rows : List Row) :
    Succeeds (deriveRows interMs cumulative rows) ↔
      ∀ row ∈ rows, FitsDouble (row .elapsedUs / (1000000 : Int)) ∧
        FitsDouble (interMs / (1000 : Int)) := by
  induction rows generalizing cumulative with
  | nil => exact iff_of_true (succeeds_ok _) (List.forall_mem_nil _)
  | cons row rest ih =>
      rw [List.forall_mem_cons, deriveRows, and_assoc]
      apply succeeds_bind_iff (divide_ints_succeeds _ _)
      intro activeS
      apply succeeds_bind_iff (divide_ints_succeeds _ _)
      intro pauseS
      have last := succeeds_bind_iff (ih (cumulative.add (activeS.add pauseS)))
        fun items => iff_true_intro (succeeds_ok (ε := Raised)
          (deriveItem row activeS (activeS.add pauseS) (cumulative.add (activeS.add pauseS)) :: items))
      rw [and_true] at last
      exact last

end Derived

/-! ## The summary -/

section Sizes

variable (pstdev : List Int → Except Raised Double)

def okRows (rows : List Row) : List Row := rows.filter fun row => row .ret = 0

def rowTotal (rows : List Row) (field : Field) : Int := (rows.map fun row => row field).sum

def rngOutputs (rows : List Row) : List Int := rows.map fun row => row .rngBlockBytes + row .rngByteBytes

/-- The time of some rows, without and with the pauses. -/
def activeSeconds (rows : List Row) : Double :=
  Double.ofRat (rowTotal rows .elapsedUs / (1000000 : Int))

def wallSeconds (interMs : Int) (rows : List Row) : Double :=
  (activeSeconds rows).add (Double.ofRat ((rows.length * interMs : Int) / (1000 : Int)))

def supplyTotal (rows : List Row) : Int := rowTotal rows .localHwBytes + rowTotal rows .externalBytes

/-- Numbers of which every float that the summary needs exists. -/
structure SizedSummary (interMs : Int) (rows : List Row) : Prop where
  elapsed : FitsDouble (rowTotal rows .elapsedUs / (1000000 : Int))
  pauses : FitsDouble ((rows.length * interMs : Int) / (1000 : Int))
  mean : (mean (rngOutputs rows)).den ≠ 1 → FitsDouble (mean (rngOutputs rows))
  median : rows.length % 2 ≠ 1 →
    FitsDouble (((middle (rngOutputs rows)).1 + (middle (rngOutputs rows)).2 : Int) / (2 : Int))
  deviation : 1 < rows.length → Succeeds (pstdev (rngOutputs rows))
  active : (activeSeconds rows).Truthy → FitsDouble (rowTotal rows .poolDebitBytes)
  wall : (wallSeconds interMs rows).Truthy →
    FitsDouble (rowTotal rows .poolDebitBytes) ∧ FitsDouble (rowTotal rows .localHwBytes) ∧
      FitsDouble (rowTotal rows .externalBytes) ∧ FitsDouble (supplyTotal rows) ∧
        FitsDouble (supplyTotal rows - rowTotal rows .poolDebitBytes : Int)
  ratios : rowTotal rows .poolDebitBytes ≠ 0 →
    FitsDouble (supplyTotal rows / rowTotal rows .poolDebitBytes) ∧
      FitsDouble ((rngOutputs rows).sum / rowTotal rows .poolDebitBytes)

structure Sized (interMs : Int) (rows : List Row) : Prop where
  times : ∀ row ∈ rows, FitsDouble (row .elapsedUs / (1000000 : Int)) ∧
    FitsDouble (interMs / (1000 : Int))
  summary : okRows rows ≠ [] → SizedSummary pstdev interMs (okRows rows)

theorem per_second_succeeds (amount : Int) (elapsed : Double) :
    Succeeds (perSecond amount elapsed) ↔ (elapsed.Truthy → FitsDouble amount) := by
  apply succeeds_if_iff
  have converted := succeeds_bind_iff (divide_ints_succeeds amount 1)
    fun value => iff_true_intro (succeeds_ok (ε := Raised) (some (value.div elapsed)))
  rw [and_true, Int.cast_one, div_one] at converted
  exact converted

theorem ratio_succeeds (part whole : Int) :
    Succeeds (ratio part whole) ↔ (whole ≠ 0 → FitsDouble (part / whole)) := by
  apply succeeds_if_iff
  have divided := succeeds_bind_iff (divide_ints_succeeds part whole)
    fun value => iff_true_intro (succeeds_ok (ε := Raised) (some value))
  rw [and_true] at divided
  exact divided

theorem deviation_succeeds (values : List Int) :
    Succeeds (deviation pstdev values) ↔ (1 < values.length → Succeeds (pstdev values)) :=
  succeeds_if_iff _ Iff.rfl _

theorem summarize_ok_succeeds (interMs : Int) (first last : Row) {ok : List Item} {rows : List Row}
    (same : ok.map (·.row) = rows) (bytes : rngBytes ok = rngOutputs rows) :
    Succeeds (summarizeOk pstdev interMs first last ok) ↔ SizedSummary pstdev interMs rows := by
  have length : ok.length = rows.length := by rw [← same, List.length_map]
  have totals (field : Field) : total field ok = rowTotal rows field := by
    rw [total, rowTotal, ← same, List.map_map]
    rfl
  have width : (rngOutputs rows).length = rows.length := List.length_map _
  apply Iff.trans
  · rewrite [summarizeOk, divideInts, unless_overflow_bind, divideInts, unless_overflow_bind]
    apply and_congr Iff.rfl
    apply and_congr Iff.rfl
    apply succeeds_bind_iff (mean_ints_succeeds _)
    intro muMean
    apply succeeds_bind_iff (median_ints_succeeds _)
    intro muMedian
    apply succeeds_bind_iff (deviation_succeeds _ _)
    intro muStd
    apply succeeds_bind_iff (per_second_succeeds _ _)
    intro lambdaOutActive
    apply succeeds_bind_iff (per_second_succeeds _ _)
    intro lambdaOutWall
    apply succeeds_bind_iff (per_second_succeeds _ _)
    intro lambdaLocalWall
    apply succeeds_bind_iff (per_second_succeeds _ _)
    intro lambdaNetWall
    apply succeeds_bind_iff (per_second_succeeds _ _)
    intro lambdaSupplyWall
    apply succeeds_bind_iff (per_second_succeeds _ _)
    intro renewalMarginWall
    apply succeeds_bind_iff (ratio_succeeds _ _)
    intro renewalSupplyToOut
    apply succeeds_bind_iff (ratio_succeeds _ _)
    intro drbgExpansion
    exact iff_true_intro (succeeds_ok _)
  · simp only [totals, bytes, length, width]
    constructor
    · rintro ⟨elapsed, pauses, mean, median, deviation, active, debit, localHw, external, supply,
        margin, toOut, expansion, -⟩
      exact {
        elapsed := elapsed
        pauses := pauses
        mean := mean
        median := median
        deviation := deviation
        active := active
        wall := fun truthy =>
          ⟨debit truthy, localHw truthy, external truthy, supply truthy, margin truthy⟩
        ratios := fun nonzero => ⟨toOut nonzero, expansion nonzero⟩ }
    · intro sized
      exact ⟨sized.elapsed, sized.pauses, sized.mean, sized.median, sized.deviation, sized.active,
        fun truthy => (sized.wall truthy).1, fun truthy => (sized.wall truthy).2.1,
        fun truthy => (sized.wall truthy).2.2.1, fun truthy => (sized.wall truthy).2.2.2.1,
        fun truthy => (sized.wall truthy).2.2.2.2, fun nonzero => (sized.ratios nonzero).1,
        fun nonzero => (sized.ratios nonzero).2, trivial⟩

/-! ## The whole analysis -/

/-- `inter_handshake_ms` as the log gives it, if that is an integer literal. -/
def pauseOf (metadata : Entries) : Option Int :=
  parseInt ((metadata.lookup "inter_handshake_ms".toList).getD "0".toList)

theorem inter_handshake_ms_eq_ok {metadata : Entries} {interMs : Int} :
    interHandshakeMs metadata = .ok interMs ↔ pauseOf metadata = some interMs := by
  rw [interHandshakeMs, pauseOf]
  cases parseInt ((metadata.lookup "inter_handshake_ms".toList).getD "0".toList) with
  | none => simp
  | some value => simp

def emptyParsed : Parsed := ⟨∅, [], [], []⟩

theorem parse_log_damaged {text : Text}
    (damaged : ¬∀ raw ∈ splitLines text, (readLine (strip raw)).Literal) :
    parseLog text = .error .valueError := by
  rw [parseLog, fold_lines, if_neg damaged]
  rfl

theorem parse_log_eq {text : Text}
    (literal : ∀ raw ∈ splitLines text, (readLine (strip raw)).Literal) :
    parseLog text = (do
      let items ← addDerivedFields (metadataOf text) (rowsOf text)
      return ⟨metadataOf text, items, (readings text).filterMap Reading.warning?,
        (readings text).filterMap Reading.error?⟩) := by
  rw [parseLog, fold_lines, if_pos literal]
  rfl

theorem add_derived_fields_eq {metadata : Entries} {interMs : Int}
    (pause : pauseOf metadata = some interMs) (rows : List Row) :
    addDerivedFields metadata rows = deriveRows interMs (.finite 0) rows := by
  rw [addDerivedFields, inter_handshake_ms_eq_ok.mpr pause]
  rfl

theorem summarize_succeeds {log : Log} {interMs : Int} {rows : List Row}
    (pause : pauseOf log.metadata = some interMs) (same : log.items.map (·.row) = rows)
    (bytes : rngBytes log.items = rngOutputs rows) :
    Succeeds (summarize pstdev log) ↔
      (okRows rows ≠ [] → SizedSummary pstdev interMs (okRows rows)) := by
  have chosen : (okItems log.items).map (·.row) = okRows rows := by
    rw [okRows, ← same, List.filter_map]
    rfl
  have output : ∀ item ∈ log.items,
      item.rngOutputBytes = item.row .rngBlockBytes + item.row .rngByteBytes := by
    rw [← same, rngOutputs, rngBytes, List.map_map, List.map_inj_left] at bytes
    exact bytes
  have chosenBytes : rngBytes (okItems log.items) = rngOutputs (okRows rows) := by
    rw [← chosen, rngOutputs, rngBytes, List.map_map, List.map_inj_left]
    intro item member
    exact output item (List.mem_of_mem_filter member)
  rw [summarize, inter_handshake_ms_eq_ok.mpr pause, ok_bind]
  cases listed : okItems log.items with
  | nil =>
      rw [listed] at chosen
      exact iff_of_true (succeeds_ok _) fun some => absurd chosen.symm some
  | cons first rest =>
      rw [listed] at chosen chosenBytes
      have filled : okRows rows ≠ [] := by
        rw [← chosen]
        exact List.cons_ne_nil _ _
      have last : (first :: rest).getLast? = some ((first :: rest).getLast (List.cons_ne_nil _ _)) :=
        List.getLast?_eq_some_getLast _
      rw [List.head?_cons, last, imp_iff_right filled]
      have succeeds := summarize_ok_succeeds pstdev interMs first.row
        ((first :: rest).getLast (List.cons_ne_nil _ _)).row chosen chosenBytes
      have whole := succeeds_bind_iff succeeds fun rates => iff_true_intro (succeeds_ok (ε := Raised)
        ({  iterationsLogged := log.items.length
            iterationsOk := (first :: rest).length
            iterationsFailed := log.items.length - (first :: rest).length
            metadata := log.metadata
            warnings := log.warnings
            errors := log.errors
            rates := some rates } : Summary))
      rw [and_true] at whole
      exact whole

theorem summarize_counts {log : Log} {summary : Summary}
    (summarized : summarize pstdev log = .ok summary) :
    summary.iterationsOk + summary.iterationsFailed = summary.iterationsLogged := by
  rw [summarize] at summarized
  obtain ⟨interMs, -, summarized⟩ := bind_eq_ok summarized
  have counts (rates : Option Rates) (made : ({
      iterationsLogged := log.items.length
      iterationsOk := (okItems log.items).length
      iterationsFailed := log.items.length - (okItems log.items).length
      metadata := log.metadata
      warnings := log.warnings
      errors := log.errors
      rates := rates } : Summary) = summary) :
      summary.iterationsOk + summary.iterationsFailed = summary.iterationsLogged := by
    rw [← made]
    exact add_sub_cancel _ _
  dsimp only at summarized
  split at summarized
  · obtain ⟨rates, -, summarized⟩ := bind_eq_ok summarized
    exact counts (some rates) (Except.ok.inj summarized)
  · exact counts none (Except.ok.inj summarized)

/-! ## Lines with the tag -/

/-- `strip` leaves a tag alone that has something behind it. -/
theorem strip_behind {front rest : Text} (first : ∃ c, front.head? = some c ∧ isSpace c = false)
    (filled : ∃ c ∈ rest, isSpace c = false) : ∃ kept, strip (front ++ rest) = front ++ kept := by
  have split : rest = (rest.reverse.dropWhile isSpace).reverse ++
      (rest.reverse.takeWhile isSpace).reverse := by
    rw [← List.reverse_append, List.takeWhile_append_dropWhile, List.reverse_reverse]
  have some : rest.reverse.dropWhile isSpace ≠ [] := by
    intro none
    obtain ⟨c, member, solid⟩ := filled
    have space := List.dropWhile_eq_nil_iff.mp none c (List.mem_reverse.mpr member)
    rw [solid] at space
    cases space
  have stripped := @strip_line (front ++ (rest.reverse.dropWhile isSpace).reverse)
    (rest.reverse.takeWhile isSpace).reverse ?_ ?_ ?_
  · refine ⟨(rest.reverse.dropWhile isSpace).reverse, ?_⟩
    rwa [List.append_assoc, ← split] at stripped
  · obtain ⟨c, head, solid⟩ := first
    rw [List.head?_append, head]
    rintro d ⟨⟩
    exact solid
  · rw [List.getLast?_append_of_ne_nil _ (List.reverse_ne_nil_iff.mpr some), List.getLast?_reverse]
    intro c member
    have stops := List.head?_dropWhile_not isSpace rest.reverse
    rw [Option.mem_def.mp member] at stops
    exact stops
  · intro c member
    exact List.mem_takeWhile_imp (List.mem_reverse.mp member)

theorem iter_line_not_meta (rest : Text) : ¬metaTag <+: iterTag ++ rest := by
  rintro ⟨behind, same⟩
  have shorter := congrArg (List.take 15) same
  rw [List.take_append_of_le_length (by decide), List.take_append_of_le_length (by decide)]
    at shorter
  exact absurd shorter (by decide)

/-- A line that starts with the tag still does so when it is stripped, unless there is
nothing behind the tag; then it says nothing. -/
theorem read_tagged_line {raw : Text} (tagged : iterTag <+: raw) :
    ((∃ c ∈ raw.drop iterTag.length, isSpace c = false) →
        ∃ payload, readLine (strip raw) = readPayload payload) ∧
      ((¬∃ c ∈ raw.drop iterTag.length, isSpace c = false) →
        readLine (strip raw) = .nothing) := by
  obtain ⟨rest, rfl⟩ := tagged
  rw [List.drop_left]
  constructor
  · intro filled
    obtain ⟨kept, stripped⟩ := @strip_behind iterTag rest ⟨'[', by decide, by decide⟩ filled
    refine ⟨kept, ?_⟩
    rw [stripped, readLine, BootLog.behind_tag_none (iter_line_not_meta kept),
      BootLog.behind_tag_append]
  · intro filled
    have split : iterTag ++ rest = "[RENEWAL_ITER]".toList ++ ' ' :: rest := by
      have tag : iterTag = "[RENEWAL_ITER]".toList ++ [' '] := by decide
      rw [tag, List.append_assoc, List.singleton_append]
    have blank : ∀ c ∈ ' ' :: rest, isSpace c = true := by
      rw [List.forall_mem_cons]
      refine ⟨by decide, fun c member => ?_⟩
      by_contra solid
      exact filled ⟨c, member, Bool.eq_false_iff.mpr solid⟩
    rw [split, strip_line (by decide) (by decide) blank]
    decide

/-- A tagged line adds exactly one row or exactly one warning about itself. -/
def YieldsOne (before after : Parsed) : Prop :=
  (∃ row, after = { before with rows := before.rows ++ [row] }) ∨
    ∃ payload, after = { before with warnings := before.warnings ++ [malformedWarning payload] }

theorem enter_payload_yields {payload : Text} {before after : Parsed}
    (entered : enterReading before (readPayload payload) = .ok after) : YieldsOne before after := by
  have one (names : List Field) (columns : List Text)
      (made : enterReading before (.row names columns) = .ok after) : YieldsOne before after := by
    rw [enterReading] at made
    split at made
    · cases made
      exact Or.inl ⟨_, rfl⟩
    · cases made
  rw [readPayload] at entered
  split_ifs at entered
  · exact one _ _ entered
  · exact one _ _ entered
  · cases entered
    exact Or.inr ⟨payload, rfl⟩

theorem not_yields_self (parsed : Parsed) : ¬YieldsOne parsed parsed := by
  rintro (⟨row, same⟩ | ⟨payload, same⟩)
  · have lengths := congrArg (fun after => after.rows.length) same
    simp at lengths
  · have lengths := congrArg (fun after => after.warnings.length) same
    simp at lengths

/-- The parser reads the whole log, in order, with one result for every tagged line, and
the summary of what it read exists and adds up. -/
def AnalysisTotal (text : Text) : Prop :=
  ∃ log, parseLog text = .ok log ∧
    log.items.map (·.row) = rowsOf text ∧
    (∀ front raw back, splitLines text = front ++ raw :: back → iterTag <+: raw →
      ∃ before after, front.foldlM enterLine emptyParsed = .ok before ∧
        enterLine before raw = .ok after ∧ YieldsOne before after) ∧
    ∃ summary, summarize pstdev log = .ok summary ∧
      summary.iterationsOk + summary.iterationsFailed = summary.iterationsLogged

/-- Every column of a row with the right number of them is an integer literal, no line
ends behind the tag, the last pause between the handshakes is an integer literal, and
no number is too large. -/
structure Analysable (text : Text) : Prop where
  columns : ∀ raw ∈ splitLines text, (readLine (strip raw)).Literal
  filled : ∀ raw ∈ splitLines text, iterTag <+: raw →
    ∃ c ∈ raw.drop iterTag.length, isSpace c = false
  numbers : ∃ interMs, pauseOf (metadataOf text) = some interMs ∧
    Sized pstdev interMs (rowsOf text)

theorem fold_front {text : Text} {front back : List Text} {raw : Text}
    (literal : ∀ raw ∈ splitLines text, (readLine (strip raw)).Literal)
    (whole : splitLines text = front ++ raw :: back) :
    ∃ before, front.foldlM enterLine emptyParsed = .ok before ∧
      enterLine before raw = .ok (before.addAll [readLine (strip raw)]) := by
  rw [whole, List.forall_mem_append, List.forall_mem_cons] at literal
  have reached := fold_lines front emptyParsed
  rw [if_pos literal.1] at reached
  exact ⟨_, reached, enter_reading_ok literal.2.1 _⟩

/-- The analysis is total exactly on the logs whose numbers can be read. -/
theorem analysis_total_iff (text : Text) :
    AnalysisTotal pstdev text ↔ Analysable pstdev text := by
  constructor
  · rintro ⟨log, parsed, -, lines, summary, summarized, -⟩
    have literal : ∀ raw ∈ splitLines text, (readLine (strip raw)).Literal := by
      by_contra damaged
      rw [parse_log_damaged damaged] at parsed
      cases parsed
    rw [parse_log_eq literal] at parsed
    obtain ⟨items, derived, same⟩ := bind_eq_ok parsed
    cases same
    obtain ⟨interMs, pause, rows⟩ := bind_eq_ok derived
    have known := inter_handshake_ms_eq_ok.mp pause
    obtain ⟨own, bytes⟩ := derive_rows_rows rows
    refine ⟨literal, ?_, interMs, known, ?_, ?_⟩
    · intro raw member tagged
      by_contra blank
      obtain ⟨front, back, whole⟩ := List.append_of_mem member
      obtain ⟨before, after, reached, entered, yields⟩ := lines front raw back whole tagged
      have nothing := (read_tagged_line tagged).2 blank
      rw [enterLine, nothing] at entered
      cases entered
      exact not_yields_self before yields
    · exact (derive_rows_succeeds interMs _ _).mp ⟨items, rows⟩
    · exact (@summarize_succeeds pstdev ⟨_, items, _, _⟩ _ _ known own bytes).mp ⟨summary, summarized⟩
  · rintro ⟨literal, filled, interMs, known, sized⟩
    obtain ⟨items, derived⟩ := (derive_rows_succeeds interMs (.finite 0) (rowsOf text)).mpr sized.times
    obtain ⟨own, bytes⟩ := derive_rows_rows derived
    have parsed := parse_log_eq literal
    rw [add_derived_fields_eq known, derived] at parsed
    refine ⟨_, parsed, own, ?_, ?_⟩
    · intro front raw back whole tagged
      obtain ⟨before, reached, entered⟩ := fold_front literal whole
      refine ⟨before, _, reached, entered, ?_⟩
      have member : raw ∈ splitLines text := by
        rw [whole]
        exact List.mem_append_right front (List.mem_cons_self ..)
      obtain ⟨payload, reads⟩ := (read_tagged_line tagged).1 (filled raw member tagged)
      rw [enterLine, reads] at entered
      rw [reads]
      exact enter_payload_yields entered
    · obtain ⟨summary, summarized⟩ :=
        (@summarize_succeeds pstdev ⟨_, items, _, _⟩ _ _ known own bytes).mpr sized.summary
      exact ⟨summary, summarized, summarize_counts pstdev summarized⟩

end Sizes

/-- One damaged character in a column ends the analysis. -/
theorem damaged_column_raises :
    ¬AnalysisTotal (fun _ => .ok (.finite 0))
      "[RENEWAL_ITER] 0,0,8?7,0,0,0,0,0,0,0,0,0,0,0,0,0,0\n".toList := by
  have damaged : ¬∀ raw ∈ splitLines "[RENEWAL_ITER] 0,0,8?7,0,0,0,0,0,0,0,0,0,0,0,0,0,0\n".toList,
      (readLine (strip raw)).Literal := by
    decide +kernel
  rintro ⟨log, parsed, -⟩
  rw [parse_log_damaged damaged] at parsed
  cases parsed

end BootEntropy.Renewal
