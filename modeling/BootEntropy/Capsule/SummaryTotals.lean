import BootEntropy.Capsule.BootRuns
import BootEntropy.Capsule.BootSummary
import BootEntropy.Lib.Checked

/-!
# Which boot summaries exist

The summary of a profile raises on logs without a seeded boot, and the table on a
missing server log; beside that only sizes matter. Where the scripts end, the counts add
up and the statistics are those of the seeded boots.
-/

namespace BootEntropy.BootLog

open BootEntropy.Lib
open BootEntropy.Capsule

set_option autoImplicit false

/-! ## What a boot showed -/

def segmentEntries : List Text → List (Text × Text)
  | [] => []
  | raw :: rest =>
      match readEntry (strip raw) with
      | .banner => []
      | .fields entries => entries ++ segmentEntries rest
      | .result value => [("result".toList, value)]

def shown (segment : List Text) (key : String) : Option Text :=
  lastEntry (segmentEntries segment) key.toList

def Seeded (segment : List Text) : Prop := shown segment "result" = some seededText

instance (segment : List Text) : Decidable (Seeded segment) :=
  inferInstanceAs (Decidable (shown segment "result" = some seededText))

/-- A count of the log and the rate that the parser makes of it. -/
structure Rate where
  source : String
  key : String
  divisor : Nat

def rates : List Rate :=
  [⟨"sram_ones", "sram_one_rate", 4096 * 8⟩,
    ⟨"sram_transitions", "sram_transition_rate", 4096 * 8 - 1⟩,
    ⟨"timing_sum_delta", "timing_mean_delta", 512⟩]

def shownCount (segment : List Text) (source : String) : Option Int :=
  (shown segment source).bind parseLiteral

/-- The quotients of the boot are not too large for a float. -/
def Divisible (segment : List Text) : Prop :=
  ∀ rate ∈ rates, ∀ count, shownCount segment rate.source = some count →
    count.natAbs < (2 ^ 1024 - 2 ^ 970) * rate.divisor

/-- The number that a boot gives for a key: its rate, or else what it showed. -/
def reading (segment : List Text) (key : String) : Option Double :=
  match (rates.find? (·.key = key)).bind fun rate =>
      (shownCount segment rate.source).map fun count => (count / rate.divisor : ℚ) with
  | some quotient => some (Double.ofRat quotient)
  | none => (shown segment key).bind parseFloat

def seededReadings (segments : List (List Text)) (key : String) : List Double :=
  (segments.filter fun segment => Seeded segment).filterMap (reading · key)

theorem read_segment_eq (segment : List Text) :
    ∀ run : BootRun, readSegment run segment = run.setTexts (segmentEntries segment) := by
  induction segment with
  | nil => exact fun _ => rfl
  | cons raw rest ih =>
      intro run
      rw [readSegment, segmentEntries]
      cases readEntry (strip raw) with
      | banner => rfl
      | fields entries =>
          dsimp only
          rw [ih, set_texts_append]
      | result value => rfl

/-! ## Finished runs -/

section Rates

def Fits (run : BootRun) (rate : Rate) : Prop :=
  ∀ count, fieldInt (run rate.source.toList) = some count →
    count.natAbs < (2 ^ 1024 - 2 ^ 970) * rate.divisor

def divided (run : BootRun) (rate : Rate) : BootRun :=
  match fieldInt (run rate.source.toList) with
  | some count => run.set rate.key.toList (.quotient count rate.divisor)
  | none => run

variable {run : BootRun} {rate : Rate}

theorem set_quotient_fits (fits : Fits run rate) :
    run.setQuotient rate.source rate.key rate.divisor = some (divided run rate) := by
  rw [BootRun.setQuotient, divided]
  cases count : fieldInt (run rate.source.toList) with
  | none => rfl
  | some dividend =>
      dsimp only
      rw [trueDivide, if_pos (fits dividend count)]
      rfl

theorem set_quotient_overflows (large : ¬Fits run rate) :
    run.setQuotient rate.source rate.key rate.divisor = none := by
  rw [Fits] at large
  push Not at large
  obtain ⟨dividend, count, large⟩ := large
  rw [BootRun.setQuotient, count]
  dsimp only
  rw [trueDivide, if_neg (Nat.not_lt.mpr large)]
  rfl

theorem divided_other {key : Text} (other : key ≠ rate.key.toList) :
    divided run rate key = run key := by
  rw [divided]
  cases fieldInt (run rate.source.toList) with
  | none => rfl
  | some count => exact if_neg other

theorem divided_own : divided run rate rate.key.toList =
    ((fieldInt (run rate.source.toList)).map (FieldValue.quotient · rate.divisor)).or
      (run rate.key.toList) := by
  rw [divided]
  cases fieldInt (run rate.source.toList) with
  | none => rfl
  | some count => exact if_pos rfl

structure Apart (list : List Rate) : Prop where
  sources : ∀ first ∈ list, ∀ second ∈ list, first.source.toList ≠ second.key.toList
  keys : (list.map (·.key)).Nodup

theorem rates_apart : Apart rates := ⟨by decide, by decide⟩

theorem Apart.tail {list : List Rate} (apart : Apart (rate :: list)) : Apart list where
  sources first member second other :=
    apart.sources first (List.mem_cons_of_mem _ member) second (List.mem_cons_of_mem _ other)
  keys := (List.nodup_cons.mp apart.keys).2

theorem Apart.source {list : List Rate} (apart : Apart (rate :: list)) {other : Rate}
    (member : other ∈ list) : divided run rate other.source.toList = run other.source.toList :=
  divided_other (apart.sources other (List.mem_cons_of_mem _ member) rate List.mem_cons_self)

/-- By induction on the rates, none of which reads what another one writes. -/
theorem fold_rates {list : List Rate} (apart : Apart list) (run : BootRun) :
    ((∀ rate ∈ list, Fits run rate) →
      list.foldlM (fun run rate => run.setQuotient rate.source rate.key rate.divisor) run =
        some (list.foldl divided run)) ∧
    ((¬∀ rate ∈ list, Fits run rate) →
      list.foldlM (fun run rate => run.setQuotient rate.source rate.key rate.divisor) run =
        none) := by
  induction list generalizing run with
  | nil => exact ⟨fun _ => rfl, fun large => absurd (by simp) large⟩
  | cons rate list ih =>
      have later : (∀ other ∈ list, Fits (divided run rate) other) ↔ ∀ other ∈ list, Fits run other := by
        apply forall₂_congr
        intro other member
        rw [Fits, Fits, apart.source member]
      obtain ⟨fits, large⟩ := ih apart.tail (divided run rate)
      rw [later] at fits large
      rw [List.forall_mem_cons, List.foldlM_cons]
      by_cases first : Fits run rate
      · rw [set_quotient_fits first]
        constructor
        · intro both
          exact fits both.2
        · intro fails
          exact large fun rest => fails ⟨first, rest⟩
      · rw [set_quotient_overflows first]
        exact ⟨fun both => absurd both.1 first, fun _ => rfl⟩

theorem fold_divided {list : List Rate} (apart : Apart list) (run : BootRun) (key : String) :
    list.foldl divided run key.toList =
      ((list.find? (·.key = key)).bind fun rate =>
        (fieldInt (run rate.source.toList)).map (FieldValue.quotient · rate.divisor)).or
        (run key.toList) := by
  induction list generalizing run with
  | nil => rfl
  | cons rate list ih =>
      have rest (found : list.find? (·.key = key) = none) :
          list.foldl divided (divided run rate) key.toList = divided run rate key.toList := by
        rw [ih apart.tail, found]
        rfl
      rw [List.foldl_cons]
      by_cases own : rate.key = key
      · have absent : list.find? (·.key = key) = none := by
          rw [List.find?_eq_none]
          intro other member same
          have same : other.key = rate.key := by simpa [own] using same
          exact (List.nodup_cons.mp apart.keys).1 (List.mem_map.mpr ⟨other, member, same⟩)
        rw [rest absent, List.find?_cons_of_pos (by simpa using own), Option.bind_some, ← own]
        exact divided_own
      · have other : key.toList ≠ rate.key.toList := fun same => own (String.toList_inj.mp same).symm
        rw [ih apart.tail, List.find?_cons_of_neg (by simpa using own), divided_other other]
        apply congrArg (Option.or · _)
        cases found : list.find? (·.key = key) with
        | none => rfl
        | some later =>
            rw [Option.bind_some, Option.bind_some, apart.source (List.mem_of_find?_eq_some found)]

theorem finalize_run_eq (run : BootRun) :
    finalizeRun run =
      rates.foldlM (fun run rate => run.setQuotient rate.source rate.key rate.divisor)
        (setDefaults run) := by
  simp only [rates, List.foldlM_cons, List.foldlM_nil, finalizeRun]
  simp

end Rates

/-! ## The runs of a log -/

theorem stat_keys_other : ∀ key ∈ statKeys, key.toList ∉ defaultKeys ∧ key.toList ≠ "run".toList := by
  decide

theorem sources_other : ∀ rate ∈ rates,
    rate.source.toList ∉ defaultKeys ∧ rate.source.toList ≠ "run".toList := by
  decide

section Segment

variable (number : Nat) (segment : List Text)

def shownRun : BootRun := readSegment (startRun number) segment

theorem shown_run_apply {key : String} (other : key.toList ≠ "run".toList) :
    shownRun number segment key.toList = (shown segment key).map .text := by
  have nothing : startRun number key.toList = none := if_neg other
  rw [shownRun, read_segment_eq, set_texts_apply, nothing, Option.or_none, shown]

theorem field_int_shown {rate : Rate} (member : rate ∈ rates) :
    fieldInt (setDefaults (shownRun number segment) rate.source.toList) =
      shownCount segment rate.source := by
  obtain ⟨kept, named⟩ := sources_other rate member
  rw [set_defaults_other kept, shown_run_apply number segment named, shownCount]
  cases shown segment rate.source with
  | none => rfl
  | some text => rfl

theorem fits_shown : (∀ rate ∈ rates, Fits (setDefaults (shownRun number segment)) rate) ↔
    Divisible segment := by
  apply forall₂_congr
  intro rate member
  rw [Fits, field_int_shown number segment member]

structure Settles (run : BootRun) : Prop where
  result : isSeeded run = true ↔ Seeded segment
  values : ∀ key ∈ statKeys, run key.toList =
    ((rates.find? (·.key = key)).bind fun rate =>
      (shownCount segment rate.source).map (FieldValue.quotient · rate.divisor)).or
      ((shown segment key).map .text)

theorem segment_run_settles (divisible : Divisible segment) :
    ∃ run, segmentRun number segment = some run ∧ Settles segment run := by
  have fits := (fits_shown number segment).mpr divisible
  have final := (fold_rates rates_apart (setDefaults (shownRun number segment))).1 fits
  refine ⟨_, (finalize_run_eq _).trans final, ?_, ?_⟩
  · have noRate : rates.find? (·.key = "result") = none := by decide
    have shownResult := shown_run_apply number segment
      (show "result".toList ≠ "run".toList by decide)
    have own := fold_divided rates_apart (setDefaults (shownRun number segment)) "result"
    rw [noRate, Option.bind_none, Option.none_or] at own
    rw [isSeeded, own, decide_eq_true_iff, Seeded]
    cases result : shown segment "result" with
    | none =>
        rw [result] at shownResult
        have default : setDefaults (shownRun number segment) "result".toList =
            some (.text "incomplete".toList) := by
          rw [setDefaults, BootRun.setDefault, if_pos]
          · exact if_pos rfl
          · rw [set_default_other (by decide), set_default_other (by decide),
              set_default_other (by decide), shownResult]
            rfl
        rw [default]
        decide
    | some text =>
        rw [result] at shownResult
        rw [set_defaults_kept shownResult]
        simp
  · intro key member
    obtain ⟨kept, named⟩ := stat_keys_other key member
    rw [fold_divided rates_apart, set_defaults_other kept, shown_run_apply number segment named]
    apply congrArg (Option.or · _)
    cases found : rates.find? (·.key = key) with
    | none => rfl
    | some rate =>
        rw [Option.bind_some, Option.bind_some,
          field_int_shown number segment (List.mem_of_find?_eq_some found)]

theorem segment_run_overflows (large : ¬Divisible segment) : segmentRun number segment = none := by
  rw [← fits_shown number] at large
  exact (finalize_run_eq _).trans ((fold_rates rates_apart _).2 large)

end Segment

theorem numbered_runs_settle {segments : List (List Text)}
    (divisible : ∀ segment ∈ segments, Divisible segment) :
    ∀ number, ∃ runs, numberedRuns number segments = some runs ∧
      List.Forall₂ Settles segments runs := by
  induction segments with
  | nil => exact fun number => ⟨[], rfl, .nil⟩
  | cons segment rest ih =>
      intro number
      obtain ⟨here, later⟩ := List.forall_mem_cons.mp divisible
      obtain ⟨run, first, settles⟩ := segment_run_settles number segment here
      obtain ⟨runs, others, all⟩ := ih later (number + 1)
      refine ⟨run :: runs, ?_, .cons settles all⟩
      rw [numberedRuns, first, Option.bind_some, others]
      rfl

theorem numbered_runs_overflow {segments : List (List Text)}
    (large : ¬∀ segment ∈ segments, Divisible segment) :
    ∀ number, numberedRuns number segments = none := by
  induction segments with
  | nil => exact absurd (by simp) large
  | cons segment rest ih =>
      intro number
      rw [List.forall_mem_cons] at large
      by_cases here : Divisible segment
      · obtain ⟨run, first, _⟩ := segment_run_settles number segment here
        rw [numberedRuns, first, Option.bind_some, ih fun later => large ⟨here, later⟩]
        rfl
      · rw [numberedRuns, segment_run_overflows number segment here]
        rfl

/-! ## Values and statistics -/

/-- The text of a key as the value that `float` is applied to. -/
theorem text_values_eq (text : Option Text) (values : List Double) :
    (match text.map FieldValue.text with
      | none => .ok values
      | some raw => do
          let number ← floatOf raw
          return number.toList ++ values : Except Raised (List Double)) =
      .ok ((text.bind parseFloat).toList ++ values) := by
  cases text with
  | none => rfl
  | some text => rfl

theorem numeric_values_eq {segments : List (List Text)} {runs : List BootRun} {key : String}
    (settles : List.Forall₂ Settles segments runs) (member : key ∈ statKeys) :
    numericValues runs key = .ok (seededReadings segments key) := by
  induction settles with
  | nil => rfl
  | @cons segment run segments runs first rest ih =>
      rw [numericValues]
      by_cases seeded : Seeded segment
      · have readings : seededReadings (segment :: segments) key =
            (reading segment key).toList ++ seededReadings segments key := by
          rw [seededReadings, List.filter_cons_of_pos (by simpa using seeded), List.filterMap_cons]
          cases reading segment key with
          | none => rfl
          | some value => rfl
        rw [if_pos (first.result.mpr seeded), first.values key member, ih, readings, reading]
        cases rates.find? (·.key = key) with
        | none => exact text_values_eq (shown segment key) _
        | some rate =>
            cases count : shownCount segment rate.source with
            | none =>
                simp only [Option.bind_some, count, Option.map_none, Option.none_or]
                exact text_values_eq (shown segment key) _
            | some dividend =>
                simp only [Option.bind_some, count, Option.map_some, Option.some_or]
                rfl
      · have unseeded : ¬isSeeded run = true := fun result => seeded (first.result.mp result)
        rw [if_neg unseeded, ih, seededReadings, seededReadings,
          List.filter_cons_of_neg (by simpa using seeded)]

theorem numeric_values_seeded (runs : List BootRun) (key : String) :
    numericValues (runs.filter isSeeded) key = numericValues runs key := by
  induction runs with
  | nil => rfl
  | cons run runs ih =>
      by_cases seeded : isSeeded run = true
      · rw [List.filter_cons_of_pos seeded, numericValues, numericValues, if_pos seeded,
          if_pos seeded, ih]
      · rw [List.filter_cons_of_neg seeded, ih]
        exact (if_neg seeded).symm

theorem seeded_runs_length {segments : List (List Text)} {runs : List BootRun}
    (settles : List.Forall₂ Settles segments runs) :
    (runs.filter isSeeded = [] ↔ ∀ segment ∈ segments, ¬Seeded segment) ∧
      (runs = [] ↔ segments = []) := by
  induction settles with
  | nil => simp
  | @cons segment run segments runs first rest ih =>
      constructor
      · by_cases seeded : isSeeded run = true
        · simp [seeded, first.result.mp seeded]
        · rw [List.filter_cons_of_neg seeded, ih.1, List.forall_mem_cons]
          simp [first.result.not.mp seeded]
      · simp

section Statistics

variable (sorted : List Double → List Double) (pstdev : List Double → Except Raised Double)

def Deviates (values : List Double) : Prop := 1 < values.length → Succeeds (pstdev values)

theorem stats_succeeds (values : List Double) :
    Succeeds (stats sorted pstdev values) ↔ Deviates pstdev values := by
  cases values with
  | nil =>
      apply iff_of_true (succeeds_ok noStats)
      intro two
      simp at two
  | cons first rest =>
      have deviates : Succeeds (deviation pstdev (first :: rest)) ↔
          Deviates pstdev (first :: rest) := succeeds_if_iff _ Iff.rfl _
      have whole := succeeds_bind_iff deviates fun std =>
        iff_true_intro (succeeds_ok (ε := Raised) ({
          n := (first :: rest).length
          mean := some (Double.mean (first :: rest))
          median := some (median sorted (first :: rest))
          min := some (Double.least first rest)
          max := some (Double.greatest first rest)
          std := some std } : Stats))
      rw [and_true] at whole
      exact whole

/-- What `stats` returns for some values. -/
theorem stats_ok {values : List Double} {entry : Stats} (ok : stats sorted pstdev values = .ok entry) :
    entry.n = values.length ∧ ∀ first rest, values = first :: rest →
      entry.mean = some (Double.mean values) ∧ entry.median = some (median sorted values) ∧
        entry.min = some (Double.least first rest) ∧
        entry.max = some (Double.greatest first rest) ∧
        ∃ std, deviation pstdev values = .ok std ∧ entry.std = some std := by
  cases values with
  | nil =>
      cases ok
      exact ⟨rfl, fun first rest same => absurd same (by simp)⟩
  | cons first rest =>
      obtain ⟨std, deviates, made⟩ := bind_eq_ok ok
      cases made
      refine ⟨rfl, fun head tail same => ?_⟩
      cases same
      exact ⟨rfl, rfl, rfl, rfl, std, deviates, rfl⟩

/-! ## The server log -/

def servedFields (key : String) (text : Text) : List Text :=
  ((splitLines text).map strip).filterMap (servedField key)

def serverTimes (text : Text) : List Double := (servedFields "server_us=" text).map floatOfDigits

theorem ascii_digit_plain {c : Char} (digit : isAsciiDigit c = true) :
    c ≠ '_' ∧ ∃ d, digitValue c = some d := by
  simp only [isAsciiDigit, Bool.and_eq_true, decide_eq_true_eq] at digit
  have low : 0x30 ≤ c.toNat := digit.1
  have high : c.toNat ≤ 0x39 := digit.2
  constructor
  · rintro rfl
    exact absurd high (by decide)
  · refine ⟨c.toNat - 0x30, ?_⟩
    rw [digitValue, decimalZeros, List.find?_cons_of_pos (by simp; omega)]
    rfl

theorem digit_run_ascii {digits : Text} (ascii : ∀ c ∈ digits, isAsciiDigit c = true) (value : Nat) :
    ∃ total, digitRun value digits = some total := by
  rw [digit_run_eq, digit_run_in_eq_foldlM]
  · induction digits generalizing value with
    | nil => exact ⟨value, rfl⟩
    | cons c rest ih =>
        obtain ⟨_, d, read⟩ := ascii_digit_plain (ascii c List.mem_cons_self)
        rw [List.foldlM_cons, read]
        exact ih (fun other member => ascii other (List.mem_cons_of_mem c member)) _
  · intro underscore
    exact (ascii_digit_plain (ascii _ underscore)).1 rfl

theorem natural_ascii {digits : Text} (filled : digits ≠ [])
    (ascii : ∀ c ∈ digits, isAsciiDigit c = true) :
    (∃ value, natural digits = some value) ↔ digits.length ≤ maxStrDigits := by
  have plain : digits.filter (· ≠ '_') = digits := by
    rw [List.filter_eq_self]
    intro c member
    simpa using (ascii_digit_plain (ascii c member)).1
  rw [natural.eq_def, plain]
  split_ifs with long
  · apply iff_of_false (by simp)
    omega
  · apply iff_of_true _ (by omega)
    cases digits with
    | nil => exact absurd rfl filled
    | cons c rest =>
        obtain ⟨_, d, read⟩ := ascii_digit_plain (ascii c List.mem_cons_self)
        dsimp only
        rw [read]
        exact digit_run_ascii (fun other member => ascii other (List.mem_cons_of_mem c member)) d

theorem last_digits_ascii {key : String} {text digits : Text}
    (last : lastDigits key text = some digits) :
    digits ≠ [] ∧ ∀ c ∈ digits, isAsciiDigit c = true := by
  obtain ⟨tail, _, found⟩ := List.mem_filterMap.mp (List.mem_of_getLast? last)
  obtain ⟨rest, _, some⟩ := Option.bind_eq_some_iff.mp found
  dsimp only at some
  split_ifs at some with filled
  cases some
  exact ⟨filled, fun c member => List.mem_takeWhile_imp member⟩

theorem served_field_digits {key : String} {line digits : Text}
    (field : servedField key line = some digits) :
    digits ≠ [] ∧ ∀ c ∈ digits, isAsciiDigit c = true := by
  obtain ⟨rest, _, later⟩ := Option.bind_eq_some_iff.mp field
  obtain ⟨fields, _, last⟩ := Option.bind_eq_some_iff.mp later
  split_ifs at last
  exact last_digits_ascii last

theorem sequence_number_succeeds {digits : Text} (filled : digits ≠ [])
    (ascii : ∀ c ∈ digits, isAsciiDigit c = true) :
    Succeeds (sequenceNumber digits) ↔ digits.length ≤ maxStrDigits := by
  rw [← natural_ascii filled ascii, sequenceNumber]
  cases natural digits with
  | none => exact iff_of_false (not_succeeds_error _) (by simp)
  | some value => exact iff_of_true (succeeds_ok value) ⟨value, rfl⟩

theorem parse_server_log_succeeds (text : Text) :
    Succeeds (parseServerLog sorted pstdev (some text)) ↔
      (∀ digits ∈ servedFields "seq=" text, digits.length ≤ maxStrDigits) ∧
        Deviates pstdev (serverTimes text) := by
  have sequences : Succeeds ((servedFields "seq=" text).mapM sequenceNumber) ↔
      ∀ digits ∈ servedFields "seq=" text, digits.length ≤ maxStrDigits := by
    rw [succeeds_map_m_iff]
    apply forall₂_congr
    intro digits member
    obtain ⟨line, _, field⟩ := List.mem_filterMap.mp member
    obtain ⟨filled, ascii⟩ := served_field_digits field
    exact sequence_number_succeeds filled ascii
  apply succeeds_bind_iff sequences
  intro numbers
  have times := succeeds_bind_iff (stats_succeeds sorted pstdev (serverTimes text)) fun times =>
    iff_true_intro (succeeds_ok (ε := Raised) (some
      (⟨(servedFields "seq=" text).length, numbers, times⟩ : ServerSummary)))
  rw [and_true] at times
  exact times

theorem parse_server_log_present {text : Text} {server : Option ServerSummary}
    (ok : parseServerLog sorted pstdev (some text) = .ok server) : ∃ present, server = some present := by
  obtain ⟨numbers, _, rest⟩ := bind_eq_ok ok
  obtain ⟨times, _, made⟩ := bind_eq_ok rest
  cases made
  exact ⟨_, rfl⟩

/-! ## The summary -/

theorem summary_profile_succeeds {segments : List (List Text)} {runs : List BootRun}
    (settles : List.Forall₂ Settles segments runs) :
    Succeeds (summaryProfile runs (runs.filter isSeeded)) ↔
      (segments ≠ [] → ∃ segment ∈ segments, Seeded segment) := by
  obtain ⟨noneSeeded, noRuns⟩ := seeded_runs_length settles
  cases runs with
  | nil => exact iff_of_true (succeeds_ok _) fun some => absurd (noRuns.mp rfl) some
  | cons first others =>
      have some : segments ≠ [] := fun none => List.cons_ne_nil _ _ (noRuns.mpr none)
      rw [imp_iff_right some]
      cases seeded : (first :: others).filter isSeeded with
      | nil =>
          apply iff_of_false (not_succeeds_error _)
          rintro ⟨segment, member, result⟩
          exact noneSeeded.mp seeded segment member result
      | cons run runs =>
          apply iff_of_true (succeeds_ok _)
          by_contra none
          push Not at none
          rw [noneSeeded.mpr none] at seeded
          cases seeded

theorem summarize_succeeds {segments : List (List Text)} {runs : List BootRun}
    (settles : List.Forall₂ Settles segments runs) (server : Option ServerSummary) :
    Succeeds (summarize sorted pstdev runs server) ↔
      (segments ≠ [] → ∃ segment ∈ segments, Seeded segment) ∧
        ∀ key ∈ statKeys, Deviates pstdev (seededReadings segments key) := by
  have entries : Succeeds (statKeys.mapM fun key => do
      let values ← numericValues runs key
      let entry ← stats sorted pstdev values
      return (key, entry)) ↔
      ∀ key ∈ statKeys, Deviates pstdev (seededReadings segments key) := by
    rw [succeeds_map_m_iff]
    apply forall₂_congr
    intro key member
    rw [numeric_values_eq settles member]
    have entry := succeeds_bind_iff (stats_succeeds sorted pstdev (seededReadings segments key))
      fun entry => iff_true_intro (succeeds_ok (ε := Raised) (key, entry))
    rw [and_true] at entry
    exact entry
  apply succeeds_bind_iff (summary_profile_succeeds settles)
  intro profile
  have whole := succeeds_bind_iff entries fun statistics =>
    iff_true_intro (succeeds_ok (ε := Raised) ({
      runsAttempted := runs.length
      runsSeeded := (runs.filter isSeeded).length
      runsFailed := runs.length - (runs.filter isSeeded).length
      profile := profile
      server := server
      statistics := statistics } : Summary))
  rw [and_true] at whole
  exact whole

/-- The counts add up, and each entry is made of the values of the seeded runs. -/
structure CountsSeeded (runs : List BootRun) (summary : Summary) : Prop where
  attempted : summary.runsAttempted = runs.length
  seeded : summary.runsSeeded = (runs.filter isSeeded).length
  total : summary.runsSeeded + summary.runsFailed = summary.runsAttempted
  entries : ∀ key ∈ statKeys, ∃ values entry,
    numericValues (runs.filter isSeeded) key = .ok values ∧
      stats sorted pstdev values = .ok entry ∧ summary.statistics.lookup key = some entry

theorem summarize_counts {runs : List BootRun} {server : Option ServerSummary} {summary : Summary}
    (ok : summarize sorted pstdev runs server = .ok summary) :
    summary.server = server ∧ CountsSeeded sorted pstdev runs summary := by
  obtain ⟨profile, _, rest⟩ := bind_eq_ok ok
  obtain ⟨statistics, filled, made⟩ := bind_eq_ok rest
  cases made
  refine ⟨rfl, rfl, rfl, ?_, ?_⟩
  · exact Nat.add_sub_cancel' (List.length_filter_le _ _)
  · intro key member
    have tagged : ∀ key pair, (do
        let values ← numericValues runs key
        let entry ← stats sorted pstdev values
        return (key, entry) : Except Raised (String × Stats)) = .ok pair → pair.1 = key := by
      intro key pair made
      obtain ⟨values, _, rest⟩ := bind_eq_ok made
      obtain ⟨entry, _, made⟩ := bind_eq_ok rest
      cases made
      rfl
    obtain ⟨entry, made, found⟩ := lookup_map_m tagged filled key member
    obtain ⟨values, read, rest⟩ := bind_eq_ok made
    obtain ⟨counted, ok, same⟩ := bind_eq_ok rest
    cases same
    rw [numeric_values_seeded]
    exact ⟨values, entry, read, ok, found⟩

/-! ## The table -/

/-- The median and the ends of the range can be printed. -/
def Ranged (values : List Double) : Prop :=
  ∀ first rest, values = first :: rest →
    (median sorted values).Finite ∧ (Double.least first rest).Finite ∧
      (Double.greatest first rest).Finite

def Averaged (values : List Double) : Prop :=
  values ≠ [] → (Double.mean values).Finite ∧
    ∀ std, deviation pstdev values = .ok std → std.Finite

theorem fmt_succeeds (number : Double) (digits : Nat) :
    Succeeds (fmt (some number) digits) ↔ number.Finite := by
  cases number with
  | finite value => exact iff_of_true (succeeds_ok _) trivial
  | infinite negative => exact iff_of_false (not_succeeds_error _) id
  | nan => exact iff_of_false (not_succeeds_error _) id

variable {values : List Double} {summary : Summary} {key : String}
  (entry : stats sorted pstdev values = .ok (stat summary key))
include entry

theorem median_range_succeeds (unit : String) :
    Succeeds (medianRange summary key unit) ↔ Ranged sorted values := by
  obtain ⟨count, fields⟩ := stats_ok sorted pstdev entry
  rw [medianRange]
  cases values with
  | nil =>
      have none : (stat summary key).n = 0 := count
      dsimp only
      rw [if_pos none]
      exact iff_of_true (succeeds_ok _) fun first rest same => by cases same
  | cons first rest =>
      obtain ⟨_, middle, low, high, _⟩ := fields first rest rfl
      dsimp only
      rw [if_neg (by rw [count]; simp), middle, low, high, Ranged]
      apply Iff.trans
      · apply succeeds_bind_iff (fmt_succeeds _ _)
        intro middle
        apply succeeds_bind_iff (fmt_succeeds _ _)
        intro lo
        apply succeeds_bind_iff (fmt_succeeds _ _)
        intro hi
        exact iff_true_intro (succeeds_ok _)
      · simp

theorem mean_sd_succeeds (unit : String) :
    Succeeds (meanSd summary key unit) ↔ Averaged pstdev values := by
  obtain ⟨count, fields⟩ := stats_ok sorted pstdev entry
  rw [meanSd]
  cases values with
  | nil =>
      have none : (stat summary key).n = 0 := count
      rw [if_pos none]
      exact iff_of_true (succeeds_ok _) fun some => absurd rfl some
  | cons first rest =>
      obtain ⟨center, _, _, _, std, deviates, spread⟩ := fields first rest rfl
      rw [if_neg (by rw [count]; simp), center, spread, Averaged]
      apply Iff.trans
      · apply succeeds_bind_iff (fmt_succeeds _ _)
        intro center
        apply succeeds_bind_iff (fmt_succeeds _ _)
        intro spread
        exact iff_true_intro (succeeds_ok _)
      · simp [deviates]

end Statistics

theorem capsules_served_succeeds (summary : Summary) :
    Succeeds (capsulesServed summary) ↔ summary.server ≠ none := by
  rw [capsulesServed]
  cases summary.server with
  | none => exact iff_of_false (not_succeeds_error _) fun some => some rfl
  | some server => exact iff_of_true (succeeds_ok _) (Option.some_ne_none server)

/-- The keys whose medians stand in the column of the first profile. -/
def edKeys : List String :=
  ["time_to_seed_ms", "verify_us", "hkdf_us", "heap_peak_after_capsule", "credited_bits"]

def pqKeys : List String := "kem_decaps_us" :: edKeys

structure Printable (sorted : List Double → List Double)
    (pstdev : List Double → Except Raised Double) (values : String → List Double)
    (server : Option ServerSummary) (keys : List String) : Prop where
  served : server ≠ none
  average : Averaged pstdev (values "time_to_seed_ms")
  ranges : ∀ key ∈ keys, Ranged sorted (values key)

section Table

variable (sorted : List Double → List Double) (pstdev : List Double → Except Raised Double)

theorem write_table_succeeds {ed pq : Summary} {edValues pqValues : String → List Double}
    (edStats : ∀ key ∈ statKeys, stats sorted pstdev (edValues key) = .ok (stat ed key))
    (pqStats : ∀ key ∈ statKeys, stats sorted pstdev (pqValues key) = .ok (stat pq key)) :
    Succeeds (writeTable ed pq) ↔
      Printable sorted pstdev edValues ed.server edKeys ∧
        Printable sorted pstdev pqValues pq.server pqKeys := by
  have edRange {key : String} (member : key ∈ statKeys) :=
    @median_range_succeeds sorted pstdev _ _ _ (edStats key member)
  have pqRange {key : String} (member : key ∈ statKeys) :=
    @median_range_succeeds sorted pstdev _ _ _ (pqStats key member)
  have time : "time_to_seed_ms" ∈ statKeys := by decide
  have verify : "verify_us" ∈ statKeys := by decide
  have hkdf : "hkdf_us" ∈ statKeys := by decide
  have heap : "heap_peak_after_capsule" ∈ statKeys := by decide
  have credited : "credited_bits" ∈ statKeys := by decide
  apply Iff.trans
  · apply succeeds_bind_iff (mean_sd_succeeds sorted pstdev (edStats _ time) _)
    intro edMean
    apply succeeds_bind_iff (mean_sd_succeeds sorted pstdev (pqStats _ time) _)
    intro pqMean
    apply succeeds_bind_iff (edRange time _)
    intro edMedian
    apply succeeds_bind_iff (pqRange time _)
    intro pqMedian
    apply succeeds_bind_iff (edRange verify _)
    intro edVerify
    apply succeeds_bind_iff (pqRange verify _)
    intro pqVerify
    apply succeeds_bind_iff (pqRange (show "kem_decaps_us" ∈ statKeys by decide) _)
    intro pqDecaps
    apply succeeds_bind_iff (edRange hkdf _)
    intro edHkdf
    apply succeeds_bind_iff (pqRange hkdf _)
    intro pqHkdf
    apply succeeds_bind_iff (capsules_served_succeeds ed)
    intro edServed
    apply succeeds_bind_iff (capsules_served_succeeds pq)
    intro pqServed
    apply succeeds_bind_iff (edRange heap _)
    intro edHeap
    apply succeeds_bind_iff (pqRange heap _)
    intro pqHeap
    apply succeeds_bind_iff (edRange credited _)
    intro edCredited
    apply succeeds_bind_iff (pqRange credited _)
    intro pqCredited
    exact iff_true_intro (succeeds_ok _)
  · constructor
    · rintro ⟨edMean, pqMean, edMedian, pqMedian, edVerify, pqVerify, pqDecaps, edHkdf, pqHkdf,
        edServed, pqServed, edHeap, pqHeap, edCredited, pqCredited, _⟩
      constructor
      · exact ⟨edServed, edMean, by
          simp only [edKeys, List.forall_mem_cons]
          exact ⟨edMedian, edVerify, edHkdf, edHeap, edCredited, by simp⟩⟩
      · exact ⟨pqServed, pqMean, by
          simp only [pqKeys, edKeys, List.forall_mem_cons]
          exact ⟨pqDecaps, pqMedian, pqVerify, pqHkdf, pqHeap, pqCredited, by simp⟩⟩
    · rintro ⟨⟨edServed, edMean, edRanges⟩, ⟨pqServed, pqMean, pqRanges⟩⟩
      have inEd {key : String} (member : key ∈ edKeys) : key ∈ pqKeys := List.mem_cons_of_mem _ member
      exact ⟨edMean, pqMean, edRanges _ (by decide), pqRanges _ (by decide), edRanges _ (by decide),
        pqRanges _ (by decide), pqRanges _ (by decide), edRanges _ (by decide),
        pqRanges _ (by decide), edServed, pqServed, edRanges _ (by decide), pqRanges _ (by decide),
        edRanges _ (by decide), pqRanges _ (by decide), trivial⟩

/-! ## Both profiles -/

def bootsOf (logs : ProfileLogs) : List (List Text) := bannerSegments (splitLines logs.log)

structure Summarisable (logs : ProfileLogs) : Prop where
  divisible : ∀ boot ∈ bootsOf logs, Divisible boot
  seeded : bootsOf logs ≠ [] → ∃ boot ∈ bootsOf logs, Seeded boot
  server : ∀ text ∈ logs.serverLog,
    (∀ digits ∈ servedFields "seq=" text, digits.length ≤ maxStrDigits) ∧
      Deviates pstdev (serverTimes text)
  deviations : ∀ key ∈ statKeys, Deviates pstdev (seededReadings (bootsOf logs) key)

theorem server_log_succeeds (log : Option Text) :
    Succeeds (parseServerLog sorted pstdev log) ↔ ∀ text ∈ log,
      (∀ digits ∈ servedFields "seq=" text, digits.length ≤ maxStrDigits) ∧
        Deviates pstdev (serverTimes text) := by
  cases log with
  | none => exact iff_of_true (succeeds_ok none) (by simp)
  | some text =>
      rw [parse_server_log_succeeds]
      simp only [Option.mem_def, Option.some.injEq, forall_eq']

theorem build_profile_parsed {logs : ProfileLogs} {runs : List BootRun}
    (parsed : parseLog logs.log = some runs) :
    buildProfile sorted pstdev logs = (do
      let server ← parseServerLog sorted pstdev logs.serverLog
      let summary ← summarize sorted pstdev runs server
      return (runs, summary)) := by
  rw [buildProfile, parsed]
  rfl

theorem build_profile_succeeds (logs : ProfileLogs) :
    Succeeds (buildProfile sorted pstdev logs) ↔ Summarisable pstdev logs := by
  by_cases divisible : ∀ boot ∈ bootsOf logs, Divisible boot
  · obtain ⟨runs, numbered, settles⟩ := numbered_runs_settle divisible 1
    have parsed : parseLog logs.log = some runs := (parse_log_eq logs.log).trans numbered
    rw [build_profile_parsed sorted pstdev parsed]
    apply Iff.trans
    · apply succeeds_bind_iff (server_log_succeeds sorted pstdev logs.serverLog)
      intro server
      have summary := succeeds_bind_iff (summarize_succeeds sorted pstdev settles server)
        fun summary => iff_true_intro (succeeds_ok (ε := Raised) (runs, summary))
      rw [and_true] at summary
      exact summary
    · constructor
      · rintro ⟨server, seeded, deviations⟩
        exact ⟨divisible, seeded, server, deviations⟩
      · rintro ⟨_, seeded, server, deviations⟩
        exact ⟨server, seeded, deviations⟩
  · have parsed : parseLog logs.log = none :=
      (parse_log_eq logs.log).trans (numbered_runs_overflow divisible 1)
    apply iff_of_false _ fun summarisable => divisible summarisable.divisible
    rw [buildProfile, parsed]
    exact not_succeeds_error _

theorem build_profile_ok {logs : ProfileLogs} {runs : List BootRun} {summary : Summary}
    (ok : buildProfile sorted pstdev logs = .ok (runs, summary)) :
    (summary.server ≠ none ↔ logs.serverLog ≠ none) ∧ parseLog logs.log = some runs ∧
      CountsSeeded sorted pstdev runs summary ∧
      ∀ key ∈ statKeys,
        stats sorted pstdev (seededReadings (bootsOf logs) key) = .ok (stat summary key) := by
  have summarisable := (build_profile_succeeds sorted pstdev logs).mp ⟨_, ok⟩
  obtain ⟨runs', numbered, settles⟩ := numbered_runs_settle summarisable.divisible 1
  have parsed : parseLog logs.log = some runs' := (parse_log_eq logs.log).trans numbered
  rw [build_profile_parsed sorted pstdev parsed] at ok
  obtain ⟨server, served, rest⟩ := bind_eq_ok ok
  obtain ⟨summary', summarized, made⟩ := bind_eq_ok rest
  cases made
  obtain ⟨same, counts⟩ := summarize_counts sorted pstdev summarized
  refine ⟨?_, parsed, counts, ?_⟩
  · rw [same]
    cases present : logs.serverLog with
    | none =>
        rw [present] at served
        cases served
        exact iff_of_false (fun some => some rfl) fun some => some rfl
    | some text =>
        rw [present] at served
        obtain ⟨found, rfl⟩ := parse_server_log_present sorted pstdev served
        exact iff_of_true (Option.some_ne_none found) (Option.some_ne_none text)
  · intro key member
    obtain ⟨values, entry, read, made, found⟩ := counts.entries key member
    rw [numeric_values_seeded, numeric_values_eq settles member] at read
    cases read
    rw [stat, found]
    exact made

/-- Both profiles are summarised and the table is written; in each summary the counts
add up and the statistics are those of the seeded runs. -/
def SummariesTotal (ed pq : ProfileLogs) : Prop :=
  ∃ edRuns edSummary pqRuns pqSummary table,
    buildProfile sorted pstdev ed = .ok (edRuns, edSummary) ∧
    buildProfile sorted pstdev pq = .ok (pqRuns, pqSummary) ∧
    writeTable edSummary pqSummary = .ok table ∧
    CountsSeeded sorted pstdev edRuns edSummary ∧ CountsSeeded sorted pstdev pqRuns pqSummary

/-- The logs of a profile that has a summary and a column of the table. -/
structure Reportable (logs : ProfileLogs) (keys : List String) : Prop where
  summarisable : Summarisable pstdev logs
  served : logs.serverLog ≠ none
  average : Averaged pstdev (seededReadings (bootsOf logs) "time_to_seed_ms")
  ranges : ∀ key ∈ keys, Ranged sorted (seededReadings (bootsOf logs) key)

/-- The boots are summarised exactly when each log without boots aside has a seeded
one, both server logs are there, and no number is too large or not finite where it is
divided or printed. -/
theorem boot_summaries_total_iff (ed pq : ProfileLogs) :
    SummariesTotal sorted pstdev ed pq ↔
      Reportable sorted pstdev ed edKeys ∧ Reportable sorted pstdev pq pqKeys := by
  constructor
  · rintro ⟨edRuns, edSummary, pqRuns, pqSummary, table, edBuilt, pqBuilt, written, _, _⟩
    obtain ⟨edServer, _, _, edStats⟩ := build_profile_ok sorted pstdev edBuilt
    obtain ⟨pqServer, _, _, pqStats⟩ := build_profile_ok sorted pstdev pqBuilt
    obtain ⟨edPrints, pqPrints⟩ :=
      (write_table_succeeds sorted pstdev edStats pqStats).mp ⟨table, written⟩
    constructor
    · exact ⟨(build_profile_succeeds sorted pstdev ed).mp ⟨_, edBuilt⟩,
        edServer.mp edPrints.served, edPrints.average, edPrints.ranges⟩
    · exact ⟨(build_profile_succeeds sorted pstdev pq).mp ⟨_, pqBuilt⟩,
        pqServer.mp pqPrints.served, pqPrints.average, pqPrints.ranges⟩
  · rintro ⟨edReports, pqReports⟩
    obtain ⟨⟨edRuns, edSummary⟩, edBuilt⟩ :=
      (build_profile_succeeds sorted pstdev ed).mpr edReports.summarisable
    obtain ⟨⟨pqRuns, pqSummary⟩, pqBuilt⟩ :=
      (build_profile_succeeds sorted pstdev pq).mpr pqReports.summarisable
    obtain ⟨edServer, _, edCounts, edStats⟩ := build_profile_ok sorted pstdev edBuilt
    obtain ⟨pqServer, _, pqCounts, pqStats⟩ := build_profile_ok sorted pstdev pqBuilt
    obtain ⟨table, written⟩ := (write_table_succeeds sorted pstdev edStats pqStats).mpr
      ⟨⟨edServer.mpr edReports.served, edReports.average, edReports.ranges⟩,
        ⟨pqServer.mpr pqReports.served, pqReports.average, pqReports.ranges⟩⟩
    exact ⟨edRuns, edSummary, pqRuns, pqSummary, table, edBuilt, pqBuilt, written, edCounts, pqCounts⟩

end Table

def failedBootLog : Text :=
  "Asymmetric Entropy Capsule Bootstrap\n[TEB_RESULT] failed,-5\n".toList

/-- A log whose only boot failed has no summary; without a server log there is no
table, even for logs without boots. -/
theorem failed_boot_raises :
    ¬SummariesTotal id (fun _ => .ok (.finite 0)) ⟨failedBootLog, some []⟩ ⟨[], some []⟩ ∧
      ¬SummariesTotal id (fun _ => .ok (.finite 0)) ⟨[], none⟩ ⟨[], some []⟩ := by
  constructor
  · rintro ⟨edRuns, edSummary, pqRuns, pqSummary, table, edBuilt, _⟩
    have summarisable := (build_profile_succeeds _ _ _).mp ⟨_, edBuilt⟩
    have boots : bootsOf ⟨failedBootLog, some []⟩ = [["[TEB_RESULT] failed,-5".toList]] := by
      decide +kernel
    have seeded := summarisable.seeded
    rw [boots] at seeded
    obtain ⟨boot, member, result⟩ := seeded (List.cons_ne_nil _ _)
    rw [List.mem_singleton.mp member] at result
    revert result
    decide +kernel
  · rintro ⟨edRuns, edSummary, pqRuns, pqSummary, table, edBuilt, pqBuilt, written, _, _⟩
    obtain ⟨edServer, _, _, edStats⟩ := build_profile_ok _ _ edBuilt
    obtain ⟨_, _, _, pqStats⟩ := build_profile_ok _ _ pqBuilt
    obtain ⟨edPrints, _⟩ := (write_table_succeeds _ _ edStats pqStats).mp ⟨table, written⟩
    exact edServer.mp edPrints.served rfl

end BootEntropy.BootLog
