import BootEntropy.Capsule.BootLog

/-!
# Runs of a boot log

Each banner opens one run. Its fields come from the lines behind it, up to the first
result line or the next banner; only its number depends on what stands in front.
-/

namespace BootEntropy.BootLog

open BootEntropy.Lib

set_option autoImplicit false

def isBanner (raw : Text) : Bool := readEntry (strip raw) = .banner

def bannerSegments : List Text → List (List Text)
  | [] => []
  | raw :: rest =>
      if isBanner raw then rest.takeWhile (fun line => !isBanner line) :: bannerSegments rest
      else bannerSegments rest

/-- A run behind the lines of its segment. Nothing is read behind a result. -/
def readSegment : BootRun → List Text → BootRun
  | run, [] => run
  | run, raw :: rest =>
      match readEntry (strip raw) with
      | .banner => run
      | .fields entries => readSegment (run.setTexts entries) rest
      | .result value => run.setTexts [("result".toList, value)]

def segmentRun (number : Nat) (segment : List Text) : Option BootRun :=
  finalizeRun (readSegment (startRun number) segment)

def numberedRuns : Nat → List (List Text) → Option (List BootRun)
  | _, [] => some []
  | number, segment :: rest =>
      (segmentRun number segment).bind fun run =>
        (numberedRuns (number + 1) rest).map (run :: ·)

/-! ## The parser -/

theorem is_banner_eq {raw : Text} {entry : Entry} (read : readEntry (strip raw) = entry) :
    isBanner raw = decide (entry = .banner) := by
  rw [isBanner, read]

section Lines

variable {raw : Text} {rest : List Text}

theorem banner_segments_skip (other : isBanner raw = false) :
    bannerSegments (raw :: rest) = bannerSegments rest := by
  rw [bannerSegments, other]
  rfl

theorem take_segment_skip (other : isBanner raw = false) :
    (raw :: rest).takeWhile (fun line => !isBanner line) =
      raw :: rest.takeWhile fun line => !isBanner line := by
  rw [List.takeWhile_cons, other]
  rfl

end Lines

theorem enter_lines_closed (lines : List Text) :
    (∀ runs, lines.foldlM enterLine ⟨runs, none⟩ >>= LogState.closed =
      (numberedRuns (runs.length + 1) (bannerSegments lines)).map (runs ++ ·)) ∧
    ∀ runs run, lines.foldlM enterLine ⟨runs, some run⟩ >>= LogState.closed =
      (finalizeRun (readSegment run (lines.takeWhile fun line => !isBanner line))).bind fun final =>
        (numberedRuns (runs.length + 2) (bannerSegments lines)).map fun more =>
          runs ++ final :: more := by
  induction lines with
  | nil =>
      constructor
      · intro runs
        exact congrArg some (List.append_nil runs).symm
      · intro runs run
        show (finalizeRun run).map (fun final => runs ++ [final]) = _
        cases closing : finalizeRun run <;> simp [bannerSegments, numberedRuns, readSegment, closing]
  | cons raw rest ih =>
      obtain ⟨idle, open_⟩ := ih
      cases read : readEntry (strip raw) with
      | banner =>
          have banner : isBanner raw = true := is_banner_eq read
          have opens (runs : List BootRun) :
              rest.foldlM enterLine ⟨runs, some (startRun (runs.length + 1))⟩ >>= LogState.closed =
                (numberedRuns (runs.length + 1) (bannerSegments (raw :: rest))).map (runs ++ ·) := by
            rw [open_, bannerSegments, banner, if_pos rfl, numberedRuns, segmentRun]
            cases finalizeRun (readSegment (startRun (runs.length + 1))
              (rest.takeWhile fun line => !isBanner line)) with
            | none => rfl
            | some final =>
                cases numberedRuns (runs.length + 1 + 1) (bannerSegments rest) <;> rfl
          constructor
          · intro runs
            have step : enterLine ⟨runs, none⟩ raw =
                some ⟨runs, some (startRun (runs.length + 1))⟩ := by
              rw [enterLine, read]
              rfl
            rw [List.foldlM_cons, step]
            exact opens runs
          · intro runs run
            have stops : (raw :: rest).takeWhile (fun line => !isBanner line) = [] := by
              rw [List.takeWhile_cons, banner]
              rfl
            rw [List.foldlM_cons, enterLine, read, stops, readSegment]
            dsimp only [LogState.closed]
            cases finalizeRun run with
            | none => rfl
            | some final =>
                have size : (runs ++ [final]).length = runs.length + 1 := List.length_append
                refine (opens (runs ++ [final])).trans ?_
                rw [size]
                simp only [List.append_assoc, List.singleton_append]
                rfl
      | fields entries =>
          have other : isBanner raw = false := is_banner_eq read
          constructor
          · intro runs
            have step : enterLine ⟨runs, none⟩ raw = some ⟨runs, none⟩ := by
              rw [enterLine, read]
              rfl
            rw [List.foldlM_cons, step, banner_segments_skip other]
            exact idle runs
          · intro runs run
            have step : enterLine ⟨runs, some run⟩ raw = some ⟨runs, some (run.setTexts entries)⟩ := by
              rw [enterLine, read]
              rfl
            rw [List.foldlM_cons, step, banner_segments_skip other, take_segment_skip other,
              readSegment, read]
            exact open_ runs _
      | result value =>
          have other : isBanner raw = false := is_banner_eq read
          constructor
          · intro runs
            have step : enterLine ⟨runs, none⟩ raw = some ⟨runs, none⟩ := by
              rw [enterLine, read]
            rw [List.foldlM_cons, step, banner_segments_skip other]
            exact idle runs
          · intro runs run
            rw [List.foldlM_cons, enterLine, read, banner_segments_skip other,
              take_segment_skip other, readSegment, read]
            dsimp only
            cases finalizeRun (run.setTexts [("result".toList, value)]) with
            | none => rfl
            | some final =>
                have later := idle (runs ++ [final])
                rw [List.length_append, List.length_singleton] at later
                simp only [List.append_assoc, List.singleton_append] at later
                exact later

/-- `parse_log` of these lines. -/
def parseLines (lines : List Text) : Option (List BootRun) :=
  lines.foldlM enterLine ⟨[], none⟩ >>= LogState.closed

theorem parse_lines_eq (lines : List Text) :
    parseLines lines = numberedRuns 1 (bannerSegments lines) := by
  rw [parseLines, (enter_lines_closed lines).1]
  exact Option.map_id'

theorem parse_log_eq (text : Text) :
    parseLog text = numberedRuns 1 (bannerSegments (splitLines text)) := parse_lines_eq _

theorem banner_segments_length (lines : List Text) :
    (bannerSegments lines).length = (lines.filter isBanner).length := by
  induction lines with
  | nil => rfl
  | cons raw rest ih =>
      by_cases banner : isBanner raw = true
      · rw [bannerSegments, if_pos banner, List.filter_cons_of_pos banner, List.length_cons,
          List.length_cons, ih]
      · rw [bannerSegments, if_neg banner, List.filter_cons_of_neg banner, ih]

theorem numbered_runs_get {segments : List (List Text)} :
    ∀ {number : Nat} {runs : List BootRun}, numberedRuns number segments = some runs →
      runs.length = segments.length ∧
        ∀ index, runs[index]? = segments[index]?.bind (segmentRun (number + index)) := by
  induction segments with
  | nil =>
      rintro number runs ⟨⟩
      exact ⟨rfl, fun index => rfl⟩
  | cons segment rest ih =>
      intro number runs parsed
      rw [numberedRuns, Option.bind_eq_some_iff] at parsed
      obtain ⟨run, first, later⟩ := parsed
      obtain ⟨more, tail, rfl⟩ := Option.map_eq_some_iff.mp later
      obtain ⟨length, entries⟩ := ih tail
      refine ⟨congrArg (· + 1) length, fun index => ?_⟩
      cases index with
      | zero => exact first.symm
      | succ index =>
          rw [List.getElem?_cons_succ, List.getElem?_cons_succ, entries, Nat.add_right_comm]
          rfl

/-! ## Lines that say nothing -/

def speaks (raw : Text) : Bool := readEntry (strip raw) ≠ .fields []

theorem enter_silent {raw : Text} (silent : speaks raw = false) (state : LogState) :
    enterLine state raw = some state := by
  have read : readEntry (strip raw) = .fields [] := by
    rw [speaks, decide_eq_false_iff_not, not_not] at silent
    exact silent
  have same : state.current.map (·.setTexts []) = state.current := Option.map_id'
  rw [enterLine, read]
  dsimp only
  rw [same]

theorem parse_lines_filter (lines : List Text) :
    parseLines (lines.filter speaks) = parseLines lines := by
  have go (state : LogState) :
      (lines.filter speaks).foldlM enterLine state = lines.foldlM enterLine state := by
    induction lines generalizing state with
    | nil => rfl
    | cons raw rest ih =>
        by_cases loud : speaks raw = true
        · rw [List.filter_cons_of_pos loud, List.foldlM_cons, List.foldlM_cons]
          exact congrArg _ (funext ih)
        · rw [List.filter_cons_of_neg loud, List.foldlM_cons,
            enter_silent (Bool.not_eq_true _ ▸ loud), ih]
          rfl
  rw [parseLines, parseLines, go]

theorem filter_silent {silent : List Text} (quiet : ∀ line ∈ silent, speaks line = false) :
    silent.filter speaks = [] := by
  rw [List.filter_eq_nil_iff]
  intro line member
  simp [quiet line member]

theorem parse_lines_silent (front : List Text) {silent : List Text} (back : List Text)
    (quiet : ∀ line ∈ silent, speaks line = false) :
    parseLines (front ++ silent ++ back) = parseLines (front ++ back) := by
  rw [← parse_lines_filter, ← parse_lines_filter (front ++ back)]
  simp only [List.filter_append, filter_silent quiet, List.append_nil]

/-! ## Numbers -/

def FieldValue.shift (count : Nat) : FieldValue → FieldValue
  | .int value => .int (value + count)
  | value => value

/-- The run behind `count` earlier ones. A line that gives the key `run` a text has taken
the place of its number. -/
def BootRun.shift (count : Nat) (run : BootRun) : BootRun :=
  fun key => if key = "run".toList then (run key).map (FieldValue.shift count) else run key

variable {count : Nat} {run : BootRun}

theorem shift_other {key : Text} (other : key ≠ "run".toList) : run.shift count key = run key :=
  if_neg other

theorem shift_set {key : Text} {value : FieldValue}
    (same : key = "run".toList → value.shift count = value) :
    (run.set key value).shift count = (run.shift count).set key value := by
  funext other
  rw [BootRun.shift, BootRun.set, BootRun.set, BootRun.shift]
  by_cases hit : other = key
  · rw [if_pos hit, if_pos hit]
    by_cases number : key = "run".toList
    · rw [hit, if_pos number, Option.map_some, same number]
    · rw [hit, if_neg number]
  · rw [if_neg hit, if_neg hit]

theorem shift_start_run (number : Nat) : startRun (count + number) = (startRun number).shift count := by
  funext key
  rw [startRun, startRun, BootRun.set, BootRun.shift, BootRun.set]
  by_cases hit : key = "run".toList
  · rw [if_pos hit, if_pos hit, if_pos hit, Option.map_some, FieldValue.shift, Nat.add_comm]
    rfl
  · rw [if_neg hit, if_neg hit, if_neg hit]

theorem shift_set_texts (entries : List (Text × Text)) :
    ∀ run : BootRun, (run.setTexts entries).shift count = (run.shift count).setTexts entries := by
  induction entries with
  | nil => exact fun _ => rfl
  | cons entry entries ih =>
      intro run
      have first := @shift_set count run entry.1 (.text entry.2) fun _ => rfl
      have later := ih (run.set entry.1 (.text entry.2))
      rw [first] at later
      exact later

theorem shift_read_segment (segment : List Text) :
    ∀ run : BootRun, (readSegment run segment).shift count = readSegment (run.shift count) segment := by
  induction segment with
  | nil => exact fun _ => rfl
  | cons raw rest ih =>
      intro run
      rw [readSegment, readSegment]
      cases readEntry (strip raw) with
      | banner => rfl
      | fields entries =>
          dsimp only
          rw [ih, shift_set_texts]
      | result value => exact shift_set_texts _ run

theorem shift_set_default {key : Text} {value : FieldValue} (other : key ≠ "run".toList) :
    (run.setDefault key value).shift count = (run.shift count).setDefault key value := by
  rw [BootRun.setDefault, BootRun.setDefault, shift_other other]
  split_ifs
  · exact shift_set fun same => absurd same other
  · rfl

theorem shift_set_quotient {source key : String} {divisor : Nat}
    (otherSource : source.toList ≠ "run".toList) (other : key.toList ≠ "run".toList) :
    ((run.setQuotient source key divisor).map (BootRun.shift count)) =
      (run.shift count).setQuotient source key divisor := by
  rw [BootRun.setQuotient, BootRun.setQuotient, shift_other otherSource]
  cases fieldInt (run source.toList) with
  | none => rfl
  | some dividend =>
      dsimp only
      cases trueDivide dividend divisor with
      | none => rfl
      | some value => exact congrArg some (shift_set fun same => absurd same other)

theorem shift_set_defaults : (setDefaults run).shift count = setDefaults (run.shift count) := by
  have first := @shift_set_default count run "hello_tx_bytes".toList (.int 88) (by decide)
  have received : capsuleRxBytes ((run.shift count).setDefault "hello_tx_bytes".toList (.int 88)) =
      capsuleRxBytes (run.setDefault "hello_tx_bytes".toList (.int 88)) := by
    rw [← first, capsuleRxBytes, capsuleRxBytes, shift_other (by decide)]
  rw [setDefaults, setDefaults, shift_set_default (by decide), shift_set_default (by decide),
    shift_set_default (by decide), first, received]

theorem shift_finalize_run :
    (finalizeRun run).map (BootRun.shift count) = finalizeRun (run.shift count) := by
  have quotient (source key : String) (divisor : Nat) (run : BootRun)
      (otherSource : source.toList ≠ "run".toList) (other : key.toList ≠ "run".toList)
      (next : BootRun → Option BootRun) (commutes : ∀ run : BootRun,
        (next run).map (BootRun.shift count) = next (run.shift count)) :
      (run.setQuotient source key divisor >>= next).map (BootRun.shift count) =
        (run.shift count).setQuotient source key divisor >>= next := by
    rw [← shift_set_quotient otherSource other]
    cases run.setQuotient source key divisor with
    | none => rfl
    | some run => exact commutes run
  rw [finalizeRun, finalizeRun, ← shift_set_defaults]
  exact quotient _ _ _ _ (by decide) (by decide) _ fun run =>
    quotient _ _ _ _ (by decide) (by decide) _ fun run =>
      shift_set_quotient (by decide) (by decide)

theorem segment_run_shift (number : Nat) (segment : List Text) :
    segmentRun (count + number) segment = (segmentRun number segment).map (BootRun.shift count) := by
  rw [segmentRun, segmentRun, shift_finalize_run, shift_read_segment, shift_start_run]

theorem numbered_runs_shift (segments : List (List Text)) :
    ∀ number, numberedRuns (count + number) segments =
      (numberedRuns number segments).map (List.map (BootRun.shift count)) := by
  induction segments with
  | nil => exact fun _ => rfl
  | cons segment rest ih =>
      intro number
      rw [numberedRuns, numberedRuns, segment_run_shift, Nat.add_assoc, ih]
      cases segmentRun number segment with
      | none => rfl
      | some run => cases numberedRuns (number + 1) rest <;> rfl

theorem numbered_runs_append (front back : List (List Text)) :
    ∀ number, numberedRuns number (front ++ back) =
      (numberedRuns number front).bind fun runs =>
        (numberedRuns (number + runs.length) back).map (runs ++ ·) := by
  induction front with
  | nil =>
      intro number
      exact Option.map_id'.symm
  | cons segment rest ih =>
      intro number
      rw [List.cons_append, numberedRuns, numberedRuns, ih]
      cases segmentRun number segment with
      | none => rfl
      | some run =>
          cases numberedRuns (number + 1) rest with
          | none => rfl
          | some runs =>
              have size : number + (runs.length + 1) = number + 1 + runs.length := by omega
              show ((numberedRuns (number + 1 + runs.length) back).map (runs ++ ·)).map (run :: ·) =
                (numberedRuns (number + (runs.length + 1)) back).map (run :: runs ++ ·)
              rw [size, Option.map_map]
              rfl

/-! ## Isolation -/

theorem banner_segments_append (lines : List Text) {raw : Text} (rest : List Text)
    (banner : isBanner raw = true) :
    bannerSegments (lines ++ raw :: rest) = bannerSegments lines ++ bannerSegments (raw :: rest) := by
  induction lines with
  | nil => rfl
  | cons line lines ih =>
      have stops : (lines ++ raw :: rest).takeWhile (fun line => !isBanner line) =
          lines.takeWhile fun line => !isBanner line := by
        clear ih
        induction lines with
        | nil =>
            rw [List.nil_append, List.takeWhile_cons, banner]
            rfl
        | cons line lines ih =>
            rw [List.cons_append, List.takeWhile_cons, List.takeWhile_cons, ih]
      rw [List.cons_append, bannerSegments, bannerSegments, stops, ih]
      split_ifs <;> rfl

def BeginsWithBanner (text : Text) : Prop := (splitLines text).head?.map strip = some bannerText

instance (text : Text) : Decidable (BeginsWithBanner text) :=
  inferInstanceAs (Decidable ((splitLines text).head?.map strip = some bannerText))

theorem begins_with_banner_lines {text : Text} (begins : BeginsWithBanner text) :
    ∃ raw rest, splitLines text = raw :: rest ∧ isBanner raw = true := by
  rw [BeginsWithBanner] at begins
  cases lines : splitLines text with
  | nil =>
      rw [lines] at begins
      cases begins
  | cons raw rest =>
      rw [lines] at begins
      have banner : strip raw = bannerText := Option.some.inj begins
      refine ⟨raw, rest, rfl, ?_⟩
      rw [isBanner, readEntry, if_pos banner]
      rfl

theorem begins_with_banner_head {text : Text} (begins : BeginsWithBanner text) :
    text.head? ≠ some '\n' := by
  intro feed
  cases text with
  | nil => cases feed
  | cons c rest =>
      cases feed
      rw [BeginsWithBanner, split_lines_break (by decide) fun _ same => by cases same] at begins
      have none : strip [] = bannerText := Option.some.inj begins
      exact absurd none (by decide)

theorem parse_log_append {first second : Text} (whole : WholeLines first)
    (begins : BeginsWithBanner second) :
    parseLog (first ++ second) =
      (parseLog first).bind fun runs =>
        (parseLog second).map fun more => runs ++ more.map (BootRun.shift runs.length) := by
  obtain ⟨raw, rest, lines, banner⟩ := begins_with_banner_lines begins
  rw [parse_log_eq, parse_log_eq, parse_log_eq,
    split_lines_append whole fun _ => begins_with_banner_head begins, lines,
    banner_segments_append _ _ banner, numbered_runs_append]
  apply congrArg
  funext runs
  rw [Nat.add_comm 1, numbered_runs_shift, Option.map_map]
  rfl

end BootEntropy.BootLog
