import BootEntropy.Capsule.BootConsole

/-!
# Runs of printed boots

A seeded boot makes one run, wherever it stands in a log, and the run holds what the
firmware printed last for each key.
-/

namespace BootEntropy.Capsule

open BootEntropy.Lib
open BootEntropy.BootLog

set_option autoImplicit false

/-! ## Fields of a run -/

def lastEntry (entries : List (Text × Text)) (key : Text) : Option Text := entries.reverse.lookup key

theorem last_entry_snoc (entries : List (Text × Text)) (entry : Text × Text) (key : Text) :
    lastEntry (entries ++ [entry]) key =
      if key = entry.1 then some entry.2 else lastEntry entries key := by
  obtain ⟨name, value⟩ := entry
  rw [lastEntry, List.reverse_append, List.reverse_singleton, List.singleton_append, List.lookup_cons]
  by_cases same : key = name
  · rw [if_pos same, beq_iff_eq.mpr same]
  · rw [if_neg same, beq_eq_false_iff_ne.mpr same]
    rfl

theorem set_texts_apply (run : BootRun) (entries : List (Text × Text)) (key : Text) :
    run.setTexts entries key = ((lastEntry entries key).map FieldValue.text).or (run key) := by
  induction entries using List.reverseRecOn with
  | nil => rfl
  | append_singleton entries entry ih =>
      have last : run.setTexts (entries ++ [entry]) =
          (run.setTexts entries).set entry.1 (.text entry.2) := List.foldl_concat ..
      rw [last, BootRun.set, last_entry_snoc]
      split_ifs
      · rfl
      · exact ih

theorem set_texts_append (run : BootRun) (front back : List (Text × Text)) :
    run.setTexts (front ++ back) = (run.setTexts front).setTexts back := List.foldl_append

variable {run : BootRun}

theorem set_default_other {key other : Text} (different : key ≠ other) (value : FieldValue) :
    run.setDefault other value key = run key := by
  rw [BootRun.setDefault]
  split_ifs
  · exact if_neg different
  · rfl

theorem set_default_kept {key : Text} {value : FieldValue} (known : run key = some value)
    (other : Text) (default : FieldValue) : run.setDefault other default key = some value := by
  by_cases same : key = other
  · have set : run other ≠ none := by
      rw [← same, known]
      exact Option.some_ne_none value
    rw [BootRun.setDefault, if_neg set, known]
  · rw [set_default_other same, known]

def quotientKeys : List Text :=
  ["sram_one_rate".toList, "sram_transition_rate".toList, "timing_mean_delta".toList]

def defaultKeys : List Text :=
  ["hello_tx_bytes".toList, "capsule_rx_bytes".toList, "application_datagrams".toList,
    "result".toList]

theorem set_defaults_other {key : Text} (other : key ∉ defaultKeys) : setDefaults run key = run key := by
  simp only [defaultKeys, List.mem_cons, List.not_mem_nil, or_false, not_or] at other
  obtain ⟨hello, capsule, datagrams, result⟩ := other
  rw [setDefaults, set_default_other result, set_default_other datagrams, set_default_other capsule,
    set_default_other hello]

theorem set_defaults_kept {key : Text} {value : FieldValue} (known : run key = some value) :
    setDefaults run key = some value :=
  set_default_kept (set_default_kept (set_default_kept (set_default_kept known _ _) _ _) _ _) _ _

/-- The counts that the parser divides are short texts. -/
def Measured (run : BootRun) : Prop :=
  ∀ key ∈ measuredKeys, ∀ value, run key = some value →
    ∃ text : Text, value = .text text ∧ text.length ≤ 20

theorem pow_le_pow_sub {low middle high : Nat} (below : low ≤ middle) (above : middle + 1 ≤ high) :
    2 ^ low ≤ 2 ^ high - 2 ^ middle := by
  have double : 2 ^ (middle + 1) = 2 ^ middle + 2 ^ middle := by rw [pow_succ, mul_two]
  have lower : 2 ^ low ≤ 2 ^ middle := Nat.pow_le_pow_right (by decide) below
  have upper : 2 ^ (middle + 1) ≤ 2 ^ high := Nat.pow_le_pow_right (by decide) above
  omega

theorem set_quotient_some (measured : Measured run) {source : String} (key : String) {divisor : Nat}
    (positive : 0 < divisor) (counted : source.toList ∈ measuredKeys) :
    ∃ final, run.setQuotient source key divisor = some final ∧
      ∀ other, other ≠ key.toList → final other = run other := by
  rw [BootRun.setQuotient]
  cases number : fieldInt (run source.toList) with
  | none => exact ⟨run, rfl, fun other _ => rfl⟩
  | some dividend =>
      have small : dividend.natAbs < 16 ^ 20 := by
        cases known : run source.toList with
        | none =>
            rw [known] at number
            cases number
        | some value =>
            obtain ⟨text, rfl, short⟩ := measured _ counted value known
            rw [known] at number
            exact (parse_literal_lt number).trans_le (Nat.pow_le_pow_right (by decide) short)
      have fits : dividend.natAbs < (2 ^ 1024 - 2 ^ 970) * divisor :=
        calc
          dividend.natAbs < 16 ^ 20 := small
          _ = 2 ^ 80 := by decide
          _ ≤ 2 ^ 1024 - 2 ^ 970 := pow_le_pow_sub (by decide) (by decide)
          _ ≤ (2 ^ 1024 - 2 ^ 970) * divisor := Nat.le_mul_of_pos_right _ positive
      refine ⟨run.set key.toList (.quotient dividend divisor), ?_, fun other different => if_neg different⟩
      dsimp only
      rw [trueDivide, if_pos fits]
      rfl

theorem Measured.congr {other : BootRun} (measured : Measured run)
    (same : ∀ key ∈ measuredKeys, other key = run key) : Measured other := by
  intro key counted value known
  exact measured key counted value (same key counted ▸ known)

theorem finalize_run_some (measured : Measured run) :
    ∃ final, finalizeRun run = some final ∧
      ∀ key, key ∉ quotientKeys → final key = setDefaults run key := by
  have apart : ∀ key ∈ measuredKeys, key ∉ defaultKeys ∧ key ∉ quotientKeys := by decide
  have defaults : Measured (setDefaults run) :=
    measured.congr fun key counted => set_defaults_other (apart key counted).1
  obtain ⟨ones, first, keptOnes⟩ :=
    @set_quotient_some _ defaults "sram_ones" "sram_one_rate" (4096 * 8) (by decide) (by decide)
  have measuredOnes : Measured ones := defaults.congr fun key counted =>
    keptOnes key fun same => (apart key counted).2 (same ▸ by decide)
  obtain ⟨transitions, second, keptTransitions⟩ :=
    @set_quotient_some _ measuredOnes "sram_transitions" "sram_transition_rate" (4096 * 8 - 1)
      (by decide) (by decide)
  have measuredTransitions : Measured transitions := measuredOnes.congr fun key counted =>
    keptTransitions key fun same => (apart key counted).2 (same ▸ by decide)
  obtain ⟨final, third, keptFinal⟩ :=
    @set_quotient_some _ measuredTransitions "timing_sum_delta" "timing_mean_delta" 512
      (by decide) (by decide)
  refine ⟨final, ?_, fun key other => ?_⟩
  · rw [finalizeRun, first]
    dsimp only [Option.bind_eq_bind, Option.bind_some]
    rw [second]
    exact third
  · simp only [quotientKeys, List.mem_cons, List.not_mem_nil, or_false, not_or] at other
    rw [keptFinal key other.2.2, keptTransitions key other.2.1, keptOnes key other.1]

theorem Measured.set_texts {entries : List (Text × Text)} (measured : Measured run)
    (short : ∀ entry ∈ entries, entry.1 ∈ measuredKeys → entry.2.length ≤ 20) :
    Measured (run.setTexts entries) := by
  induction entries generalizing run with
  | nil => exact measured
  | cons entry entries ih =>
      have first : Measured (run.set entry.1 (.text entry.2)) := by
        intro key counted value known
        rw [BootRun.set] at known
        split_ifs at known with same
        · cases known
          exact ⟨entry.2, rfl, short entry List.mem_cons_self (same ▸ counted)⟩
        · exact measured key counted value known
      exact ih first fun other member => short other (List.mem_cons_of_mem entry member)

theorem measured_start_run (number : Nat) : Measured (startRun number) := by
  intro key counted value known
  have other : ∀ key ∈ measuredKeys, key ≠ "run".toList := by decide
  rw [startRun, BootRun.set, if_neg (other key counted)] at known
  cases known

/-! ## Texts of console lines -/

def lineTexts (console : List ConsoleLine) : List Text := console.map fun line => line.text.toList

def consoleText (ending : Text) (console : List ConsoleLine) : Text :=
  joinLines ending (lineTexts console)

theorem line_texts_append (front back : List ConsoleLine) :
    lineTexts (front ++ back) = lineTexts front ++ lineTexts back := List.map_append

section Lines

variable {lines : List ConsoleLine} (ordinary : ∀ line ∈ lines, Ordinary line)
include ordinary

theorem ordinary_not_banner : ∀ text ∈ lineTexts lines, isBanner text = false := by
  intro text member
  obtain ⟨line, known, rfl⟩ := List.mem_map.mp member
  exact is_banner_eq (ordinary_reads (ordinary line known)).stripped

theorem ordinary_plain : ∀ text ∈ lineTexts lines, PlainLine text := by
  intro text member
  obtain ⟨line, known, rfl⟩ := List.mem_map.mp member
  exact (ordinary_reads (ordinary line known)).plain

theorem read_segment_ordinary (run : BootRun) (rest : List Text) :
    readSegment run (lineTexts lines ++ rest) =
      readSegment (run.setTexts (lines.flatMap ConsoleLine.printed)) rest := by
  induction lines generalizing run with
  | nil => rfl
  | cons line lines ih =>
      have read := (ordinary_reads (ordinary line List.mem_cons_self)).stripped
      have step : readSegment run (lineTexts (line :: lines) ++ rest) =
          readSegment (run.setTexts line.printed) (lineTexts lines ++ rest) := by
        show readSegment run (line.text.toList :: (lineTexts lines ++ rest)) = _
        rw [readSegment, read]
      rw [step, ih fun other member => ordinary other (List.mem_cons_of_mem line member),
        List.flatMap_cons, set_texts_append]

end Lines

/-! ## Segments of a boot -/

section Segments

variable {lines : List Text} (other : ∀ line ∈ lines, isBanner line = false)
include other

theorem banner_segments_skip_all (rest : List Text) :
    bannerSegments (lines ++ rest) = bannerSegments rest := by
  induction lines with
  | nil => rfl
  | cons line lines ih =>
      rw [List.cons_append, banner_segments_skip (other line List.mem_cons_self)]
      exact ih fun text member => other text (List.mem_cons_of_mem line member)

theorem take_segment_skip_all (rest : List Text) :
    (lines ++ rest).takeWhile (fun line => !isBanner line) =
      lines ++ rest.takeWhile fun line => !isBanner line :=
  List.takeWhile_append_of_pos fun line member => by rw [other line member]; rfl

theorem banner_segments_boot {banner : Text} (opens : isBanner banner = true) (rest : List Text) :
    bannerSegments (banner :: (lines ++ rest)) =
      (lines ++ rest.takeWhile fun line => !isBanner line) :: bannerSegments rest := by
  rw [bannerSegments, if_pos opens, take_segment_skip_all other, banner_segments_skip_all other]

end Segments

theorem parse_lines_boot (before : List Text) {banner : Text} (opens : isBanner banner = true)
    {lines : List Text} (other : ∀ line ∈ lines, isBanner line = false) (rest : List Text) :
    parseLines (before ++ banner :: (lines ++ rest)) =
      (parseLines before).bind fun runs =>
        (segmentRun (runs.length + 1) (lines ++ rest.takeWhile fun line => !isBanner line)).bind
          fun run => (numberedRuns (runs.length + 2) (bannerSegments rest)).map fun more =>
            runs ++ run :: more := by
  rw [parse_lines_eq, parse_lines_eq, banner_segments_append before _ opens, numbered_runs_append,
    banner_segments_boot other opens]
  apply congrArg
  funext runs
  rw [Nat.add_comm 1, numberedRuns]
  cases segmentRun (runs.length + 1) (lines ++ rest.takeWhile fun line => !isBanner line) with
  | none => rfl
  | some run => cases numberedRuns (runs.length + 1 + 1) (bannerSegments rest) <;> rfl

theorem banner_opens : isBanner bannerText = true := by decide

theorem split_boot {ending : Text} (ends : LineEnd ending) {rest : List ConsoleLine}
    (plain : ∀ text ∈ lineTexts rest, PlainLine text) (before after : Text) :
    ∃ quiet, (∀ line ∈ quiet, speaks line = false) ∧
      splitLines (before ++ (consoleText ending (bannerLines ++ rest) ++ after)) =
        splitLines before ++ quiet ++ bannerText :: (lineTexts rest ++ splitLines after) := by
  have rule : PlainLine "========================================".toList := by decide
  have banner : PlainLine bannerText := by decide
  have text : consoleText ending (bannerLines ++ rest) ++ after =
      ending ++ (joinLines ending
        ("========================================".toList :: bannerText :: lineTexts rest) ++ after) := by
    rw [consoleText, line_texts_append, ← List.append_assoc ending]
    rfl
  obtain ⟨blank, empty, split⟩ := split_lines_feed ends before (joinLines ending
    ("========================================".toList :: bannerText :: lineTexts rest) ++ after)
  refine ⟨blank ++ ["========================================".toList], ?_, ?_⟩
  · intro line member
    rcases List.mem_append.mp member with none | last
    · rw [empty line none]
      decide
    · rw [List.mem_singleton.mp last]
      decide
  · rw [text, split, split_join_lines _ ends]
    · simp only [List.append_assoc, List.cons_append, List.nil_append]
    · exact List.forall_mem_cons.mpr ⟨rule, List.forall_mem_cons.mpr ⟨banner, plain⟩⟩

/-! ## A seeded boot -/

def lastPrinted (console : List ConsoleLine) (key : Text) : Option Text :=
  lastEntry (console.flatMap ConsoleLine.printed) key

def hostKeys : List Text := "run".toList :: (quotientKeys ++ defaultKeys)

/-- A run that holds what was printed last, and beside it only what the parser adds. -/
structure ShowsLast (console : List ConsoleLine) (number : Nat) (run : BootRun) : Prop where
  number : run "run".toList = some (.int number)
  printed : ∀ key value, lastPrinted console key = some value → run key = some (.text value)
  nothingElse : ∀ key, key ∉ hostKeys → lastPrinted console key = none → run key = none

theorem last_entry_mem {entries : List (Text × Text)} {key value : Text}
    (last : lastEntry entries key = some value) : (key, value) ∈ entries := by
  induction entries using List.reverseRecOn with
  | nil => cases last
  | append_singleton entries entry ih =>
      rw [last_entry_snoc] at last
      split_ifs at last with same
      · cases last
        rw [same]
        exact List.mem_append_right _ (List.mem_singleton.mpr rfl)
      · exact List.mem_append_left _ (ih last)

theorem shows_last_of_entries {console : List ConsoleLine} (number : Nat)
    (own : ∀ entry ∈ console.flatMap ConsoleLine.printed, entry.1 ∉ derivedKeys)
    (short : ∀ entry ∈ console.flatMap ConsoleLine.printed,
      entry.1 ∈ measuredKeys → entry.2.length ≤ 20) :
    ∃ run, finalizeRun ((startRun number).setTexts (console.flatMap ConsoleLine.printed)) = some run ∧
      ShowsLast console number run := by
  have measured := (measured_start_run number).set_texts short
  obtain ⟨run, final, kept⟩ := finalize_run_some measured
  have derived : ∀ key ∈ quotientKeys, key ∈ derivedKeys := by decide
  have numbered : lastPrinted console "run".toList = none := by
    cases last : lastPrinted console "run".toList with
    | none => rfl
    | some value =>
        have known : "run".toList ∈ derivedKeys := by decide
        exact absurd known (own _ (last_entry_mem last))
  refine ⟨run, final, ?_, fun key value last => ?_, fun key other unprinted => ?_⟩
  · rw [kept _ (by decide)]
    apply set_defaults_kept
    rw [set_texts_apply, show lastEntry _ _ = none from numbered, Option.map_none, Option.none_or,
      startRun, BootRun.set, if_pos rfl]
  · have printed : key ∉ quotientKeys := fun quotient =>
      own _ (last_entry_mem last) (derived key quotient)
    rw [kept key printed]
    apply set_defaults_kept
    rw [set_texts_apply, show lastEntry _ _ = some value from last]
    rfl
  · rw [hostKeys, List.mem_cons, List.mem_append, not_or, not_or] at other
    rw [kept key other.2.1, set_defaults_other other.2.2, set_texts_apply,
      show lastEntry _ _ = none from unprinted, Option.map_none, Option.none_or,
      startRun, BootRun.set, if_neg other.1]

section Boot

variable {profile : Profile} {env : Environment profile} (plain : env.Plain) (retained : RetainedCounter)

include plain in
theorem boot_console :
    ∃ front ending, (clientMain env retained).1.console = bannerLines ++ (front ++ ending) ∧
      (∀ line ∈ front, Ordinary line) ∧ Ending ending (clientMain env retained).2 := by
  obtain ⟨front, ending, console, ordinary, ends⟩ := client_main_finishes env plain retained
  exact ⟨front, ending, console.trans (List.append_assoc ..), ordinary, ends⟩

theorem seeded_reads : ReadsAs seededLine (.result "seeded".toList) := by
  have plain : PlainFields ["seeded"] := .one (by decide)
  have reads := @tagged_reads .tebResult _ _ plain (read_result plain)
  rw [fields_text_one] at reads
  exact reads

include plain in
theorem parse_seeded_boot (seeded : (clientMain env retained).2 = 0) {ending : Text}
    (ends : LineEnd ending) (before after : Text) :
    ∃ run : Nat → BootRun,
      (∀ number, ShowsLast (clientMain env retained).1.console number (run number)) ∧
      parseLog (before ++ (consoleText ending (clientMain env retained).1.console ++ after)) =
        (parseLog before).bind fun runs =>
          (numberedRuns (runs.length + 2) (bannerSegments (splitLines after))).map fun more =>
            runs ++ run (runs.length + 1) :: more := by
  obtain ⟨front, last, console, ordinary, finish⟩ := boot_console plain retained
  have lastLine : last = [seededLine] := by
    rw [seeded] at finish
    cases finish
    rfl
  rw [lastLine] at console
  generalize (clientMain env retained).1.console = lines at console
  subst console
  have shown : (bannerLines ++ (front ++ [seededLine])).flatMap ConsoleLine.printed =
      front.flatMap ConsoleLine.printed ++ [("result".toList, "seeded".toList)] := by
    have none : bannerLines.flatMap ConsoleLine.printed = [] := by decide
    have final : seededLine.printed = [("result".toList, "seeded".toList)] := by decide
    rw [List.flatMap_append, List.flatMap_append, none, List.flatMap_singleton, final,
      List.nil_append]
  have entries : ∀ entry ∈ front.flatMap ConsoleLine.printed, PrintedEntry entry := by
    intro entry member
    obtain ⟨line, known, inside⟩ := List.mem_flatMap.mp member
    exact ordinary_entries (ordinary line known) entry inside
  have runs (number : Nat) := @shows_last_of_entries (bannerLines ++ (front ++ [seededLine])) number
    (by
      rw [shown]
      refine List.forall_mem_append.mpr ⟨fun entry member => (entries entry member).own, ?_⟩
      decide)
    (by
      rw [shown]
      refine List.forall_mem_append.mpr ⟨fun entry member => (entries entry member).short, ?_⟩
      decide)
  choose run final showsLast using runs
  refine ⟨run, showsLast, ?_⟩
  have texts : lineTexts (front ++ [seededLine]) = lineTexts front ++ [seededLine.text.toList] :=
    line_texts_append front [seededLine]
  have plainTexts : ∀ text ∈ lineTexts (front ++ [seededLine]), PlainLine text := by
    rw [texts]
    exact List.forall_mem_append.mpr ⟨ordinary_plain ordinary, fun text member =>
      List.mem_singleton.mp member ▸ seeded_reads.plain⟩
  have other : ∀ text ∈ lineTexts (front ++ [seededLine]), isBanner text = false := by
    rw [texts]
    exact List.forall_mem_append.mpr ⟨ordinary_not_banner ordinary, fun text member =>
      List.mem_singleton.mp member ▸ is_banner_eq seeded_reads.stripped⟩
  obtain ⟨quiet, silent, split⟩ := split_boot ends plainTexts before after
  have segment (number : Nat) (rest : List Text) :
      segmentRun number (lineTexts (front ++ [seededLine]) ++ rest) = some (run number) := by
    rw [segmentRun, texts, List.append_assoc, read_segment_ordinary ordinary, List.singleton_append,
      readSegment, seeded_reads.stripped]
    have whole := final number
    rw [shown, set_texts_append] at whole
    exact whole
  rw [show parseLog _ = parseLines (splitLines _) from rfl, split, parse_lines_silent _ _ silent,
    parse_lines_boot _ banner_opens other]
  simp only [segment, Option.bind_some]
  rfl

end Boot

end BootEntropy.Capsule
