import BootEntropy.Capsule.CapturedBoots

/-!
# Outcomes of a log

A log is a row of boots when each banner is followed by ordinary lines and by a last line
that seeds the boot or does not. What else stands in it does no harm.
-/

namespace BootEntropy.Capsule

open BootEntropy.Lib
open BootEntropy.BootLog

set_option autoImplicit false

def seeded (run : BootRun) : Bool := run "result".toList = some (.text "seeded".toList)

/-- The results of the runs, 'seeded' or not. -/
def outcomes (text : Text) : Option (List Bool) := (parseLog text).map (·.map seeded)

/-! ## Harmless lines -/

/-- No run becomes a seeded one, and no count in the line is too long to be divided. -/
def Mild : Entry → Prop
  | .banner => False
  | .fields entries => ∀ entry ∈ entries,
      (entry.1 ∈ measuredKeys → entry.2.length ≤ 20) ∧
        (entry.1 = "result".toList → entry.2 ≠ "seeded".toList)
  | .result value => value ≠ "seeded".toList

instance : (entry : Entry) → Decidable (Mild entry)
  | .banner => isFalse id
  | .fields entries => inferInstanceAs (Decidable (∀ entry ∈ entries, _ ∧ _))
  | .result value => inferInstanceAs (Decidable (value ≠ "seeded".toList))

def Harmless (raw : Text) : Prop := Mild (readEntry (strip raw))

instance (raw : Text) : Decidable (Harmless raw) :=
  inferInstanceAs (Decidable (Mild (readEntry (strip raw))))

theorem Harmless.not_banner {raw : Text} (harmless : Harmless raw) : isBanner raw = false := by
  cases read : readEntry (strip raw) with
  | banner =>
      rw [Harmless, read] at harmless
      exact harmless.elim
  | fields entries => exact is_banner_eq read
  | result value => exact is_banner_eq read

theorem Harmless.divides {raw : Text} (harmless : Harmless raw) : Divides raw := by
  intro entries read entry member
  rw [Harmless, read] at harmless
  exact (harmless entry member).1

theorem silent_harmless {raw : Text} (silent : speaks raw = false) : Harmless raw := by
  have read : readEntry (strip raw) = .fields [] := by
    rw [speaks, decide_eq_false_iff_not, not_not] at silent
    exact silent
  rw [Harmless, read]
  exact List.forall_mem_nil _

theorem blank_harmless : Harmless [] := by decide

theorem ordinary_harmless {line : ConsoleLine} (ordinary : Ordinary line) :
    Harmless line.text.toList := by
  rw [Harmless, (ordinary_reads ordinary).stripped]
  intro entry member
  exact ⟨(ordinary_entries ordinary entry member).short, (ordinary_entries ordinary entry member).unseeded⟩

theorem mild_address (found : Option (Text × Text)) : Mild (.fields (addressEntries found)) :=
  fun entry member => ⟨(address_entries found entry member).short, (address_entries found entry member).unseeded⟩

theorem entry_mild {key : Text} (value : Text)
    (other : key ∉ measuredKeys ∧ key ≠ "result".toList) :
    ((key, value).1 ∈ measuredKeys → (key, value).2.length ≤ 20) ∧
      ((key, value).1 = "result".toList → (key, value).2 ≠ "seeded".toList) :=
  ⟨fun known => absurd known other.1, fun same => absurd same other.2⟩

theorem mild_unkeyed {line : Text} (noBanner : line ≠ bannerText)
    (noKey : (keyTags.findSome? fun tag => keyedEntry tag line) = none)
    (unseeded : ∀ value, taggedRest "[TEB_RESULT]" line = some value → value ≠ "seeded".toList) :
    Mild (readEntry line) := by
  rw [readEntry, if_neg noBanner, noKey]
  dsimp only
  split
  · next value read => exact unseeded value read
  · split
    · next error read =>
        exact List.forall_mem_cons.mpr ⟨entry_mild error (by decide),
          List.forall_mem_singleton.mpr (by decide)⟩
    · split
      · next addr gateway found => exact mild_address (some (addr, gateway))
      · split
        · next profile read => exact List.forall_mem_singleton.mpr (entry_mild profile (by decide))
        · exact List.forall_mem_nil _

theorem tagged_rest_some {tag : String} {line value : Text} (read : taggedRest tag line = some value) :
    ∃ blank, (∀ c ∈ blank, isSpace c = true) ∧ line = tag.toList ++ (blank ++ value) := by
  by_cases begins : tag.toList <+: line
  · obtain ⟨rest, rfl⟩ := begins
    rw [taggedRest, behind_tag_append] at read
    dsimp only [Option.bind_eq_bind, Option.bind_some] at read
    split_ifs at read
    cases read
    refine ⟨rest.takeWhile isSpace, fun c member => List.mem_takeWhile_imp member, ?_⟩
    rw [List.takeWhile_append_dropWhile]
  · rw [tagged_rest_none begins] at read
    cases read

theorem mild_labelled {label rest line : Text} (reads : line <+: label ++ rest)
    (head : label.head? = some '[')
    (apart : ∀ tag ∈ keyTags, ¬tag.toList <+: label ∧ ¬label <+: tag.toList)
    (unseeded : ∀ blank, (∀ c ∈ blank, isSpace c = true) →
      line ≠ resultTag ++ (blank ++ "seeded".toList)) : Mild (readEntry line) := by
  apply mild_unkeyed
  · rintro rfl
    obtain ⟨more, whole⟩ := reads
    have first := congrArg List.head? whole
    rw [List.head?_append, List.head?_append, head] at first
    cases first
  · rw [List.findSome?_eq_none_iff]
    intro tag known
    apply keyed_entry_none
    exact fun begins => other_tag (apart tag known) rest (begins.trans reads)
  · rintro value read rfl
    obtain ⟨blank, spaces, shape⟩ := tagged_rest_some read
    exact unseeded blank spaces shape

/-! ## One run -/

def resultValue (run : BootRun) : Option FieldValue := run "result".toList

theorem result_value_set {run : BootRun} {entries : List (Text × Text)}
    (mild : ∀ entry ∈ entries, entry.1 = "result".toList → entry.2 ≠ "seeded".toList)
    (unseeded : resultValue run ≠ some (.text "seeded".toList)) :
    resultValue (run.setTexts entries) ≠ some (.text "seeded".toList) := by
  rw [resultValue, set_texts_apply]
  cases last : lastEntry entries "result".toList with
  | none => exact unseeded
  | some value =>
      intro same
      cases same
      exact mild _ (last_entry_mem last) rfl rfl

theorem unseeded_segment {lines : List Text} (harmless : ∀ raw ∈ lines, Harmless raw) :
    ∀ {run : BootRun}, resultValue run ≠ some (.text "seeded".toList) →
      resultValue (readSegment run lines) ≠ some (.text "seeded".toList) := by
  induction lines with
  | nil => exact id
  | cons raw rest ih =>
      intro run unseeded
      rw [List.forall_mem_cons] at harmless
      obtain ⟨first, later⟩ := harmless
      rw [readSegment]
      rw [Harmless] at first
      cases read : readEntry (strip raw) with
      | banner => exact unseeded
      | fields entries =>
          rw [read] at first
          exact ih later (result_value_set (fun entry member => (first entry member).2) unseeded)
      | result value =>
          rw [read] at first
          have other : value ≠ "seeded".toList := first
          exact result_value_set (List.forall_mem_singleton.mpr fun _ => other) unseeded

theorem start_run_unseeded (number : Nat) :
    resultValue (startRun number) ≠ some (.text "seeded".toList) := by
  have other : "result".toList ≠ "run".toList := by decide
  rw [resultValue, startRun, BootRun.set, if_neg other]
  intro same
  cases same

theorem segment_run_seeded {lines : List Text} (divides : ∀ raw ∈ lines, Divides raw) (number : Nat) :
    ∃ run, segmentRun number lines = some run ∧ (seeded run = true ↔
      resultValue (readSegment (startRun number) lines) = some (.text "seeded".toList)) := by
  obtain ⟨run, final, kept⟩ :=
    finalize_run_some (measured_read_segment divides (measured_start_run number))
  refine ⟨run, final, ?_⟩
  have same : run "result".toList = setDefaults (readSegment (startRun number) lines) "result".toList :=
    kept _ (by decide)
  rw [seeded, decide_eq_true_iff, same, resultValue]
  constructor
  · intro set
    cases known : readSegment (startRun number) lines "result".toList with
    | some value => rw [← set, set_defaults_kept known]
    | none =>
        have others : "result".toList ≠ "hello_tx_bytes".toList ∧
            "result".toList ≠ "capsule_rx_bytes".toList ∧
            "result".toList ≠ "application_datagrams".toList := by decide
        rw [setDefaults, BootRun.setDefault, if_pos, BootRun.set, if_pos rfl] at set
        · cases set
        · rw [set_default_other others.2.2, set_default_other others.2.1, set_default_other others.1,
            known]
  · exact fun known => set_defaults_kept known

/-! ## Rows of boots -/

def seededText : Text := seededLine.text.toList

/-- The lines from the last one of a boot on, and whether they seed it. -/
inductive LastVerdict : List Text → Bool → Prop where
  | seeded {rest : List Text} (harmless : ∀ raw ∈ rest, Harmless raw) :
      LastVerdict (seededText :: rest) true
  | other {lines : List Text} (harmless : ∀ raw ∈ lines, Harmless raw) : LastVerdict lines false

inductive Verdicts : List Text → List Bool → Prop where
  | rest {lines : List Text} (harmless : ∀ raw ∈ lines, Harmless raw) : Verdicts lines []
  | boot {before lines rest : List Text} {front : List ConsoleLine} {verdict : Bool}
      {verdicts : List Bool} (harmless : ∀ raw ∈ before, Harmless raw)
      (ordinary : ∀ line ∈ front, Ordinary line) (last : LastVerdict lines verdict)
      (later : Verdicts rest verdicts) :
      Verdicts (before ++ bannerText :: (lineTexts front ++ (lines ++ rest))) (verdict :: verdicts)

theorem seeded_text_divides : Divides seededText ∧ isBanner seededText = false := by
  have read : readEntry (strip seededText) = .result "seeded".toList := seeded_reads.stripped
  refine ⟨fun entries fields => ?_, is_banner_eq read⟩
  rw [read] at fields
  cases fields

theorem LastVerdict.lines {lines : List Text} {verdict : Bool} (last : LastVerdict lines verdict) :
    ∀ raw ∈ lines, Divides raw ∧ isBanner raw = false := by
  cases last with
  | seeded harmless =>
      exact List.forall_mem_cons.mpr ⟨seeded_text_divides,
        fun raw member => ⟨(harmless raw member).divides, (harmless raw member).not_banner⟩⟩
  | other harmless => exact fun raw member => ⟨(harmless raw member).divides, (harmless raw member).not_banner⟩

theorem boot_segment_verdict {front : List ConsoleLine} (ordinary : ∀ line ∈ front, Ordinary line)
    {lines rest : List Text} {verdict : Bool} (last : LastVerdict lines verdict)
    (harmless : ∀ raw ∈ rest, Harmless raw) (number : Nat) :
    ∃ run, segmentRun number (lineTexts front ++ (lines ++ rest)) = some run ∧ seeded run = verdict := by
  have frontHarmless : ∀ raw ∈ lineTexts front, Harmless raw :=
    List.forall_mem_map.mpr fun line known => ordinary_harmless (ordinary line known)
  have divides : ∀ raw ∈ lineTexts front ++ (lines ++ rest), Divides raw := by
    refine List.forall_mem_append.mpr ⟨fun raw member => (frontHarmless raw member).divides, ?_⟩
    exact List.forall_mem_append.mpr ⟨fun raw member => (last.lines raw member).1,
      fun raw member => (harmless raw member).divides⟩
  obtain ⟨run, segment, result⟩ := segment_run_seeded divides number
  refine ⟨run, segment, ?_⟩
  cases last with
  | seeded behind =>
      have read : readEntry (strip seededText) = .result "seeded".toList := seeded_reads.stripped
      rw [result, read_segment_ordinary ordinary, List.cons_append, readSegment, read]
      dsimp only
      rw [resultValue, set_texts_apply]
      rfl
  | other behind =>
      rw [← Bool.not_eq_true, result]
      apply unseeded_segment _ (start_run_unseeded number)
      exact List.forall_mem_append.mpr ⟨frontHarmless, List.forall_mem_append.mpr ⟨behind, harmless⟩⟩

theorem Verdicts.front {lines : List Text} {verdicts : List Bool} (row : Verdicts lines verdicts) :
    ∀ raw ∈ lines.takeWhile fun line => !isBanner line, Harmless raw := by
  cases row with
  | rest harmless => exact fun raw member => harmless raw ((List.takeWhile_subset _) member)
  | boot harmless ordinary last later =>
      rw [take_segment_skip_all fun raw member => (harmless raw member).not_banner]
      rw [List.takeWhile_cons_of_neg (by simp [banner_opens]), List.append_nil]
      exact harmless

theorem verdict_runs {lines : List Text} {verdicts : List Bool} (row : Verdicts lines verdicts) :
    ∀ number, ∃ runs, numberedRuns number (bannerSegments lines) = some runs ∧
      runs.map seeded = verdicts := by
  induction row with
  | rest harmless =>
      intro number
      have none := banner_segments_skip_all (fun raw member => (harmless raw member).not_banner) []
      rw [List.append_nil] at none
      exact ⟨[], by rw [none]; rfl, rfl⟩
  | @boot before lines rest front verdict verdicts harmless ordinary last later ih =>
      intro number
      have other : ∀ raw ∈ lineTexts front ++ lines, isBanner raw = false :=
        List.forall_mem_append.mpr
          ⟨ordinary_not_banner ordinary, fun raw member => (last.lines raw member).2⟩
      have segments : bannerSegments (before ++ bannerText :: (lineTexts front ++ (lines ++ rest))) =
          (lineTexts front ++ (lines ++ rest.takeWhile fun line => !isBanner line)) ::
            bannerSegments rest := by
        rw [banner_segments_skip_all fun raw member => (harmless raw member).not_banner,
          ← List.append_assoc, banner_segments_boot other banner_opens, List.append_assoc]
      obtain ⟨run, segment, same⟩ := boot_segment_verdict ordinary last later.front number
      obtain ⟨runs, more, sameRest⟩ := ih (number + 1)
      refine ⟨run :: runs, ?_, by rw [List.map_cons, same, sameRest]⟩
      rw [segments, numberedRuns, segment, Option.bind_some, more]
      rfl

theorem outcomes_of_verdicts {text : Text} {verdicts : List Bool}
    (row : Verdicts (splitLines text) verdicts) : outcomes text = some verdicts := by
  obtain ⟨runs, parsed, same⟩ := verdict_runs row 1
  rw [outcomes, parse_log_eq, parsed, Option.map_some, same]

end BootEntropy.Capsule
