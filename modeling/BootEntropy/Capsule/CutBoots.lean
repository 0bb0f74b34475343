import BootEntropy.Capsule.BootRuns
import BootEntropy.Capsule.Disclosure

/-!
# Boots that stop anywhere

The console of a boot may be cut at any character. The parser still returns a run for
each banner: no count in a cut line is too long to be divided.
-/

namespace BootEntropy.Capsule

open BootEntropy.Lib
open BootEntropy.BootLog

set_option autoImplicit false

/-! ## Counts in cut lines -/

theorem split_once_prefix {separator : Char} {cut line key value : Text} (reads : cut <+: line)
    (entry : splitOnce separator cut = some (key, value)) :
    ∃ rest, splitOnce separator line = some (key, value ++ rest) := by
  obtain ⟨more, rfl⟩ := reads
  have separated : separator ∈ cut := by
    by_contra none
    rw [splitOnce, if_neg none] at entry
    cases entry
  obtain ⟨front, back, rfl, plain⟩ := List.eq_append_cons_of_mem separated
  have own : splitOnce separator (front ++ separator :: back) = some (front, back) :=
    split_once_separator back plain
  rw [own] at entry
  cases entry
  rw [List.append_assoc, List.cons_append]
  exact ⟨more, split_once_separator (value ++ more) plain⟩

theorem drop_blank_append {text : Text} (more : Text) (filled : text.dropWhile isSpace ≠ []) :
    (text ++ more).dropWhile isSpace = text.dropWhile isSpace ++ more ∧
      (text ++ more).takeWhile isSpace = text.takeWhile isSpace := by
  induction text with
  | nil => exact absurd rfl filled
  | cons c rest ih =>
      by_cases blank : isSpace c = true
      · rw [List.dropWhile_cons_of_pos blank] at filled
        obtain ⟨back, front⟩ := ih filled
        rw [List.cons_append, List.dropWhile_cons_of_pos blank, List.dropWhile_cons_of_pos blank,
          List.takeWhile_cons_of_pos blank, List.takeWhile_cons_of_pos blank, front]
        exact ⟨back, rfl⟩
      · rw [List.cons_append, List.dropWhile_cons_of_neg blank, List.dropWhile_cons_of_neg blank,
          List.takeWhile_cons_of_neg blank, List.takeWhile_cons_of_neg blank]
        exact ⟨rfl, rfl⟩

theorem keyed_entry_prefix {tag : String} {cut line key value : Text} (reads : cut <+: line)
    (entry : keyedEntry tag cut = some (key, value)) :
    ∃ rest, keyedEntry tag line = some (key, value ++ rest) := by
  obtain ⟨more, rfl⟩ := reads
  by_cases begins : tag.toList <+: cut
  · obtain ⟨rest, rfl⟩ := begins
    rw [keyedEntry, behind_tag_append] at entry
    dsimp only [Option.bind_eq_bind, Option.bind_some] at entry
    rw [Option.bind_eq_some_iff] at entry
    obtain ⟨pair, split, kept⟩ := entry
    split_ifs at kept with filled
    cases kept
    obtain ⟨blankSome, keySome, valueSome⟩ := filled
    have bodySome : rest.dropWhile isSpace ≠ [] := by
      intro none
      rw [none] at split
      rw [if_neg] at split
      · rw [splitOnce, if_neg List.not_mem_nil] at split
        cases split
      · rintro ⟨head, _⟩
        cases head
    obtain ⟨back, front⟩ := drop_blank_append more bodySome
    have head : (rest.dropWhile isSpace ++ more).head? = (rest.dropWhile isSpace).head? := by
      cases body : rest.dropWhile isSpace with
      | nil => exact absurd body bodySome
      | cons c tail => rfl
    have same : (if (rest.dropWhile isSpace ++ more).head? = some ',' ∧
          2 ≤ (rest.takeWhile isSpace).length then
          (rest.takeWhile isSpace).getLast?.toList ++ (rest.dropWhile isSpace ++ more)
        else rest.dropWhile isSpace ++ more) =
        (if (rest.dropWhile isSpace).head? = some ',' ∧ 2 ≤ (rest.takeWhile isSpace).length then
          (rest.takeWhile isSpace).getLast?.toList ++ rest.dropWhile isSpace
        else rest.dropWhile isSpace) ++ more := by
      rw [head]
      split_ifs
      · rw [List.append_assoc]
      · rfl
    obtain ⟨later, whole⟩ := split_once_prefix (List.prefix_append _ more) split
    refine ⟨later, ?_⟩
    rw [keyedEntry, List.append_assoc, behind_tag_append]
    dsimp only [Option.bind_eq_bind, Option.bind_some]
    rw [back, front, same, whole]
    exact if_pos ⟨blankSome, keySome, List.append_ne_nil_of_left_ne_nil valueSome _⟩
  · rw [keyed_entry_none begins] at entry
    cases entry

/-- No count in the line has more than 20 digits. -/
def ShortMeasures (line : Text) : Prop :=
  ∀ tag ∈ keyTags, ∀ key value, keyedEntry tag line = some (key, value) →
    key ∈ measuredKeys → value.length ≤ 20

theorem ShortMeasures.cut {cut line : Text} (short : ShortMeasures line) (reads : cut <+: line) :
    ShortMeasures cut := by
  intro tag member key value entry measured
  obtain ⟨rest, whole⟩ := keyed_entry_prefix reads entry
  have length := short tag member key (value ++ rest) whole measured
  rw [List.length_append] at length
  omega

theorem short_entries {line : Text} {entries : List (Text × Text)} (short : ShortMeasures line)
    (read : readEntry line = .fields entries) :
    ∀ entry ∈ entries, entry.1 ∈ measuredKeys → entry.2.length ≤ 20 := by
  have other {key : Text} (unmeasured : key ∉ measuredKeys) (value : Text) :
      (key, value).1 ∈ measuredKeys → (key, value).2.length ≤ 20 :=
    fun measured => absurd measured unmeasured
  unfold readEntry at read
  split_ifs at read
  split at read
  · next pair found =>
      cases read
      obtain ⟨tag, member, entry⟩ := List.exists_of_findSome?_eq_some found
      intro other only
      rw [List.mem_singleton.mp only]
      exact short tag member pair.1 pair.2 entry
  · split at read
    · cases read
    · split at read
      · cases read
        exact List.forall_mem_cons.mpr ⟨other (by decide) _, List.forall_mem_singleton.mpr
          (other (by decide) _)⟩
      · split at read
        · cases read
          exact List.forall_mem_cons.mpr ⟨other (by decide) _, List.forall_mem_singleton.mpr
            (other (by decide) _)⟩
        · split at read
          · cases read
            exact List.forall_mem_singleton.mpr (other (by decide) _)
          · cases read
            exact List.forall_mem_nil _

/-! ## Lines of a boot -/

theorem short_untagged {line : Text} (head : line.head? ≠ some '[') : ShortMeasures line := by
  intro label member key value entry
  rw [key_tags_eq] at member
  obtain ⟨tag, _, rfl⟩ := List.mem_map.mp member
  have apart : ¬tag.label.toList <+: line := by
    rintro ⟨rest, rfl⟩
    apply head
    rw [List.head?_append, (label_text tag).opens]
    rfl
  rw [keyed_entry_none apart] at entry
  cases entry

theorem short_unkeyed {tag : Tag} (unkeyed : tag ∉ keyedTags) (fields : List String) :
    ShortMeasures (ConsoleLine.tagged tag fields).text.toList := by
  intro label member key value entry
  rw [key_tags_eq] at member
  obtain ⟨other, known, rfl⟩ := List.mem_map.mp member
  have different : other ≠ tag := by
    rintro rfl
    exact unkeyed known
  rw [keyed_other different] at entry
  cases entry

theorem short_keyed {tag : Tag} {key value : String} (plainKey : PlainField key.toList)
    (plainValue : PlainField value.toList) (short : key.toList ∈ measuredKeys → value.toList.length ≤ 20) :
    ShortMeasures (ConsoleLine.tagged tag [key, value]).text.toList := by
  intro label member name read entry
  rw [key_tags_eq] at member
  obtain ⟨other, _, rfl⟩ := List.mem_map.mp member
  by_cases same : other = tag
  · rw [same, keyed_own plainKey plainValue] at entry
    cases entry
    exact short
  · rw [keyed_other same] at entry
    cases entry

structure Cuttable (line : Text) : Prop where
  plain : PlainLine line
  first : ∃ c, line.head? = some c ∧ isSpace c = false
  short : ShortMeasures line

theorem cuttable_tagged {tag : Tag} {fields : List String} (plain : PlainFields fields)
    (short : ShortMeasures (ConsoleLine.tagged tag fields).text.toList) :
    Cuttable (ConsoleLine.tagged tag fields).text.toList :=
  ⟨tagged_plain plain, ⟨'[', tagged_head, by decide⟩, short⟩

theorem cuttable_untagged {line : Text} (c : Char) (plain : PlainLine line)
    (head : line.head? = some c) (solid : isSpace c = false) (other : c ≠ '[') : Cuttable line :=
  ⟨plain, ⟨c, head, solid⟩, short_untagged fun same => other (Option.some.inj (head.symm.trans same))⟩

theorem wifi_cuttable {line : WifiLine} (plain : line.Plain) : Cuttable line.text.toList := by
  obtain ⟨first, known, head⟩ := wifi_head line
  have solid : ∀ c ∈ "CFIW".toList, isSpace c = false ∧ c ≠ '[' := by decide
  exact cuttable_untagged first (wifi_plain plain) head (solid first known).1 (solid first known).2

theorem ordinary_cuttable {line : ConsoleLine} (ordinary : Ordinary line) :
    Cuttable line.text.toList := by
  have plain := (ordinary_reads ordinary).plain
  cases ordinary with
  | rule => exact cuttable_untagged '=' plain (by decide) (by decide) (by decide)
  | profile profile =>
      have head : ("Profile: " ++ profile.name).toList.head? = some 'P' := by cases profile <;> decide
      exact cuttable_untagged 'P' plain head (by decide) (by decide)
  | @server ip port address =>
      have head : ("Server: " ++ ip ++ ":" ++ toString port).toList.head? = some 'S' := by
        rw [server_text, List.head?_append]
        rfl
      exact cuttable_untagged 'S' plain head (by decide) (by decide)
  | wifi wifi => exact wifi_cuttable wifi
  | keyed keyed plainKey plainValue entry =>
      exact cuttable_tagged (.two plainKey plainValue) (short_keyed plainKey plainValue entry.short)
  | note known fields =>
      rcases known with rfl | rfl <;> exact cuttable_tagged fields (short_unkeyed (by decide) _)
  | error fields other => exact cuttable_tagged fields (short_unkeyed (by decide) _)

theorem ending_cuttable {ending : List ConsoleLine} {ret : Int} (ends : Ending ending ret) :
    ∀ line ∈ ending, Cuttable line.text.toList := by
  have result {fields : List String} (plain : PlainFields fields) :
      Cuttable (ConsoleLine.tagged .tebResult fields).text.toList :=
    cuttable_tagged plain (short_unkeyed (by decide) fields)
  cases ends with
  | unfinished => exact List.forall_mem_nil _
  | seeded => exact List.forall_mem_singleton.mpr (result (.one (by decide)))
  | failed code => exact List.forall_mem_singleton.mpr (result (.two (by decide) (int_field code)))
  | refused code =>
      exact List.forall_mem_cons.mpr ⟨cuttable_tagged (.two (by decide) (int_field code))
        (short_unkeyed (by decide) _), List.forall_mem_singleton.mpr
          (ordinary_cuttable failed_unseeded_ordinary)⟩

/-! ## Logs without overflow -/

/-- Whatever the line sets, the parser can divide. -/
def Divides (raw : Text) : Prop :=
  ∀ entries, readEntry (strip raw) = .fields entries →
    ∀ entry ∈ entries, entry.1 ∈ measuredKeys → entry.2.length ≤ 20

theorem blank_divides : Divides [] := by
  intro entries read
  have silent : readEntry (strip []) = .fields [] := by decide
  rw [silent] at read
  cases read
  exact List.forall_mem_nil _

theorem Cuttable.divides {cut line : Text} (cuttable : Cuttable line) (reads : cut <+: line) :
    Divides cut := by
  obtain ⟨c, head, solid⟩ := cuttable.first
  have filled : line ≠ [] := by
    rintro rfl
    cases head
  have whole : cut <+: line ++ ([] : Text) := by
    rw [List.append_nil]
    exact reads
  have first : ∀ d ∈ line.head?, isSpace d = false := by
    intro d first
    rw [head] at first
    exact Option.some.inj first ▸ solid
  have stripped := strip_prefix whole first filled (List.forall_mem_nil _)
  exact fun entries read => short_entries (cuttable.short.cut stripped) read

theorem measured_read_segment {segment : List Text} (divides : ∀ raw ∈ segment, Divides raw) :
    ∀ {run : BootRun}, Measured run → Measured (readSegment run segment) := by
  have result : "result".toList ∉ measuredKeys := by decide
  induction segment with
  | nil => exact fun {_} measured => measured
  | cons raw rest ih =>
      intro run measured
      have first := divides raw List.mem_cons_self
      have later := @ih fun other member => divides other (List.mem_cons_of_mem raw member)
      rw [readSegment]
      cases read : readEntry (strip raw) with
      | banner => exact measured
      | fields entries => exact later (measured.set_texts (first entries read))
      | result value =>
          exact measured.set_texts (List.forall_mem_singleton.mpr fun known => absurd known result)

theorem numbered_runs_some {segments : List (List Text)}
    (divides : ∀ segment ∈ segments, ∀ raw ∈ segment, Divides raw) :
    ∀ number, ∃ runs, numberedRuns number segments = some runs := by
  induction segments with
  | nil => exact fun number => ⟨[], rfl⟩
  | cons segment rest ih =>
      intro number
      have measured := measured_read_segment (divides segment List.mem_cons_self)
        (measured_start_run number)
      obtain ⟨run, final, _⟩ := finalize_run_some measured
      obtain ⟨runs, later⟩ := ih (fun other member => divides other (List.mem_cons_of_mem segment member))
        (number + 1)
      refine ⟨run :: runs, ?_⟩
      rw [numberedRuns, segmentRun, final, Option.bind_some, later]
      rfl

theorem banner_segments_subset (lines : List Text) :
    ∀ segment ∈ bannerSegments lines, ∀ raw ∈ segment, raw ∈ lines := by
  induction lines with
  | nil => exact List.forall_mem_nil _
  | cons line lines ih =>
      have later : ∀ segment ∈ bannerSegments lines, ∀ raw ∈ segment, raw ∈ line :: lines :=
        fun segment member raw inside => List.mem_cons_of_mem line (ih segment member raw inside)
      rw [bannerSegments]
      split_ifs
      · exact List.forall_mem_cons.mpr
          ⟨fun raw inside => List.mem_cons_of_mem line ((List.takeWhile_subset _) inside), later⟩
      · exact later

theorem parse_lines_some {lines : List Text} (divides : ∀ raw ∈ lines, Divides raw) :
    ∃ runs, parseLines lines = some runs := by
  rw [parse_lines_eq]
  exact numbered_runs_some (fun segment member raw inside =>
    divides raw (banner_segments_subset lines segment member raw inside)) 1

/-! ## Sequences of boots -/

/-- What one boot printed before it stopped, or was stopped. -/
structure BootOutput (ending : Text) where
  profile : Profile
  env : Environment profile
  retained : RetainedCounter
  plain : env.Plain
  text : Text
  cut : text <+: consoleText ending (clientMain env retained).1.console

section Boots

variable {ending : Text} (ends : LineEnd ending)
include ends

theorem output_divides (boot : BootOutput ending) {before : Text}
    (divides : ∀ raw ∈ splitLines before, Divides raw) :
    ∀ raw ∈ splitLines (before ++ boot.text), Divides raw := by
  obtain ⟨front, last, console, ordinary, finish⟩ := boot_console boot.plain boot.retained
  have cuttable : ∀ line ∈ "========================================".toList :: bannerText ::
      lineTexts (front ++ last), Cuttable line := by
    have body : ∀ line ∈ lineTexts (front ++ last), Cuttable line := by
      rw [line_texts_append]
      refine List.forall_mem_append.mpr ⟨?_, ?_⟩
      · exact List.forall_mem_map.mpr fun line known => ordinary_cuttable (ordinary line known)
      · exact List.forall_mem_map.mpr fun line known => ending_cuttable finish line known
    have rule : Cuttable "========================================".toList :=
      cuttable_untagged '=' (by decide) (by decide) (by decide) (by decide)
    have banner : Cuttable bannerText :=
      cuttable_untagged 'A' (by decide) (by decide) (by decide) (by decide)
    exact List.forall_mem_cons.mpr ⟨rule, List.forall_mem_cons.mpr ⟨banner, body⟩⟩
  have text : consoleText ending (clientMain boot.env boot.retained).1.console =
      ending ++ joinLines ending ("========================================".toList :: bannerText ::
        lineTexts (front ++ last)) := by
    rw [console, consoleText, line_texts_append]
    rfl
  have reads := boot.cut
  rw [text] at reads
  rcases prefix_of_append reads with inEnd | ⟨rest, shape, behind⟩
  · obtain ⟨blank, empty, split⟩ := split_cut_end ends inEnd before
    rw [split]
    exact List.forall_mem_append.mpr ⟨divides, fun raw none => (empty raw none).symm ▸ blank_divides⟩
  · obtain ⟨blank, empty, split⟩ := split_lines_feed ends before rest
    rw [shape, split]
    refine List.forall_mem_append.mpr ⟨List.forall_mem_append.mpr ⟨divides,
      fun raw none => (empty raw none).symm ▸ blank_divides⟩, fun raw member => ?_⟩
    rcases split_cut_lines (fun line known => (cuttable line known).plain) ends behind raw member with
      none | ⟨line, known, inside⟩
    · exact none ▸ blank_divides
    · exact (cuttable line known).divides inside

theorem parse_outputs_some (boots : List (BootOutput ending)) :
    ∃ runs, parseLog (boots.flatMap BootOutput.text) = some runs := by
  have go (before : Text) (divides : ∀ raw ∈ splitLines before, Divides raw) :
      ∀ raw ∈ splitLines (before ++ boots.flatMap BootOutput.text), Divides raw := by
    induction boots generalizing before with
    | nil =>
        rw [List.flatMap_nil, List.append_nil]
        exact divides
    | cons boot boots ih =>
        rw [List.flatMap_cons, ← List.append_assoc]
        exact ih _ (output_divides ends boot divides)
  exact parse_lines_some (go [] (List.forall_mem_nil _))

end Boots

/-! ## Isolation of the runs -/

/-- The runs of a log are those of its parts, renumbered. There is one for each banner, and
its fields are those of its own segment. Boots that stop anywhere are parsed, and a seeded
boot shows the last value of each key. -/
theorem boot_log_isolated :
    (∀ first second : Text, WholeLines first → BeginsWithBanner second →
      parseLog (first ++ second) =
        (parseLog first).bind fun runs =>
          (parseLog second).map fun more => runs ++ more.map (BootRun.shift runs.length)) ∧
    (∀ (text : Text) (runs : List BootRun), parseLog text = some runs →
      runs.length = ((splitLines text).filter isBanner).length ∧
        ∀ index, runs[index]? =
          (bannerSegments (splitLines text))[index]?.bind (segmentRun (index + 1))) ∧
    (∀ ending, LineEnd ending → ∀ boots : List (BootOutput ending),
      ∃ runs, parseLog (boots.flatMap BootOutput.text) = some runs) ∧
    ∀ (profile : Profile) (env : Environment profile) (retained : RetainedCounter),
      env.Plain → (clientMain env retained).2 = 0 → ∀ ending, LineEnd ending →
        ∀ before after : Text, ∃ run : Nat → BootRun,
          (∀ number, ShowsLast (clientMain env retained).1.console number (run number)) ∧
          parseLog (before ++ (consoleText ending (clientMain env retained).1.console ++ after)) =
            (parseLog before).bind fun runs =>
              (numberedRuns (runs.length + 2) (bannerSegments (splitLines after))).map fun more =>
                runs ++ run (runs.length + 1) :: more := by
  refine ⟨fun first second whole begins => parse_log_append whole begins,
    fun text runs parsed => ?_, fun ending ends boots => parse_outputs_some ends boots,
    fun profile env retained plain seeded ending ends before after =>
      parse_seeded_boot plain retained seeded ends before after⟩
  rw [parse_log_eq] at parsed
  obtain ⟨length, runsAt⟩ := numbered_runs_get parsed
  refine ⟨length.trans (banner_segments_length _), fun index => ?_⟩
  rw [runsAt, Nat.add_comm 1 index]

def firstCapsule : Block Profile.devEd25519PufBeacon.capsuleLen :=
  ⟨[0x54, 0x45, 0x42, 0x43, 1, 1, 0, 96] ++ List.replicate 11 0 ++ [1] ++ List.replicate 140 0,
    by decide +kernel⟩

def calmEnvironment : Environment .devEd25519PufBeacon :=
  { collidingEnvironment with
    recv := plainSocketCall 160
    capsule := firstCapsule
    wifiLines := [.connected]
    ipv4Lines := [.ipv4Ready "192.168.1.50" "192.168.1.1"] }

theorem calm_environment_plain : calmEnvironment.Plain where
  server := by decide
  wifi := List.forall_mem_singleton.mpr trivial
  dhcp := List.forall_mem_nil _
  ipv4 := List.forall_mem_singleton.mpr ⟨⟨by decide, by decide⟩, ⟨by decide, by decide⟩⟩

theorem calm_boot_seeded : (clientMain calmEnvironment ⟨0, 0, 0⟩).2 = 0 := by
  decide +kernel

/-- A banner behind one line, and a seeded boot behind a cut one. -/
theorem boot_log_isolated_calm :
    (parseLog ("[TEB_POOL] hw_bytes,0\n".toList ++ (bannerText ++ ['\n'])) =
      (parseLog "[TEB_POOL] hw_bytes,0\n".toList).bind fun runs =>
        (parseLog (bannerText ++ ['\n'])).map fun more =>
          runs ++ more.map (BootRun.shift runs.length)) ∧
    ∃ run : Nat → BootRun,
      (∀ number, ShowsLast (clientMain calmEnvironment ⟨0, 0, 0⟩).1.console number (run number)) ∧
      parseLog ("[TEB_RESULT] see".toList ++
          (consoleText ['\n'] (clientMain calmEnvironment ⟨0, 0, 0⟩).1.console ++ [])) =
        (parseLog "[TEB_RESULT] see".toList).bind fun runs =>
          (numberedRuns (runs.length + 2) (bannerSegments (splitLines []))).map fun more =>
            runs ++ run (runs.length + 1) :: more :=
  ⟨boot_log_isolated.1 _ _ (by decide) (by decide),
    boot_log_isolated.2.2.2 _ calmEnvironment ⟨0, 0, 0⟩ calm_environment_plain calm_boot_seeded _
      (.inl rfl) _ _⟩

end BootEntropy.Capsule
