import Mathlib.Algebra.Order.BigOperators.Group.List
import BootEntropy.Aeb.HexSummary
import BootEntropy.Aeb.Steps

/-!
# The result line

What `run_trial` formats into `result_line`, and the two parsers that read it: the
collector reads the datagram, `parse_aeb_log` the line on the console.
-/

namespace BootEntropy.Aeb

open BootEntropy.Lib

set_option autoImplicit false

/-! ## Firmware -/

structure TrialResult extends ResultFields where
  trialId : UInt32
  sampleBytes : UInt32

/-- The loop of `bytes_to_hex` with `pos` characters written. -/
def bytesToHexFrom (outLen : Nat) : Nat → Bytes → Text
  | _, [] => []
  | pos, byte :: rest =>
      if pos + 2 < outLen then
        hexDigit (byte.toNat / 16) :: hexDigit (byte.toNat % 16) ::
          bytesToHexFrom outLen (pos + 2) rest
      else []

def bytesToHex (bytes : Bytes) (outLen : Nat) : Text :=
  if outLen = 0 then [] else bytesToHexFrom outLen 0 bytes

inductive Printed where
  | number (value : UInt32)
  | count (value : UInt64)
  | digest {size : Nat} (block : Block size)
  | condition (idle : Bool)

def Printed.text : Printed → Text
  | .number value => decimal value.toNat
  | .count value => decimal value.toNat
  | @Printed.digest size block => bytesToHex block.val (size * 2 + 1)
  | .condition idle => if idle then "idle".toList else "burst".toList

def TrialResult.values (result : TrialResult) : List (String × Printed) :=
  [("trial", .number result.trialId), ("condition", .condition result.idle),
    ("nonce", .digest result.nonce), ("sample_bytes", .number result.sampleBytes),
    ("packets_expected", .number result.packetsExpected),
    ("packets_seen", .number result.packetsSeen), ("interval_us", .number result.intervalUs),
    ("sample_us", .number result.sampleUs), ("ones", .count result.ones),
    ("transitions", .count result.transitions), ("jitter_min_us", .number result.jitterMinUs),
    ("jitter_mean_us", .number result.jitterMeanUs),
    ("jitter_max_us", .number result.jitterMaxUs), ("raw_sha256", .digest result.rawSha256),
    ("jitter_sha256", .digest result.jitterSha256),
    ("response_sha256", .digest result.responseSha256), ("seed_sha256", .digest result.seedSha256)]

def TrialResult.entries (result : TrialResult) : List (Text × Text) :=
  result.values.map fun value => (value.1.toList, value.2.text)

def resultLineSize : Nat := 768

/-- The characters of a string that `snprintf` writes in front of the final NUL. -/
def snprintf (size : Nat) (text : Text) : Text := text.take (size - 1)

def TrialResult.formatted (result : TrialResult) : Text :=
  resultLineTag ++ (entriesText result.entries ++ ['\n'])

def TrialResult.line (result : TrialResult) : Text := snprintf resultLineSize result.formatted

/-! ## Values -/

theorem bytes_to_hex_from_whole {outLen : Nat} (bytes : Bytes) :
    ∀ pos, pos + 2 * bytes.length < outLen → bytesToHexFrom outLen pos bytes = hexText bytes := by
  induction bytes with
  | nil => exact fun _ _ => rfl
  | cons byte rest ih =>
      intro pos room
      rw [List.length_cons] at room
      rw [bytesToHexFrom, if_pos (by omega), ih (pos + 2) (by omega)]
      rfl

theorem bytes_to_hex_block {size : Nat} (block : Block size) :
    bytesToHex block.val (size * 2 + 1) = hexText block.val := by
  have length := block.property
  rw [bytesToHex, if_neg (by omega)]
  exact bytes_to_hex_from_whole block.val 0 (by omega)

def Printed.width : Printed → Nat
  | .number _ => 10
  | .count _ => 20
  | @Printed.digest size _ => 2 * size
  | .condition _ => 5

theorem Printed.text_length_le (value : Printed) : value.text.length ≤ value.width := by
  cases value with
  | number value =>
      have fits : value.toNat < 10 ^ 10 := value.toNat_lt.trans (by decide)
      rw [text, width]
      exact (Nat.length_toDigits_le_iff (by decide) (by decide)).mpr fits
  | count value =>
      have fits : value.toNat < 10 ^ 20 := value.toNat_lt.trans (by decide)
      rw [text, width]
      exact (Nat.length_toDigits_le_iff (by decide) (by decide)).mpr fits
  | digest block =>
      rw [text, bytes_to_hex_block, hex_text_length, block.property, width]
  | condition idle => cases idle <;> decide

theorem Printed.text_printed (value : Printed) : ∀ c ∈ value.text, PrintedChar c := by
  cases value with
  | number value => exact decimal_printed _
  | count value => exact decimal_printed _
  | digest block =>
      rw [text, bytes_to_hex_block]
      exact hex_text_printed _
  | condition idle => cases idle <;> decide

theorem decimal_ascii (value : Nat) : ∀ c ∈ decimal value, c.toNat < 0x80 :=
  @forall_mem_to_digits 10 (by decide) (fun c => c.toNat < 0x80) (by decide) value

theorem hex_text_ascii (bytes : Bytes) : ∀ c ∈ hexText bytes, c.toNat < 0x80 :=
  @forall_mem_hex_text (fun c => c.toNat < 0x80) (by decide) bytes

theorem Printed.text_ascii (value : Printed) : ∀ c ∈ value.text, c.toNat < 0x80 := by
  cases value with
  | number value => exact decimal_ascii _
  | count value => exact decimal_ascii _
  | digest block =>
      rw [text, bytes_to_hex_block]
      exact hex_text_ascii _
  | condition idle => cases idle <;> decide

/-! ## Names -/

section Line

variable (result : TrialResult)

def resultNames : List Text :=
  ["trial".toList, "condition".toList, "nonce".toList, "sample_bytes".toList,
    "packets_expected".toList, "packets_seen".toList, "interval_us".toList, "sample_us".toList,
    "ones".toList, "transitions".toList, "jitter_min_us".toList, "jitter_mean_us".toList,
    "jitter_max_us".toList, "raw_sha256".toList, "jitter_sha256".toList,
    "response_sha256".toList, "seed_sha256".toList]

theorem result_names : result.entries.map Prod.fst = resultNames := by
  rw [TrialResult.entries, List.map_map]
  simp only [TrialResult.values, List.map_cons, List.map_nil, Function.comp_apply, resultNames]

theorem result_names_nodup : resultNames.Nodup := by decide +kernel

theorem name_printed {name : Text} (member : name ∈ resultNames) :
    ∀ c ∈ name, (PrintedChar c ∧ c ≠ '=') ∧ c.toNat < 0x80 := by
  revert name
  decide +kernel

theorem mem_result_entries {entry : Text × Text} (member : entry ∈ result.entries) :
    entry.1 ∈ resultNames ∧ ∃ value : Printed, entry.2 = value.text := by
  have name := List.mem_map_of_mem (f := Prod.fst) member
  rw [result_names] at name
  obtain ⟨value, _, rfl⟩ := List.mem_map.mp member
  exact ⟨name, value.2, rfl⟩

theorem trial_entries_printed : ∀ entry ∈ result.entries, PrintedEntry entry := by
  intro entry member
  obtain ⟨name, value, text⟩ := mem_result_entries result member
  constructor
  · exact fun c inside => (name_printed name c inside).1
  · rw [text]
    exact value.text_printed

theorem entries_ascii : ∀ c ∈ entriesText result.entries, c.toNat < 0x80 := by
  intro c member
  obtain ⟨entry, known, inside⟩ := List.mem_flatMap.mp member
  obtain ⟨name, value, text⟩ := mem_result_entries result known
  rcases List.mem_cons.mp inside with rfl | inside
  · decide
  rcases List.mem_append.mp inside with key | inside
  · exact (name_printed name c key).2
  rcases List.mem_cons.mp inside with rfl | inside
  · decide
  · rw [text] at inside
    exact value.text_ascii c inside

/-! ## Length -/

/-- The longest values of all fields at once leave more than a hundred bytes. -/
theorem formatted_length_le : result.formatted.length ≤ 653 := by
  have each (value : String × Printed) :
      value.1.toList.length + value.2.text.length + 2 ≤
        value.1.toList.length + value.2.width + 2 := by
    have short := value.2.text_length_le
    omega
  have entries : (entriesText result.entries).length ≤
      (result.values.map fun value => value.1.toList.length + value.2.width + 2).sum := by
    rw [entries_text_length, TrialResult.entries, List.map_map]
    apply List.sum_le_sum
    exact fun value _ => each value
  have widths : (result.values.map fun value =>
      value.1.toList.length + value.2.width + 2).sum = 640 := by
    simp only [TrialResult.values, List.map_cons, List.map_nil, Printed.width, List.sum_cons,
      List.sum_nil, String.length_toList]
    rfl
  rw [TrialResult.formatted, List.length_append, List.length_append, List.length_singleton]
  have tag : resultLineTag.length = 12 := rfl
  omega

theorem line_eq_formatted : result.line = result.formatted := by
  have short := formatted_length_le result
  rw [TrialResult.line, snprintf]
  apply List.take_of_length_le
  rw [resultLineSize]
  omega

theorem tag_ascii : ∀ c ∈ resultLineTag, c.toNat < 0x80 := by decide

theorem line_ascii : ∀ c ∈ result.line, c.toNat < 0x80 := by
  intro c member
  rw [line_eq_formatted, TrialResult.formatted] at member
  rcases List.mem_append.mp member with tag | member
  · exact tag_ascii c tag
  rcases List.mem_append.mp member with entry | newline
  · exact entries_ascii result c entry
  · rw [List.mem_singleton.mp newline]
    decide

/-! ## Parsers -/

theorem lookup_entries_text (key : Text) :
    (ofEntries result.entries).lookup key = result.entries.lookup key :=
  lookup_of_entries ((result_names result).symm ▸ result_names_nodup) key

/-- The tag is a word without an `=`, so the tokens behind it make the dictionary. -/
theorem line_words :
    splitWords (resultLineTag ++ (entriesText result.entries ++ ['\n'])) =
      resultLineTag :: result.entries.map entryToken := by
  have plain : ∀ entry ∈ result.entries, PlainEntry rstripComma entry :=
    fun entry member => (trial_entries_printed result entry member).plain
  have tokens := @split_entries_text rstripComma result.entries plain ['\n'] (by decide)
  rw [split_words_strip] at tokens
  cases entries : result.entries with
  | nil => exact absurd entries (List.cons_ne_nil _ _)
  | cons entry rest =>
      have behind : entriesText (entry :: rest) ++ ['\n'] =
          ' ' :: (entryToken entry ++ (entriesText rest ++ ['\n'])) := by
        rw [entriesText, List.flatMap_cons, List.cons_append, List.cons_append, List.append_assoc,
          ← entriesText]
      have blank (text : Text) : splitWords (' ' :: text) = splitWords text :=
        split_words_space [] text (by decide)
      rw [entries, behind, blank] at tokens
      rw [behind, split_words_cons (by decide), tokens]

theorem parse_kv_line_eq : parseKvLine result.line = ofEntries result.entries := by
  have plain : ∀ entry ∈ result.entries, PlainEntry rstripComma entry :=
    fun entry member => (trial_entries_printed result entry member).plain
  have untagged : splitOnce '=' resultLineTag = none := split_once_plain (by decide)
  rw [line_eq_formatted, TrialResult.formatted, parseKvLine, split_words_strip, line_words,
    ← key_values_tokens plain, keyValues, List.foldl_cons, untagged]
  rfl

theorem parse_log_line_eq (log : ParsedLog) :
    parseLogLine log result.line = { log with rows := log.rows ++ [ofEntries result.entries] } := by
  rw [line_eq_formatted, TrialResult.formatted, parseLogLine, behind_own_tag]
  dsimp only
  rw [parse_kv_entries (trial_entries_printed result)]

theorem parse_result_line_eq :
    parseResultLine (textBytes result.line) = some (ofEntries result.entries) := by
  have plain : ∀ entry ∈ result.entries, PlainEntry id entry := by
    intro entry member
    have printed := (trial_entries_printed result entry member).plain
    exact ⟨printed.key, printed.keySolid, printed.valueSolid, rfl⟩
  have begins : resultTag <+: strip (resultLineTag ++ (entriesText result.entries ++ ['\n'])) :=
    word_prefix_strip (by decide) _
  rw [parseResultLine, decode_utf8_text_bytes (line_ascii result), line_eq_formatted,
    TrialResult.formatted, if_pos begins, split_words_strip, line_words, List.tail_cons,
    ← key_values_tokens plain]
  rfl

end Line

/-! ## Dumped trials -/

def DumpedTrial.result (trial : DumpedTrial) (raw : Bytes) : TrialResult :=
  { trial.fields raw with trialId := trial.number, sampleBytes := UInt32.ofNat trial.size }

theorem dumped_result_entries (trial : DumpedTrial) (raw : Bytes) :
    (trial.result raw).entries = resultEntries trial raw := by
  have size : (UInt32.ofNat trial.size).toNat = trial.size := by
    have fits := trial.sizeFits
    rw [UInt32.toNat_ofNat']
    omega
  simp only [TrialResult.entries, TrialResult.values, List.map_cons, List.map_nil, Printed.text,
    bytes_to_hex_block, resultEntries, DumpedTrial.result, size]

theorem render_result_line {ι : Type} {trials : ι → DumpedTrial} (raw : Windows trials)
    (trial : ι) :
    (LogLine.result trial).render raw = ((trials trial).result (raw trial).val).line := by
  rw [render_result, line_eq_formatted, TrialResult.formatted, dumped_result_entries]

/-! ## Both ends -/

/-- Every result line is whole, both parsers read the same dictionary from it, and no
datagram is a result line and a message. -/
theorem result_line_intact :
    (∀ result : TrialResult,
      result.formatted.length < resultLineSize ∧ result.line = result.formatted ∧
      result.entries.map Prod.fst = resultNames ∧ resultNames.Nodup ∧ resultNames.length = 17 ∧
      (∃ fields, parseResultLine (textBytes result.line) = some fields ∧
        ∀ key, fields.lookup key = result.entries.lookup key) ∧
      (∀ key, (parseKvLine result.line).lookup key = result.entries.lookup key) ∧
      ∀ log, ∃ row, parseLogLine log result.line = { log with rows := log.rows ++ [row] } ∧
        ∀ key, row.lookup key = result.entries.lookup key) ∧
    ∀ data, parseResultLine data = none ∨ parseMessage data = none := by
  constructor
  · intro result
    have short := formatted_length_le result
    refine ⟨?_, line_eq_formatted result, result_names result, result_names_nodup, rfl, ?_, ?_, ?_⟩
    · rw [resultLineSize]
      omega
    · exact ⟨_, parse_result_line_eq result, lookup_entries_text result⟩
    · intro key
      rw [parse_kv_line_eq]
      exact lookup_entries_text result key
    · exact fun log => ⟨_, parse_log_line_eq result log, lookup_entries_text result⟩
  · intro data
    cases parsed : parseMessage data with
    | none => exact Or.inr rfl
    | some msg => exact Or.inl (parse_result_line_of_message parsed)

end BootEntropy.Aeb
