import BootEntropy.Aeb.HexLog

/-!
# What the raw summary is made of

`parse_log` keys chunks by trial number and offset and gives every result line the
window of its number. The windows are those of different trials exactly when each
counted number has one result line and the chunk lines of one whole dump.
-/

namespace BootEntropy.Aeb

open BootEntropy.Lib

set_option autoImplicit false

/-! ## One line -/

theorem printed_value {key : String} (printed : ∀ c ∈ key.toList, PrintedChar c ∧ c ≠ '=')
    {value : Text} (valuePrinted : ∀ c ∈ value, PrintedChar c) : PrintedEntry (key.toList, value) :=
  ⟨printed, valuePrinted⟩

theorem printed_number {key : String} (printed : ∀ c ∈ key.toList, PrintedChar c ∧ c ≠ '=')
    (value : Nat) : PrintedEntry (key.toList, decimal value) :=
  printed_value printed (decimal_printed value)

theorem printed_bytes {key : String} (printed : ∀ c ∈ key.toList, PrintedChar c ∧ c ≠ '=')
    (bytes : Bytes) : PrintedEntry (key.toList, hexText bytes) :=
  printed_value printed (hex_text_printed bytes)

theorem result_entries_printed (trial : DumpedTrial) (raw : Bytes) :
    ∀ entry ∈ resultEntries trial raw, PrintedEntry entry := by
  have condition : ∀ c ∈ (if (trial.fields raw).idle then "idle".toList else "burst".toList),
      PrintedChar c := by
    cases (trial.fields raw).idle with
    | true => decide
    | false => decide
  intro entry member
  simp only [resultEntries, List.mem_cons, List.not_mem_nil, or_false] at member
  rcases member with rfl | rfl | rfl | rfl | rfl | rfl | rfl | rfl | rfl | rfl | rfl | rfl | rfl |
    rfl | rfl | rfl | rfl
  · exact printed_number (by decide) _
  · exact printed_value (by decide) condition
  · exact printed_bytes (by decide) _
  · exact printed_number (by decide) _
  · exact printed_number (by decide) _
  · exact printed_number (by decide) _
  · exact printed_number (by decide) _
  · exact printed_number (by decide) _
  · exact printed_number (by decide) _
  · exact printed_number (by decide) _
  · exact printed_number (by decide) _
  · exact printed_number (by decide) _
  · exact printed_number (by decide) _
  · exact printed_bytes (by decide) _
  · exact printed_bytes (by decide) _
  · exact printed_bytes (by decide) _
  · exact printed_bytes (by decide) _

theorem chunk_entries_printed (trial : DumpedTrial) (raw : Bytes) (index : Nat) :
    ∀ entry ∈ chunkEntries trial raw index, PrintedEntry entry := by
  intro entry member
  simp only [chunkEntries, List.mem_cons, List.not_mem_nil, or_false] at member
  rcases member with rfl | rfl | rfl
  · exact printed_number (by decide) _
  · exact printed_number (by decide) _
  · exact printed_bytes (by decide) _

section Lines

variable {ι : Type} {trials : ι → DumpedTrial} (raw : Windows trials)

def resultRow (trial : ι) : Entries := ofEntries (resultEntries (trials trial) (raw trial).val)

def chunkWrite (place : UInt32 × Nat) (trial : ι) : (Int × Int) × Text :=
  (((place.1.toNat : Int), ((place.2 * hexLineBytes : Nat) : Int)),
    hexText (chunk hexLineBytes (raw trial).val place.2))

theorem render_result (trial : ι) :
    (LogLine.result trial).render raw = resultLineTag ++
      (entriesText (resultEntries (trials trial) (raw trial).val) ++ ['\n']) :=
  List.append_assoc ..

theorem parse_result (log : ParsedLog) (trial : ι) :
    parseLogLine log ((LogLine.result trial).render raw) =
      { log with rows := log.rows ++ [resultRow raw trial] } := by
  have printed := result_entries_printed (trials trial) (raw trial).val
  rw [render_result, parseLogLine, behind_own_tag]
  dsimp only
  rw [parse_kv_entries printed]
  rfl

theorem render_chunk (trial : ι) (index : Nat) :
    (LogLine.rawChunk trial index).render raw = rawHexChunkTag ++
      (entriesText (chunkEntries (trials trial) (raw trial).val index) ++ ['\n']) :=
  List.append_assoc ..

theorem chunk_fields_entries (trial : ι) {index : Nat} (inside : index < hexLineCount (trials trial)) :
    chunkFields (ofEntries (chunkEntries (trials trial) (raw trial).val index)) =
      some (chunkWrite raw ((trials trial).number, index) trial) := by
  have number := (trials trial).number.toNat_lt
  have sizeFits := (trials trial).sizeFits
  have start : index * hexLineBytes < (trials trial).size := chunk_start_lt (by decide) inside
  have trialField : (ofEntries (chunkEntries (trials trial) (raw trial).val index)).lookup
      "trial".toList = some (decimal (trials trial).number.toNat) :=
    lookup_entries [] (by simp)
  have offsetField : (ofEntries (chunkEntries (trials trial) (raw trial).val index)).lookup
      "offset".toList = some (decimal (index * hexLineBytes)) :=
    lookup_entries [_] (by simp)
  have hexField : (ofEntries (chunkEntries (trials trial) (raw trial).val index)).lookup
      "hex".toList = some (hexText (chunk hexLineBytes (raw trial).val index)) :=
    lookup_entries [_, _] (by simp)
  rw [chunkFields, trialField, offsetField, hexField]
  rw [Option.bind_some, Option.bind_some, parse_int_decimal (decimal_short (by omega)),
    parse_int_decimal (decimal_short (by omega))]
  rfl

theorem parse_chunk (log : ParsedLog) (trial : ι) {index : Nat}
    (inside : index < hexLineCount (trials trial)) :
    parseLogLine log ((LogLine.rawChunk trial index).render raw) =
      { log with rawChunks :=
          log.rawChunks.write (chunkWrite raw ((trials trial).number, index) trial) } := by
  have printed := chunk_entries_printed (trials trial) (raw trial).val index
  have noResult : behindTag resultLineTag (rawHexChunkTag ++
      (entriesText (chunkEntries (trials trial) (raw trial).val index) ++ ['\n'])) = none :=
    behind_other_tag (by decide) (by decide) (by decide) (no_bracket_in_entries printed)
  rw [render_chunk, parseLogLine, noResult]
  dsimp only
  rw [behind_own_tag]
  dsimp only
  rw [parse_kv_entries printed, chunk_fields_entries raw trial inside]

theorem parse_untagged {line : Text} (noResult : behindTag resultLineTag line = none)
    (noChunk : behindTag rawHexChunkTag line = none) (log : ParsedLog) :
    parseLogLine log line = log := by
  rw [parseLogLine, noResult]
  dsimp only
  rw [noChunk]

theorem parse_begin (log : ParsedLog) (trial : ι) :
    parseLogLine log ((LogLine.rawBegin trial).render raw) = log := by
  have printed : ∀ entry ∈ [("trial".toList, decimal (trials trial).number.toNat),
      ("bytes".toList, decimal (trials trial).size)], PrintedEntry entry := by
    intro entry member
    simp only [List.mem_cons, List.not_mem_nil, or_false] at member
    rcases member with rfl | rfl
    · exact printed_number (by decide) _
    · exact printed_number (by decide) _
  have plain := no_bracket_in_entries printed
  have line : (LogLine.rawBegin trial).render raw = rawHexBeginTag ++ (_ ++ ['\n']) :=
    List.append_assoc ..
  rw [line]
  exact parse_untagged (behind_other_tag (by decide) (by decide) (by decide) plain)
    (behind_other_tag (by decide) (by decide) (by decide) plain) log

theorem parse_end (log : ParsedLog) (trial : ι) :
    parseLogLine log ((LogLine.rawEnd trial).render raw) = log := by
  have printed : ∀ entry ∈ [("trial".toList, decimal (trials trial).number.toNat)],
      PrintedEntry entry := by
    intro entry member
    rw [List.mem_singleton.mp member]
    exact printed_number (by decide) _
  have plain := no_bracket_in_entries printed
  have line : (LogLine.rawEnd trial).render raw = rawHexEndTag ++ (_ ++ ['\n']) :=
    List.append_assoc ..
  rw [line]
  exact parse_untagged (behind_other_tag (by decide) (by decide) (by decide) plain)
    (behind_other_tag (by decide) (by decide) (by decide) plain) log

theorem parse_other (log : ParsedLog) {text : Text} (untagged : Untagged text) :
    parseLogLine log (LogLine.render raw (.other text untagged)) = log := by
  apply parse_untagged
  · show behindTag resultLineTag text = none
    rw [behindTag, untagged.1]
    rfl
  · show behindTag rawHexChunkTag text = none
    rw [behindTag, untagged.2]
    rfl

end Lines

/-! ## The whole log -/

def LogLine.shown {ι : Type} : LogLine ι → Option ι
  | .result trial => some trial
  | _ => none

def LogLine.written {ι : Type} (trials : ι → DumpedTrial) : LogLine ι → Option ((UInt32 × Nat) × ι)
  | .rawChunk trial index => some (((trials trial).number, index), trial)
  | _ => none

section Log

variable {ι : Type} (trials : ι → DumpedTrial) (log : List (LogLine ι))

def shownTrials (log : List (LogLine ι)) : List ι := log.filterMap LogLine.shown

def chunkWrites : List ((UInt32 × Nat) × ι) := log.filterMap (LogLine.written trials)

/-- The trial whose chunk line counts for a number and an index: the last one. -/
def chunkOf (number : UInt32) (index : Nat) : Option ι :=
  lastWrite (chunkWrites trials log) (number, index)

def Known (number : UInt32) : Prop := ∃ write ∈ chunkWrites trials log, write.1.1 = number

instance (number : UInt32) : Decidable (Known trials log number) :=
  inferInstanceAs (Decidable (∃ write ∈ chunkWrites trials log, write.1.1 = number))

/-- The numbers of the result lines that get a window. -/
def countedNumbers : List UInt32 :=
  ((shownTrials log).map fun trial => (trials trial).number).filter (Known trials log)

/-- Every chunk line is one of its trial's dump. -/
def Inside : Prop := ∀ trial index, LogLine.rawChunk trial index ∈ log →
  index < hexLineCount (trials trial)

end Log

section Parsed

variable {ι : Type} {trials : ι → DumpedTrial} {log : List (LogLine ι)} (raw : Windows trials)

theorem parse_log_from (inside : Inside trials log) : ∀ state : ParsedLog,
    (log.map (LogLine.render raw)).foldl parseLogLine state =
      ⟨state.rows ++ (shownTrials log).map (resultRow raw),
        ((chunkWrites trials log).map fun write => chunkWrite raw write.1 write.2).foldl Nested.write
          state.rawChunks⟩ := by
  induction log with
  | nil =>
      intro state
      show state = ⟨state.rows ++ [], state.rawChunks⟩
      rw [List.append_nil]
  | cons line log ih =>
      intro state
      have rest := ih fun trial index member => inside trial index (List.mem_cons_of_mem line member)
      rw [List.map_cons, List.foldl_cons, rest]
      cases line with
      | result trial =>
          rw [parse_result, List.append_assoc]
          rfl
      | rawChunk trial index =>
          rw [parse_chunk raw state trial (inside trial index (List.mem_cons_self ..))]
          rfl
      | rawBegin trial =>
          rw [parse_begin]
          rfl
      | rawEnd trial =>
          rw [parse_end]
          rfl
      | other text untagged =>
          rw [parse_other]
          rfl

theorem parse_log_eq (inside : Inside trials log) :
    parseLog (log.map (LogLine.render raw)) =
      ⟨(shownTrials log).map (resultRow raw),
        nest ((chunkWrites trials log).map fun write => chunkWrite raw write.1 write.2)⟩ :=
  parse_log_from raw inside ⟨[], ∅⟩

/-- What is joined for a number from the lines up to an index. -/
def joinedWindow (log : List (LogLine ι)) (count : Nat) (number : UInt32) : Bytes :=
  (List.range count).flatMap fun index =>
    ((chunkOf trials log number index).map fun trial =>
      chunk hexLineBytes (raw trial).val index).getD []

def chunkPlace (place : UInt32 × Nat) : Int × Int :=
  ((place.1.toNat : Int), ((place.2 * hexLineBytes : Nat) : Int))

theorem chunk_place_injective : Function.Injective chunkPlace := by
  rintro ⟨left, first⟩ ⟨right, second⟩ same
  obtain ⟨numbers, offsets⟩ := Prod.mk.inj same
  have number : left = right := UInt32.toNat_inj.mp (Int.ofNat.inj numbers)
  have offset : first * hexLineBytes = second * hexLineBytes := Int.ofNat.inj offsets
  rw [number, Nat.eq_of_mul_eq_mul_right (by decide) offset]

theorem last_chunk_write (number : UInt32) (index : Nat) :
    lastWrite ((chunkWrites trials log).map fun write => chunkWrite raw write.1 write.2)
        (chunkPlace (number, index)) =
      (chunkOf trials log number index).map fun trial =>
        hexText (chunk hexLineBytes (raw trial).val index) :=
  last_write_map chunk_place_injective
    (fun place trial => hexText (chunk hexLineBytes (raw trial).val place.2)) (chunkWrites trials log)
    (number, index)

theorem flat_map_filter {α β : Type} {keep : α → Bool} {part : α → List β} {items : List α}
    (gone : ∀ item ∈ items, keep item = false → part item = []) :
    (items.filter keep).flatMap part = items.flatMap part := by
  induction items with
  | nil => rfl
  | cons item items ih =>
      have rest := ih fun other member => gone other (List.mem_cons_of_mem item member)
      cases kept : keep item with
      | true => rw [List.filter_cons_of_pos kept, List.flatMap_cons, List.flatMap_cons, rest]
      | false =>
          rw [List.filter_cons_of_neg (by simp [kept]), List.flatMap_cons,
            gone item (List.mem_cons_self ..) kept, rest]
          rfl

theorem hex_text_flat_map {α : Type} (part : α → Bytes) (items : List α) :
    items.flatMap (fun item => hexText (part item)) = hexText (items.flatMap part) :=
  List.flatMap_assoc.symm

theorem join_hex_parts_eq {chunks : AList fun _ : Int => Text} {count : Nat}
    {piece : Nat → Option Bytes}
    (entries : ∀ index : Nat,
      chunks.lookup ((index * hexLineBytes : Nat) : Int) = (piece index).map hexText)
    (places : ∀ offset, chunks.lookup offset ≠ none →
      ∃ index < count, offset = ((index * hexLineBytes : Nat) : Int)) :
    joinHexParts chunks = some ((List.range count).flatMap fun index => (piece index).getD []) := by
  have increasing : StrictMono fun index : Nat => ((index * hexLineBytes : Nat) : Int) := by
    intro left right less
    exact Int.ofNat_lt.mpr (Nat.mul_lt_mul_of_pos_right less (by decide))
  have below : ∀ offset ∈ chunks.keys,
      ∃ index < count, offset = ((index * hexLineBytes : Nat) : Int) := by
    intro offset member
    apply places offset
    exact Option.isSome_iff_ne_none.mp (AList.lookup_isSome.mpr (AList.mem_keys.mpr member))
  have sorted := insertion_sort_eq_map_filter increasing chunks.keys_nodup below
  have parts (index : Nat) : (chunks.lookup ((index * hexLineBytes : Nat) : Int)).getD [] =
      hexText ((piece index).getD []) := by
    rw [entries]
    cases piece index <;> rfl
  have gone : ∀ index ∈ List.range count,
      decide (((index * hexLineBytes : Nat) : Int) ∈ chunks.keys) = false →
        (chunks.lookup ((index * hexLineBytes : Nat) : Int)).getD [] = [] := by
    intro index _ absent
    have missing := of_decide_eq_false absent
    rw [← AList.mem_keys, ← AList.lookup_eq_none] at missing
    rw [missing]
    rfl
  rw [joinHexParts, sorted, List.flatMap_map, flat_map_filter gone]
  simp only [parts]
  rw [hex_text_flat_map, from_hex_text]

theorem raw_windows_eq (inside : Inside trials log) {count : Nat}
    (bound : ∀ number index, chunkOf trials log number index ≠ none → index < count)
    (number : UInt32) :
    rawWindows (parseLog (log.map (LogLine.render raw))) number.toNat =
      if Known trials log number then some (joinedWindow raw log count number) else none := by
  have known := nest_known ((chunkWrites trials log).map fun write => chunkWrite raw write.1 write.2)
    (number.toNat : Int)
  have same : (∃ write ∈ (chunkWrites trials log).map fun write => chunkWrite raw write.1 write.2,
      write.1.1 = (number.toNat : Int)) ↔ Known trials log number := by
    constructor
    · rintro ⟨_, member, equal⟩
      obtain ⟨write, known, rfl⟩ := List.mem_map.mp member
      exact ⟨write, known, UInt32.toNat_inj.mp (Int.ofNat.inj equal)⟩
    · rintro ⟨write, member, rfl⟩
      exact ⟨_, List.mem_map_of_mem member, rfl⟩
  rw [same] at known
  rw [rawWindows, parse_log_eq raw inside]
  dsimp only
  have lookups := nest_lookup ((chunkWrites trials log).map fun write => chunkWrite raw write.1 write.2)
    (number.toNat : Int)
  cases found : (nest ((chunkWrites trials log).map fun write =>
      chunkWrite raw write.1 write.2)).lookup (number.toNat : Int) with
  | none =>
      rw [if_neg fun counted => known.mpr counted found]
      rfl
  | some chunks =>
      rw [found] at lookups
      rw [if_pos (known.mp (by rw [found]; exact Option.some_ne_none _)), Option.bind_some]
      have entries : ∀ index : Nat, chunks.lookup ((index * hexLineBytes : Nat) : Int) =
          ((chunkOf trials log number index).map fun trial =>
            chunk hexLineBytes (raw trial).val index).map hexText := by
        intro index
        rw [Option.map_map]
        exact (lookups _).trans (last_chunk_write raw number index)
      apply join_hex_parts_eq entries
      intro offset present
      obtain ⟨text, written⟩ := Option.ne_none_iff_exists'.mp present
      have member := mem_of_last_write ((lookups offset).symm.trans written)
      obtain ⟨write, known, equal⟩ := List.mem_map.mp member
      have place := congrArg Prod.fst equal
      refine ⟨write.1.2, ?_, (Prod.mk.inj place).2.symm⟩
      have own : write.1.1 = number := UInt32.toNat_inj.mp (Int.ofNat.inj (Prod.mk.inj place).1)
      apply bound number
      apply @last_write_ne_none _ _ _ _ _ write.2
      rw [← own]
      exact known

theorem is_digit_text_decimal (value : Nat) : isDigitText (decimal value) = true := by
  have digits : ∀ d < 10, isDigitChar d.digitChar = true := by decide
  have all : (decimal value).all isDigitChar = true := by
    rw [List.all_eq_true]
    exact forall_mem_to_digits (by decide) digits value
  have nonempty : decimal value ≠ [] := Nat.toDigits_ne_nil
  rw [isDigitText, all, decide_eq_true nonempty]
  rfl

theorem lookup_result_row (trial : ι) :
    (resultRow raw trial).lookup "trial".toList = some (decimal (trials trial).number.toNat) :=
  lookup_entries [] (by simp)

theorem row_window_result (inside : Inside trials log) {count : Nat}
    (bound : ∀ number index, chunkOf trials log number index ≠ none → index < count) (trial : ι) :
    rowWindow (parseLog (log.map (LogLine.render raw))) (resultRow raw trial) =
      some (if Known trials log (trials trial).number then
        [joinedWindow raw log count (trials trial).number] else []) := by
  have short := decimal_short ((trials trial).number.toNat_lt.trans (by decide))
  rw [rowWindow, lookup_result_row, Option.getD_some]
  rw [if_pos (is_digit_text_decimal _), parse_int_decimal short, Option.map_some,
    raw_windows_eq raw inside bound]
  split_ifs
  · rfl
  · rfl

theorem map_m_some {α β γ : Type} {render : α → β} {f : β → Option γ} {g : α → γ}
    (each : ∀ item, f (render item) = some (g item)) (items : List α) :
    (items.map render).mapM f = some (items.map g) := by
  induction items with
  | nil => rfl
  | cons item items ih =>
      rw [List.map_cons, List.mapM_cons, each item, ih]
      rfl

theorem raw_values_eq (inside : Inside trials log) {count : Nat}
    (bound : ∀ number index, chunkOf trials log number index ≠ none → index < count) :
    rawValues (parseLog (log.map (LogLine.render raw))) =
      some ((countedNumbers trials log).map (joinedWindow raw log count)) := by
  have rows : (parseLog (log.map (LogLine.render raw))).rows =
      (shownTrials log).map (resultRow raw) := by
    rw [parse_log_eq raw inside]
  have each := row_window_result raw inside bound
  generalize parseLog (log.map (LogLine.render raw)) = parsed at rows each ⊢
  have windows : ((shownTrials log).map (resultRow raw)).mapM (rowWindow parsed) =
      some ((shownTrials log).map fun trial =>
        if Known trials log (trials trial).number then
          [joinedWindow raw log count (trials trial).number] else []) :=
    map_m_some each (shownTrials log)
  rw [rawValues, rows, windows, Option.map_some, countedNumbers]
  congr 1
  induction shownTrials log with
  | nil => rfl
  | cons trial shown ih =>
      rw [List.map_cons, List.flatten_cons, ih, List.map_cons]
      by_cases known : Known trials log (trials trial).number
      · rw [if_pos known, List.filter_cons_of_pos (by simpa using known)]
        rfl
      · rw [if_neg known, List.filter_cons_of_neg (by simpa using known)]
        rfl

end Parsed

/-! ## Distances -/

def bits (bytes : Bytes) : List Bool :=
  bytes.flatMap fun byte => (List.range 8).map byte.toNat.testBit

def bitDistance (left right : Bytes) : Nat :=
  ((bits left).zip (bits right)).countP fun pair => pair.1 != pair.2

theorem bit_count_xor (left right : UInt8) :
    bitCount (left ^^^ right) =
      (((List.range 8).map left.toNat.testBit).zip ((List.range 8).map right.toNat.testBit)).countP
        fun pair => pair.1 != pair.2 := by
  rw [bitCount, List.zip_map', List.countP_map]
  apply List.countP_congr
  intro bit _
  rw [UInt8.toNat_xor, Nat.testBit_xor]
  rfl

/-- `hamming_bytes` of windows of one length is their distance. -/
theorem hamming_bytes_eq {left right : Bytes} (same : left.length = right.length) :
    hammingBytes left right = bitDistance left right := by
  rw [hammingBytes, if_neg (not_not.mpr same)]
  induction left generalizing right with
  | nil => rfl
  | cons byte left ih =>
      cases right with
      | nil => cases same
      | cons other right =>
          have rest := ih (Nat.succ.inj same)
          rw [bitDistance] at rest ⊢
          have lengths : ((List.range 8).map byte.toNat.testBit).length =
              ((List.range 8).map other.toNat.testBit).length := by
            rw [List.length_map, List.length_map]
          rw [bits, bits, List.flatMap_cons, List.flatMap_cons, List.zip_append lengths,
            List.countP_append, ← bit_count_xor, List.zip_cons_cons, List.map_cons, List.sum_cons, rest]
          rfl

theorem pairwise_map {α β : Type} (distance : β → β → Nat) (render : α → β) (values : List α) :
    pairwise distance (values.map render) =
      pairwise (fun left right => distance (render left) (render right)) values := by
  induction values with
  | nil => rfl
  | cons value values ih =>
      rw [List.map_cons, pairwise, pairwise, ih, List.map_map]
      rfl

theorem pairwise_congr {α : Type} {distance other : α → α → Nat} {values : List α}
    (same : ∀ left ∈ values, ∀ right ∈ values, distance left right = other left right) :
    pairwise distance values = pairwise other values := by
  induction values with
  | nil => rfl
  | cons value values ih =>
      have first : values.map (distance value) = values.map (other value) :=
        List.map_congr_left fun right member =>
          same value (List.mem_cons_self ..) right (List.mem_cons_of_mem value member)
      have rest := ih fun left known right member =>
        same left (List.mem_cons_of_mem value known) right (List.mem_cons_of_mem value member)
      rw [pairwise, pairwise, first, rest]

/-! ## The windows of different trials -/

section Summary

variable {ι : Type} {trials : ι → DumpedTrial} {log : List (LogLine ι)}

/-- The summary of the windows of some trials, each counted once. -/
structure Honest (raw : Windows trials) (parsed : ParsedLog) (counted : List ι) : Prop where
  once : counted.Nodup
  oneSize : ∀ left ∈ counted, ∀ right ∈ counted, (trials left).size = (trials right).size
  windows : rawValues parsed = some (counted.map fun trial => (raw trial).val)
  summary : buildSummary parsed = some
    ⟨pairwise (fun left right => bitDistance (raw left).val (raw right).val) counted,
      byteMinEntropy (counted.map fun trial => (raw trial).val), counted.length⟩

theorem honest_of_windows {raw : Windows trials} {parsed : ParsedLog} {counted : List ι}
    (once : counted.Nodup)
    (oneSize : ∀ left ∈ counted, ∀ right ∈ counted, (trials left).size = (trials right).size)
    (windows : rawValues parsed = some (counted.map fun trial => (raw trial).val)) :
    Honest raw parsed counted := by
  refine ⟨once, oneSize, windows, ?_⟩
  have distances : pairwise hammingBytes (counted.map fun trial => (raw trial).val) =
      pairwise (fun left right => bitDistance (raw left).val (raw right).val) counted := by
    rw [pairwise_map]
    apply pairwise_congr
    intro left leftMember right rightMember
    apply hamming_bytes_eq
    rw [(raw left).property, (raw right).property]
    exact oneSize left leftMember right rightMember
  rw [buildSummary, windows, Option.map_some, distances, List.length_map]

/-- The counting chunk lines of a number are those of one whole dump. -/
def OwnedBy (trials : ι → DumpedTrial) (log : List (LogLine ι)) (number : UInt32) (owner : ι) : Prop :=
  ∀ index, chunkOf trials log number index =
    if index < hexLineCount (trials owner) then some owner else none

/-- Every counted number has one result line and one whole dump, and these dumps have
one size. -/
structure Separate (trials : ι → DumpedTrial) (log : List (LogLine ι)) : Prop where
  once : (countedNumbers trials log).Nodup
  owned : ∀ number ∈ countedNumbers trials log, ∃ owner, OwnedBy trials log number owner
  oneSize : ∀ left ∈ countedNumbers trials log, ∀ right ∈ countedNumbers trials log,
    ∀ leftOwner rightOwner, OwnedBy trials log left leftOwner → OwnedBy trials log right rightOwner →
      (trials leftOwner).size = (trials rightOwner).size

theorem mem_log_of_chunk {number : UInt32} {index : Nat} {trial : ι}
    (counts : chunkOf trials log number index = some trial) :
    LogLine.rawChunk trial index ∈ log ∧ (trials trial).number = number := by
  have member := mem_of_last_write counts
  obtain ⟨line, known, written⟩ := List.mem_filterMap.mp member
  cases line with
  | rawChunk own place =>
      obtain ⟨places, rfl⟩ := Prod.mk.inj (Option.some.inj written)
      obtain ⟨numbers, rfl⟩ := Prod.mk.inj places
      exact ⟨known, numbers⟩
  | result own => cases written
  | rawBegin own => cases written
  | rawEnd own => cases written
  | other text untagged => cases written

theorem known_of_counted {number : UInt32} (counted : number ∈ countedNumbers trials log) :
    ∃ index trial, chunkOf trials log number index = some trial := by
  obtain ⟨write, member, same⟩ := of_decide_eq_true (List.mem_filter.mp counted).2
  obtain ⟨⟨own, index⟩, trial⟩ := write
  have written : ((number, index), trial) ∈ chunkWrites trials log := by
    rw [← same]
    exact member
  obtain ⟨last, counts⟩ := Option.ne_none_iff_exists'.mp (last_write_ne_none written)
  exact ⟨index, last, counts⟩

theorem exists_bound (trials : ι → DumpedTrial) (log : List (LogLine ι)) :
    ∃ count, ∀ number index, chunkOf trials log number index ≠ none → index < count := by
  have some_bound (writes : List ((UInt32 × Nat) × ι)) :
      ∃ count, ∀ write ∈ writes, write.1.2 < count := by
    induction writes with
    | nil => exact ⟨0, List.forall_mem_nil _⟩
    | cons first writes ih =>
        obtain ⟨count, below⟩ := ih
        refine ⟨max (first.1.2 + 1) count, ?_⟩
        intro write member
        rcases List.mem_cons.mp member with rfl | later
        · omega
        · have smaller := below write later
          omega
  obtain ⟨count, below⟩ := some_bound (chunkWrites trials log)
  refine ⟨count, ?_⟩
  intro number index counts
  obtain ⟨trial, written⟩ := Option.ne_none_iff_exists'.mp counts
  exact below _ (mem_of_last_write written)

theorem joined_window_single (raw : Windows trials) (inside : Inside trials log) {number : UInt32}
    {owner : ι} {count : Nat} (enough : hexLineCount (trials owner) ≤ count)
    (only : ∀ index trial, chunkOf trials log number index = some trial → trial = owner) :
    joinedWindow raw log count number =
      joinReceived (fun index => (chunkOf trials log number index).isSome) hexLineBytes
        (chunk hexLineBytes (raw owner).val) (List.range (hexLineCount (trials owner))) := by
  obtain ⟨more, split⟩ := Nat.exists_eq_add_of_le enough
  have back : ((List.range more).map (hexLineCount (trials owner) + ·)).flatMap (fun index =>
      ((chunkOf trials log number index).map fun trial =>
        chunk hexLineBytes (raw trial).val index).getD []) = [] := by
    rw [List.flatMap_eq_nil_iff]
    intro index member
    obtain ⟨behind, _, rfl⟩ := List.mem_map.mp member
    cases counts : chunkOf trials log number (hexLineCount (trials owner) + behind) with
    | none => rfl
    | some trial =>
        have line := inside trial _ (mem_log_of_chunk counts).1
        rw [only _ trial counts] at line
        omega
  have gone : ∀ index ∈ List.range (hexLineCount (trials owner)),
      (chunkOf trials log number index).isSome = false →
        ((chunkOf trials log number index).map fun trial =>
          chunk hexLineBytes (raw trial).val index).getD [] = [] := by
    intro index _ absent
    rw [Option.isSome_eq_false_iff, Option.isNone_iff_eq_none] at absent
    rw [absent]
    rfl
  rw [joinedWindow, split, List.range_add, List.flatMap_append, back, List.append_nil,
    ← flat_map_filter gone, joinReceived]
  apply List.flatMap_congr
  intro index member
  obtain ⟨trial, counts⟩ := Option.isSome_iff_exists.mp (List.mem_filter.mp member).2
  have short : (chunk hexLineBytes (raw owner).val index).length ≤ hexLineBytes := by
    rw [chunk_length]
    exact Nat.min_le_left _ _
  rw [counts, only index trial counts, List.take_of_length_le short]
  rfl

theorem flat_map_window (raw : Windows trials) (trial : ι) :
    (List.range (hexLineCount (trials trial))).flatMap (chunk hexLineBytes (raw trial).val) =
      (raw trial).val := by
  have whole {size : Nat} (window : Block size) :
      (List.range (chunkCount hexLineBytes size)).flatMap (chunk hexLineBytes window.val) =
        window.val := by
    obtain ⟨bytes, rfl⟩ := window
    exact flat_map_chunk (by decide) bytes
  exact whole (raw trial)

theorem joined_window_owned (raw : Windows trials) (inside : Inside trials log) {number : UInt32}
    {owner : ι} {count : Nat} (owned : OwnedBy trials log number owner)
    (bound : ∀ number index, chunkOf trials log number index ≠ none → index < count) :
    joinedWindow raw log count number = (raw owner).val := by
  have enough : hexLineCount (trials owner) ≤ count := by
    by_contra short
    have last := owned count
    rw [if_pos (by omega)] at last
    have counts : chunkOf trials log number count ≠ none := by
      rw [last]
      exact Option.some_ne_none _
    exact absurd (bound number count counts) (lt_irrefl count)
  have only : ∀ index trial, chunkOf trials log number index = some trial → trial = owner := by
    intro index trial counts
    rw [owned index] at counts
    split_ifs at counts
    exact (Option.some.inj counts).symm
  rw [joined_window_single raw inside enough only, join_received_of_all]
  · exact flat_map_window raw owner
  · intro index member
    rw [owned index, if_pos (List.mem_range.mp member), chunk_length]
    exact ⟨rfl, Nat.min_le_left _ _⟩

theorem number_of_owned {number : UInt32} {owner : ι} (counted : number ∈ countedNumbers trials log)
    (owned : OwnedBy trials log number owner) : (trials owner).number = number := by
  obtain ⟨index, trial, counts⟩ := known_of_counted counted
  have own := owned index
  rw [counts] at own
  split_ifs at own
  rw [← Option.some.inj own]
  exact (mem_log_of_chunk counts).2

/-- Different trials stand behind a summary of separate dumps. -/
theorem honest_of_separate (inside : Inside trials log) (separate : Separate trials log)
    (raw : Windows trials) :
    ∃ counted, Honest raw (parseLog (log.map (LogLine.render raw))) counted := by
  obtain ⟨count, bound⟩ := exists_bound trials log
  choose owner owns using separate.owned
  refine ⟨(countedNumbers trials log).attach.map fun number => owner number.1 number.2, ?_⟩
  apply honest_of_windows
  · apply List.Nodup.of_map fun trial => (trials trial).number
    have numbers : ((countedNumbers trials log).attach.map fun number =>
        owner number.1 number.2).map (fun trial => (trials trial).number) =
        countedNumbers trials log := by
      rw [List.map_map]
      have same := List.map_congr_left fun number (_ : number ∈ (countedNumbers trials log).attach) =>
        number_of_owned number.2 (owns number.1 number.2)
      exact same.trans (List.attach_map_subtype_val _)
    rw [numbers]
    exact separate.once
  · intro left leftMember right rightMember
    obtain ⟨first, _, rfl⟩ := List.mem_map.mp leftMember
    obtain ⟨second, _, rfl⟩ := List.mem_map.mp rightMember
    exact separate.oneSize first.1 first.2 second.1 second.2 _ _ (owns first.1 first.2)
      (owns second.1 second.2)
  · rw [raw_values_eq raw inside bound, List.map_map]
    congr 1
    have windows : (countedNumbers trials log).attach.map
        (fun number => joinedWindow raw log count number.1) =
        (countedNumbers trials log).map (joinedWindow raw log count) :=
      List.attach_map_val
    rw [← windows]
    apply List.map_congr_left
    intro number _
    exact joined_window_owned raw inside (owns number.1 number.2) bound

theorem mem_joined_window (raw : Windows trials) (inside : Inside trials log) {number : UInt32}
    {index count : Nat} {trial : ι} (counts : chunkOf trials log number index = some trial)
    (below : index < count) :
    ∃ byte ∈ (raw trial).val, byte ∈ joinedWindow raw log count number := by
  have line := inside trial index (mem_log_of_chunk counts).1
  have size : (raw trial).val.length = (trials trial).size := (raw trial).property
  rw [hexLineCount, ← size] at line
  obtain ⟨byte, member⟩ := List.exists_mem_of_ne_nil _ (chunk_ne_nil (by decide) line)
  refine ⟨byte, List.mem_of_mem_drop (List.mem_of_mem_take member), ?_⟩
  apply List.mem_flatMap.mpr
  refine ⟨index, List.mem_range.mpr below, ?_⟩
  rw [counts]
  exact member

/-! ## The other direction -/

variable [DecidableEq ι]

/-- Ones in the window of one trial, zeros in all others. -/
def marked (trials : ι → DumpedTrial) (mark : ι) : Windows trials := fun trial =>
  ⟨List.replicate (trials trial).size (if trial = mark then 1 else 0), List.length_replicate⟩

theorem mem_marked {mark trial : ι} {byte : UInt8} (member : byte ∈ (marked trials mark trial).val) :
    byte = if trial = mark then 1 else 0 := List.eq_of_mem_replicate member

theorem joined_window_marked (inside : Inside trials log)
    (honest : ∀ raw : Windows trials,
      ∃ counted, Honest raw (parseLog (log.map (LogLine.render raw))) counted)
    {number : UInt32} {index count : Nat} {owner : ι}
    (bound : ∀ number index, chunkOf trials log number index ≠ none → index < count)
    (known : number ∈ countedNumbers trials log)
    (counts : chunkOf trials log number index = some owner) :
    joinedWindow (marked trials owner) log count number = (marked trials owner owner).val := by
  obtain ⟨counted, summary⟩ := honest (marked trials owner)
  have values := (raw_values_eq (marked trials owner) inside bound).symm.trans summary.windows
  have member : joinedWindow (marked trials owner) log count number ∈
      counted.map fun trial => (marked trials owner trial).val := by
    rw [← Option.some.inj values]
    exact List.mem_map_of_mem known
  obtain ⟨trial, _, same⟩ := List.mem_map.mp member
  have below : index < count := bound number index (by rw [counts]; exact Option.some_ne_none _)
  obtain ⟨byte, own, shows⟩ := mem_joined_window (marked trials owner) inside counts below
  rw [← same] at shows
  have one := mem_marked own
  have other := mem_marked shows
  rw [if_pos rfl] at one
  have equal : trial = owner := by
    by_contra apart
    rw [if_neg apart, one] at other
    exact absurd other (by decide)
  rw [← same, equal]

theorem owned_of_honest (inside : Inside trials log)
    (honest : ∀ raw : Windows trials,
      ∃ counted, Honest raw (parseLog (log.map (LogLine.render raw))) counted)
    {number : UInt32} {index : Nat} {owner : ι} (known : number ∈ countedNumbers trials log)
    (counts : chunkOf trials log number index = some owner) : OwnedBy trials log number owner := by
  obtain ⟨smaller, below⟩ := exists_bound trials log
  have bound : ∀ number index, chunkOf trials log number index ≠ none →
      index < hexLineCount (trials owner) + smaller := by
    intro number index present
    have less := below number index present
    omega
  have window := joined_window_marked inside honest bound known counts
  have only : ∀ place trial, chunkOf trials log number place = some trial → trial = owner := by
    intro place trial other
    have inRange := bound number place (by rw [other]; exact Option.some_ne_none _)
    obtain ⟨byte, own, shows⟩ := mem_joined_window (marked trials owner) inside other inRange
    rw [window] at shows
    have one := mem_marked shows
    have same := mem_marked own
    rw [if_pos rfl] at one
    by_contra apart
    rw [if_neg apart, one] at same
    exact absurd same (by decide)
  have size : (marked trials owner owner).val.length = (trials owner).size :=
    (marked trials owner owner).property
  have whole : (joinReceived (fun place => (chunkOf trials log number place).isSome) hexLineBytes
      (chunk hexLineBytes (marked trials owner owner).val)
      (List.range (hexLineCount (trials owner)))).length =
      ((List.range (hexLineCount (trials owner))).flatMap
        (chunk hexLineBytes (marked trials owner owner).val)).length := by
    rw [← joined_window_single (marked trials owner) inside (Nat.le_add_right _ smaller) only, window,
      flat_map_window]
  have present := (join_received_length_eq_iff _ _ _ _ (by
    intro place member
    apply chunk_ne_nil (by decide)
    rw [size]
    exact List.mem_range.mp member)).mp whole
  intro place
  split_ifs with line
  · obtain ⟨trial, found⟩ := Option.isSome_iff_exists.mp (present place (List.mem_range.mpr line)).1
    rw [found, only place trial found]
  · cases found : chunkOf trials log number place with
    | none => rfl
    | some trial =>
        have behind := inside trial place (mem_log_of_chunk found).1
        rw [only place trial found] at behind
        exact absurd behind line

theorem separate_of_honest (inside : Inside trials log)
    (honest : ∀ raw : Windows trials,
      ∃ counted, Honest raw (parseLog (log.map (LogLine.render raw))) counted) :
    Separate trials log := by
  obtain ⟨count, bound⟩ := exists_bound trials log
  constructor
  · rw [List.nodup_iff_count_le_one]
    intro number
    by_cases known : number ∈ countedNumbers trials log
    · obtain ⟨index, owner, counts⟩ := known_of_counted known
      have window := joined_window_marked inside honest bound known counts
      obtain ⟨counted, summary⟩ := honest (marked trials owner)
      have values := Option.some.inj
        ((raw_values_eq (marked trials owner) inside bound).symm.trans summary.windows)
      have below : index < count := bound number index (by rw [counts]; exact Option.some_ne_none _)
      obtain ⟨byte, own, _⟩ := mem_joined_window (marked trials owner) inside counts below
      have single : ∀ trial, (marked trials owner trial).val = (marked trials owner owner).val →
          trial = owner := by
        intro trial same
        have one := mem_marked own
        rw [← same] at own
        have other := mem_marked own
        rw [if_pos rfl] at one
        by_contra apart
        rw [if_neg apart, one] at other
        exact absurd other (by decide)
      calc (countedNumbers trials log).count number
          ≤ ((countedNumbers trials log).map (joinedWindow (marked trials owner) log count)).count
              (joinedWindow (marked trials owner) log count number) := List.count_le_count_map
        _ = (counted.map fun trial => (marked trials owner trial).val).count
              (marked trials owner owner).val := by rw [values, window]
        _ ≤ counted.count owner := by
            rw [List.count, List.countP_map]
            apply List.countP_mono_left
            intro trial _ same
            exact beq_iff_eq.mpr (single trial (beq_iff_eq.mp same))
        _ ≤ 1 := List.nodup_iff_count_le_one.mp summary.once owner
    · rw [List.count_eq_zero_of_not_mem known]
      exact Nat.zero_le 1
  · intro number known
    obtain ⟨index, owner, counts⟩ := known_of_counted known
    exact ⟨owner, owned_of_honest inside honest known counts⟩
  · intro left leftKnown right rightKnown leftOwner rightOwner leftOwned rightOwned
    obtain ⟨counted, summary⟩ := honest (marked trials leftOwner)
    have values := Option.some.inj
      ((raw_values_eq (marked trials leftOwner) inside bound).symm.trans summary.windows)
    have dumped : ∀ number ∈ countedNumbers trials log, ∀ owner, OwnedBy trials log number owner →
        ∃ trial ∈ counted, (trials trial).size = (trials owner).size := by
      intro number known owner owned
      have member : joinedWindow (marked trials leftOwner) log count number ∈
          counted.map fun trial => (marked trials leftOwner trial).val := by
        rw [← values]
        exact List.mem_map_of_mem known
      obtain ⟨trial, among, same⟩ := List.mem_map.mp member
      rw [joined_window_owned _ inside owned bound] at same
      refine ⟨trial, among, ?_⟩
      rw [← (marked trials leftOwner trial).property, same]
      exact (marked trials leftOwner owner).property
    obtain ⟨first, firstAmong, firstSize⟩ := dumped left leftKnown leftOwner leftOwned
    obtain ⟨second, secondAmong, secondSize⟩ := dumped right rightKnown rightOwner rightOwned
    rw [← firstSize, ← secondSize]
    exact summary.oneSize first firstAmong second secondAmong

end Summary

/-! ## Logs of boots -/

theorem inside_of_printed {ι : Type} {trials : ι → DumpedTrial} {boots : List (List ι)}
    {log : List (LogLine ι)} (printed : PrintedBy trials boots log) : Inside trials log := by
  intro trial index member
  have kept : LogLine.rawChunk trial index ∈ log.filter LogLine.ofTrial :=
    List.mem_filter.mpr ⟨member, rfl⟩
  obtain ⟨own, _, line⟩ := List.mem_flatMap.mp (printed.part.subset kept)
  simp only [trialLines, List.mem_cons, List.mem_append, List.mem_map, List.mem_range,
    reduceCtorEq, false_or, or_false, List.not_mem_nil] at line
  obtain ⟨place, below, same⟩ := line
  obtain ⟨rfl, rfl⟩ := LogLine.rawChunk.inj same
  exact below

/-- **Raw windows in the log.** Whatever the windows hold, the summary of a log is that
of windows of different trials exactly when the log keeps its counted dumps whole
and separate. -/
theorem raw_summary_honest_iff {ι : Type} [DecidableEq ι] (trials : ι → DumpedTrial)
    (boots : List (List ι)) (log : List (LogLine ι)) (printed : PrintedBy trials boots log) :
    (∀ raw : Windows trials,
      ∃ counted, Honest raw (parseLog (log.map (LogLine.render raw))) counted) ↔
      Separate trials log := by
  have inside := inside_of_printed printed
  constructor
  · exact separate_of_honest inside
  · exact honest_of_separate inside

def zeroFields : ResultFields where
  idle := true
  nonce := ⟨List.replicate 16 0, rfl⟩
  packetsExpected := 0
  packetsSeen := 0
  intervalUs := 0
  sampleUs := 0
  ones := 0
  transitions := 0
  jitterMinUs := 0
  jitterMeanUs := 0
  jitterMaxUs := 0
  rawSha256 := ⟨List.replicate 32 0, rfl⟩
  jitterSha256 := ⟨List.replicate 32 0, rfl⟩
  responseSha256 := ⟨List.replicate 32 0, rfl⟩
  seedSha256 := ⟨List.replicate 32 0, rfl⟩

def twoDumps (_ : Bool) : DumpedTrial := ⟨0, 1, by decide, fun _ => zeroFields⟩

def twoWindows : Windows twoDumps := fun second => ⟨[if second then 0xff else 0x00], rfl⟩

def twoDumpLog : List (LogLine Bool) := trialLines twoDumps false ++ trialLines twoDumps true

theorem two_dump_log_printed : PrintedBy twoDumps [[false], [true]] twoDumpLog :=
  ⟨by decide, List.Sublist.refl _⟩

theorem one_boot_log_honest :
    (∀ raw : Windows twoDumps, ∃ counted, Honest raw
      (parseLog ((trialLines twoDumps false).map (LogLine.render raw))) counted) ↔
      Separate twoDumps (trialLines twoDumps false) :=
  raw_summary_honest_iff twoDumps [[false], [true]] (trialLines twoDumps false)
    ⟨by decide, List.sublist_append_left _ _⟩

/-- The second boot's window `ff` is counted for both boots, at distance 0. -/
theorem two_dumps_share_window :
    ¬∀ (ι : Type) (trials : ι → DumpedTrial) (boots : List (List ι)) (log : List (LogLine ι)),
      PrintedBy trials boots log → ∀ raw : Windows trials,
        ∃ counted, Honest raw (parseLog (log.map (LogLine.render raw))) counted := by
  intro all
  obtain ⟨counted, summary⟩ := all Bool twoDumps _ twoDumpLog two_dump_log_printed twoWindows
  have inside := inside_of_printed two_dump_log_printed
  have bound : ∀ number index, chunkOf twoDumps twoDumpLog number index ≠ none → index < 1 := by
    intro number index present
    obtain ⟨trial, counts⟩ := Option.ne_none_iff_exists'.mp present
    have line := inside trial index (mem_log_of_chunk counts).1
    have single : ∀ second, hexLineCount (twoDumps second) = 1 := by decide
    rwa [single] at line
  have windows : (countedNumbers twoDumps twoDumpLog).map (joinedWindow twoWindows twoDumpLog 1) =
      [[0xff], [0xff]] := by decide
  have values := (raw_values_eq twoWindows inside bound).symm.trans summary.windows
  rw [windows] at values
  have shown := Option.some.inj values
  match counted, shown, summary.once with
  | [], shown, _ => exact absurd (congrArg List.length shown) (by simp)
  | [first], shown, _ => exact absurd (congrArg List.length shown) (by simp)
  | [first, second], shown, once =>
      have own : ∀ trial, [0xff] = (twoWindows trial).val → trial = true := by decide
      have both := List.cons.inj shown
      have firstOwn := own first both.1
      have secondOwn := own second (List.cons.inj both.2).1
      rw [firstOwn, secondOwn] at once
      exact absurd once (by decide)
  | first :: second :: third :: rest, shown, _ =>
      exact absurd (congrArg List.length shown) (by simp)

end BootEntropy.Aeb
