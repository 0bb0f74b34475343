import BootEntropy.Sram.Capture

/-!
# A dump read line by line

Whatever the reader has seen before, the lines of one dump bring it to that dump's
region and address.
-/

namespace BootEntropy.Sram

open BootEntropy.Lib

set_option autoImplicit false

/-! ## Kinds of lines -/

section Kinds

variable {reader : CaptureReader} {line : Text}

theorem handle_begin {address : Int} (tag : beginTag <+: line)
    (fields : beginFields line = .ok address) :
    handleLine reader line =
      .go { reader with address := some address, received := ∅, began := true, ended := false } := by
  rw [handleLine, if_pos tag, fields]

theorem handle_data {offset : Nat} {data : Bytes} (began : reader.began = true)
    (notBegin : ¬beginTag <+: line) (tag : dataTag <+: line)
    (fields : dataFields line = .ok (offset, data))
    (fits : offset + data.length ≤ regionBytes) :
    handleLine reader line = .go (reader.write offset data) := by
  rw [handleLine, if_neg notBegin, if_pos ⟨began, tag⟩, fields]
  dsimp only
  rw [if_neg (by omega)]
  rfl

theorem handle_end (began : reader.began = true) :
    handleLine reader endTag = .go { reader with ended := true } := by
  rw [handleLine, if_neg (by decide), if_neg (fun data => absurd data.2 (by decide)),
    if_pos ⟨began, rfl⟩]

theorem handle_ready {address : Int} (notBegin : ¬beginTag <+: line) (notData : ¬dataTag <+: line)
    (notEnd : line ≠ endTag) (tag : readyTag <+: line) (ended : reader.ended = true)
    (known : reader.address = some address) (complete : reader.received.card = regionBytes) :
    handleLine reader line = .stop reader (.ok (reader.captured, address)) := by
  rw [handleLine, if_neg notBegin, if_neg fun data => notData data.2,
    if_neg fun done => notEnd done.2, if_pos ⟨tag, ended⟩, known]
  dsimp only
  rw [if_neg (not_not.mpr complete)]

inductive Turn (reader : CaptureReader) (line : Text) : Next CaptureReader Outcome → Prop
  | idle : Turn reader line (.go reader)
  | refused (error : CaptureError) : Turn reader line (.stop reader (.error error))
  | opened (address : Int) (tag : beginTag <+: line) (fields : beginFields line = .ok address) :
      Turn reader line (.go { reader with
        address := some address, received := ∅, began := true, ended := false })
  | delivered (offset : Int) (data : Bytes) (began : reader.began = true) (tag : dataTag <+: line)
      (fields : dataFields line = .ok (offset, data)) (positive : 0 ≤ offset)
      (fits : offset + data.length ≤ regionBytes) :
      Turn reader line (.go (reader.write offset.toNat data))
  | closed (began : reader.began = true) (same : line = endTag) :
      Turn reader line (.go { reader with ended := true })
  | returned (address : Int) (tag : readyTag <+: line) (ended : reader.ended = true)
      (known : reader.address = some address) (complete : reader.received.card = regionBytes) :
      Turn reader line (.stop reader (.ok (reader.captured, address)))

theorem handle_line_turn (reader : CaptureReader) (line : Text) :
    Turn reader line (handleLine reader line) := by
  by_cases begins : beginTag <+: line
  · rw [handleLine, if_pos begins]
    cases fields : beginFields line with
    | error error => exact .refused error
    | ok address => exact .opened address begins fields
  rw [handleLine, if_neg begins]
  by_cases data : reader.began = true ∧ dataTag <+: line
  · rw [if_pos data]
    rcases fields : dataFields line with error | ⟨offset, bytes⟩
    · exact .refused error
    · dsimp only
      split_ifs with outside
      · exact .refused _
      · exact .delivered offset bytes data.1 data.2 fields (by omega) (by omega)
  rw [if_neg data]
  by_cases done : reader.began = true ∧ line = endTag
  · rw [if_pos done]
    exact .closed done.1 done.2
  rw [if_neg done]
  by_cases ready : readyTag <+: line ∧ reader.ended = true
  · rw [if_pos ready]
    cases known : reader.address with
    | none => exact .refused _
    | some address =>
        dsimp only
        split_ifs with incomplete
        · exact .refused _
        · exact .returned address ready.1 ready.2 known (not_not.mp incomplete)
  · rw [if_neg ready]
    exact .idle

end Kinds

/-! ## What has been received -/

structure Faithful (capture : Capture) (reader : CaptureReader) : Prop where
  size : reader.captured.length = regionBytes
  inside : reader.received ⊆ Finset.range regionBytes
  same : ∀ index ∈ reader.received, reader.captured[index]? = capture.region.val[index]?

theorem mem_write_received (reader : CaptureReader) (offset : Nat) (data : Bytes) (index : Nat) :
    index ∈ (reader.write offset data).received ↔
      index ∈ reader.received ∨ offset ≤ index ∧ index < offset + data.length := by
  show index ∈ reader.received ∪ Finset.Ico offset (offset + data.length) ↔ _
  rw [Finset.mem_union, Finset.mem_Ico]

theorem Faithful.write {capture : Capture} {reader : CaptureReader}
    (faithful : Faithful capture reader) {offset : Nat} {piece : Bytes}
    (start : offset ≤ regionBytes) (part : piece <+: capture.region.val.drop offset) :
    Faithful capture (reader.write offset piece) := by
  have length := part.length_le
  rw [List.length_drop, capture.region.property] at length
  have size := faithful.size
  constructor
  · exact (store_length _ _ _ (by omega)).trans size
  · intro index member
    rw [mem_write_received] at member
    rcases member with old | ⟨_, upper⟩
    · exact faithful.inside old
    · exact Finset.mem_range.mpr (by omega)
  · intro index member
    rw [mem_write_received] at member
    by_cases written : offset ≤ index ∧ index < offset + piece.length
    · have stored : (store reader.captured offset piece)[index]? = piece[index - offset]? :=
        store_get_inside (by omega) written.1 written.2
      have source : piece[index - offset]? = capture.region.val[index]? := by
        obtain ⟨rest, whole⟩ := part
        have place := congrArg (fun bytes => bytes[index - offset]?) whole
        rwa [List.getElem?_append_left (by omega), List.getElem?_drop,
          Nat.add_sub_cancel' written.1] at place
      exact stored.trans source
    · have kept : index ∈ reader.received := by
        rcases member with old | new
        · exact old
        · exact absurd new written
      have stored : (store reader.captured offset piece)[index]? = reader.captured[index]? :=
        store_get_outside (by omega) (by omega)
      exact stored.trans (faithful.same index kept)

theorem Faithful.complete {capture : Capture} {reader : CaptureReader}
    (faithful : Faithful capture reader) (all : reader.received.card = regionBytes) :
    reader.captured = capture.region.val := by
  have everything : reader.received = Finset.range regionBytes := by
    apply Finset.eq_of_subset_of_card_le faithful.inside
    rw [all, Finset.card_range]
  apply List.ext_getElem?
  intro index
  by_cases inside : index < regionBytes
  · apply faithful.same
    rw [everything]
    exact Finset.mem_range.mpr inside
  · have size := faithful.size
    have region := capture.region.property
    rw [List.getElem?_eq_none (by omega), List.getElem?_eq_none (by omega)]

/-! ## One dump -/

theorem begin_line_tag (capture : Capture) : beginTag <+: beginLine capture := by
  rw [begin_line_tokens]
  exact List.prefix_append _ _

theorem data_line_tag (capture : Capture) (offset : Nat) : dataTag <+: dataLine capture offset := by
  rw [data_line_tokens]
  exact List.prefix_append _ _

theorem data_line_not_begin (capture : Capture) (offset : Nat) :
    ¬beginTag <+: dataLine capture offset := by
  rw [data_line_tokens]
  exact other_tag (by decide) _

theorem mem_data_offsets {offset : Nat} (member : offset ∈ dataOffsets) :
    offset + dataBytesPerLine ≤ regionBytes := by
  obtain ⟨index, below, rfl⟩ := List.mem_map.mp member
  have count := List.mem_range.mp below
  rw [regionBytes, dataBytesPerLine] at *
  omega

theorem handle_data_line {capture : Capture} {reader : CaptureReader} (began : reader.began = true)
    {offset : Nat} (member : offset ∈ dataOffsets) :
    handleLine reader (dataLine capture offset) =
      .go (reader.write offset (slice capture.region.val offset dataBytesPerLine)) := by
  have within := mem_data_offsets member
  have bytes : min (regionBytes - offset) dataBytesPerLine = dataBytesPerLine := by omega
  have small : offset < 10 ^ 4 := by
    rw [regionBytes, dataBytesPerLine] at within
    omega
  have fields := data_fields_line capture small
  rw [bytes] at fields
  apply handle_data began (data_line_not_begin capture offset) (data_line_tag capture offset) fields
  rw [slice_length _ _ _ (by rw [capture.region.property]; exact within)]
  exact within

theorem run_data_lines {capture : Capture} {offsets : List Nat} (known : offsets ⊆ dataOffsets) :
    ∀ reader : CaptureReader, reader.began = true → Faithful capture reader →
      ∃ after, run handleLine reader (offsets.map (dataLine capture)) = (after, none) ∧
        Faithful capture after ∧ after.began = true ∧ after.address = reader.address ∧
        ∀ index, index ∈ reader.received ∨
          (∃ offset ∈ offsets, offset ≤ index ∧ index < offset + dataBytesPerLine) →
          index ∈ after.received := by
  induction offsets with
  | nil =>
      intro reader began faithful
      refine ⟨reader, rfl, faithful, began, rfl, ?_⟩
      rintro index (old | ⟨offset, none, _⟩)
      · exact old
      · cases none
  | cons offset offsets ih =>
      intro reader began faithful
      have member : offset ∈ dataOffsets := known (List.mem_cons_self ..)
      have within := mem_data_offsets member
      have length : (slice capture.region.val offset dataBytesPerLine).length = dataBytesPerLine :=
        slice_length _ _ _ (by rw [capture.region.property]; exact within)
      have written : Faithful capture
          (reader.write offset (slice capture.region.val offset dataBytesPerLine)) :=
        faithful.write (by omega) (List.take_prefix _ _)
      obtain ⟨after, taken, kept, still, address, received⟩ :=
        ih (fun other later => known (List.mem_cons_of_mem _ later))
          (reader.write offset (slice capture.region.val offset dataBytesPerLine)) began written
      refine ⟨after, ?_, kept, still, address, ?_⟩
      · rw [List.map_cons, run, handle_data_line began member]
        exact taken
      · intro index found
        apply received
        rw [mem_write_received, length]
        rcases found with old | ⟨other, here, bounds⟩
        · exact .inl (.inl old)
        · rcases List.mem_cons.mp here with rfl | later
          · exact .inl (.inr bounds)
          · exact .inr ⟨other, later, bounds⟩

/-- BEGIN to READY of one dump, from any state of the reader. -/
theorem run_capture (capture : Capture) {reader : CaptureReader}
    (size : reader.captured.length = regionBytes) :
    (run handleLine reader (printCapture capture ++ [readyLine])).2 =
      some (.ok (capture.region.val, capture.address)) := by
  have opened : Faithful capture { reader with
      address := some (capture.address : Int), received := ∅, began := true, ended := false } :=
    ⟨size, Finset.empty_subset _, fun index none => absurd none (Finset.notMem_empty index)⟩
  obtain ⟨after, taken, kept, began, address, received⟩ :=
    run_data_lines (List.Subset.refl dataOffsets) _ rfl opened
  have all : after.received.card = regionBytes := by
    have everything : after.received = Finset.range regionBytes := by
      apply Finset.Subset.antisymm kept.inside
      intro index member
      have below := Finset.mem_range.mp member
      rw [regionBytes] at below
      apply received
      right
      refine ⟨index / dataBytesPerLine * dataBytesPerLine, List.mem_map.mpr
        ⟨index / dataBytesPerLine, ?_, rfl⟩, ?_⟩
      · rw [List.mem_range, regionBytes, dataBytesPerLine]
        omega
      · rw [dataBytesPerLine]
        omega
    rw [everything, Finset.card_range]
  have ready : handleLine { after with ended := true } readyLine =
      .stop { after with ended := true } (.ok (after.captured, (capture.address : Int))) :=
    handle_ready (by decide) (by decide) (by decide) (by decide) rfl address all
  rw [printCapture, List.cons_append, run,
    handle_begin (begin_line_tag capture) (begin_fields_line capture)]
  dsimp only
  rw [List.append_assoc, run_append_of_running _ _ _ (by rw [taken]), taken]
  rw [List.singleton_append, run, handle_end began]
  dsimp only
  rw [run, ready, kept.complete all]

/-! ## Lines as they are read -/

/-- What `strip` of the decoded read gives back. -/
structure Printed (line : Text) : Prop where
  ascii : ∀ c ∈ line, c.toNat < 0x80
  nonempty : line ≠ []
  first : ∀ c ∈ line.head?, isSpace c = false
  last : ∀ c ∈ line.getLast?, isSpace c = false

theorem DumpLine.printed {line : Text} (dump : DumpLine line) : Printed line := by
  obtain ⟨rest, rfl, inner⟩ := dump.bracket
  constructor
  · intro c member
    rcases List.mem_cons.mp member with rfl | behind
    · decide
    · exact (inner c behind).ascii
  · exact List.cons_ne_nil _ _
  · intro c head
    obtain rfl := Option.some.inj head
    decide
  · exact dump.last

theorem ready_line_printed : Printed readyLine := ⟨by decide, by decide, by decide, by decide⟩

def captureOutput (capture : Capture) : List Text := printCapture capture ++ [readyLine]

theorem capture_output_printed (capture : Capture) :
    ∀ line ∈ captureOutput capture, Printed line := by
  intro line member
  rcases List.mem_append.mp member with dump | ready
  · exact (print_capture_dump capture line dump).printed
  · rw [List.mem_singleton.mp ready]
    exact ready_line_printed

theorem line_end_spaces (lineEnd : LineEnd) : ∀ c ∈ lineEnd.text, isSpace c = true := by
  cases lineEnd with
  | lf => decide
  | crLf => decide

theorem line_end_ascii (lineEnd : LineEnd) : ∀ c ∈ lineEnd.text, c.toNat < 0x80 := by
  cases lineEnd with
  | lf => decide
  | crLf => decide

theorem decode_printk (lineEnd : LineEnd) {line : Text} (printed : Printed line) :
    strip (decodeAscii (lineEnd.printk line)) = line := by
  have ascii : ∀ c ∈ line ++ lineEnd.text, c.toNat < 0x80 := by
    intro c member
    rcases List.mem_append.mp member with text | blank
    · exact printed.ascii c text
    · exact line_end_ascii lineEnd c blank
  rw [LineEnd.printk, decode_text_bytes ascii]
  exact strip_line printed.first printed.last (line_end_spaces lineEnd)

theorem decode_text {line : Text} (printed : Printed line) :
    strip (decodeAscii (textBytes line)) = line := by
  have stripped := strip_line printed.first printed.last (List.forall_mem_nil _)
  rw [List.append_nil] at stripped
  rw [decode_text_bytes printed.ascii, stripped]

theorem handle_read_printed (lineEnd : LineEnd) {line : Text} (printed : Printed line)
    (reader : CaptureReader) :
    handleRead reader (lineEnd.printk line) = handleLine reader line := by
  have nonempty : lineEnd.printk line ≠ [] := by
    intro empty
    have gone : line ++ lineEnd.text = [] := List.map_eq_nil_iff.mp empty
    exact printed.nonempty (List.append_eq_nil_iff.mp gone).1
  rw [handleRead, if_neg nonempty, decode_printk lineEnd printed]

def sramTag : Text := "[SRAM".toList

/-- A read that holds an `[SRAM` line. -/
def isSramLine (raw : Bytes) : Bool := decide (sramTag <+: strip (decodeAscii raw))

theorem capture_output_tagged (capture : Capture) :
    ∀ line ∈ captureOutput capture, sramTag <+: line := by
  intro line member
  rw [captureOutput, printCapture, List.mem_append, List.mem_cons, List.mem_append,
    List.mem_singleton, List.mem_singleton] at member
  rcases member with (rfl | data | rfl) | rfl
  · have sram : sramTag <+: beginTag := by decide
    exact sram.trans (begin_line_tag capture)
  · obtain ⟨offset, _, rfl⟩ := List.mem_map.mp data
    have sram : sramTag <+: dataTag := by decide
    exact sram.trans (data_line_tag capture offset)
  · decide
  · decide

theorem filter_tagged (lineEnd : LineEnd) {lines : List Text}
    (tagged : ∀ line ∈ lines, Printed line ∧ sramTag <+: line) :
    (lines.map lineEnd.printk).filter isSramLine = lines.map lineEnd.printk := by
  rw [List.filter_eq_self]
  intro raw member
  obtain ⟨line, known, rfl⟩ := List.mem_map.mp member
  obtain ⟨printed, tag⟩ := tagged line known
  apply decide_eq_true
  rw [decode_printk lineEnd printed]
  exact tag

theorem filter_printed (lineEnd : LineEnd) (capture : Capture) :
    ((captureOutput capture).map lineEnd.printk).filter isSramLine =
      (captureOutput capture).map lineEnd.printk :=
  filter_tagged lineEnd fun line member =>
    ⟨capture_output_printed capture line member, capture_output_tagged capture line member⟩

/-- A line that `read_capture` does not look for passes by. -/
theorem handle_read_untagged {raw : Bytes}
    (untagged : ∀ tag ∈ [beginTag, dataTag, endTag, readyTag], ¬tag <+: strip (decodeAscii raw))
    (reader : CaptureReader) : handleRead reader raw = .go reader := by
  rw [handleRead]
  split_ifs
  · rfl
  · have noEnd : strip (decodeAscii raw) ≠ endTag := by
      intro same
      apply untagged endTag (by simp)
      rw [same]
    rw [handleLine, if_neg (untagged beginTag (by simp)),
      if_neg fun data => untagged dataTag (by simp) data.2, if_neg fun done => noEnd done.2,
      if_neg fun ready => untagged readyTag (by simp) ready.1]

/-- Reads without an `[SRAM` line pass by. -/
theorem handle_read_other {raw : Bytes} (other : isSramLine raw = false) (reader : CaptureReader) :
    handleRead reader raw = .go reader := by
  apply handle_read_untagged
  intro tag member tagged
  have sram : ∀ tag ∈ [beginTag, dataTag, endTag, readyTag], sramTag <+: tag := by decide
  exact of_decide_eq_false other ((sram tag member).trans tagged)

theorem run_read_printed (lineEnd : LineEnd) {lines : List Text} {reads : List Bytes}
    (printed : ∀ line ∈ lines, Printed line)
    (only : reads.filter isSramLine = lines.map lineEnd.printk) (reader : CaptureReader) :
    run handleRead reader reads = run handleLine reader lines := by
  rw [run_filter (fun state raw other => handle_read_other other state) reads reader, only]
  exact run_map (fun state line member => handle_read_printed lineEnd (printed line member) state)
    reader

/-! ## Earlier output -/

/-- Earlier dumps, each cut off behind a number of lines. -/
def cutDumps (earlier : List (Capture × Nat)) : List Text :=
  earlier.flatMap fun dump => (printCapture dump.1).take dump.2

theorem dump_line_goes {capture : Capture} {line : Text} (member : line ∈ printCapture capture)
    (reader : CaptureReader) : ∃ after, handleLine reader line = .go after := by
  rw [printCapture, List.mem_cons, List.mem_append, List.mem_singleton] at member
  rcases member with rfl | data | rfl
  · exact ⟨_, handle_begin (begin_line_tag capture) (begin_fields_line capture)⟩
  · obtain ⟨offset, known, rfl⟩ := List.mem_map.mp data
    by_cases began : reader.began = true
    · exact ⟨_, handle_data_line began known⟩
    · have notReady : ¬readyTag <+: dataLine capture offset := by
        rw [data_line_tokens]
        exact other_tag (by decide) _
      rw [handleLine, if_neg (data_line_not_begin capture offset), if_neg fun data => began data.1,
        if_neg fun done => began done.1, if_neg fun ready => notReady ready.1]
      exact ⟨_, rfl⟩
  · by_cases began : reader.began = true
    · exact ⟨_, handle_end began⟩
    · rw [handleLine, if_neg (by decide), if_neg fun data => began data.1,
        if_neg fun done => began done.1, if_neg fun ready => absurd ready.1 (by decide)]
      exact ⟨_, rfl⟩

theorem mem_cut_dumps {earlier : List (Capture × Nat)} {line : Text}
    (member : line ∈ cutDumps earlier) : ∃ capture, line ∈ printCapture capture := by
  obtain ⟨dump, _, cut⟩ := List.mem_flatMap.mp member
  exact ⟨dump.1, List.mem_of_mem_take cut⟩

/-- `read_capture` has neither returned nor raised. -/
def StillReading (prior : List Bytes) : Prop := (run handleRead startReader prior).2 = none

theorem still_reading_cut_dumps (lineEnd : LineEnd) {earlier : List (Capture × Nat)}
    {prior : List Bytes} (lines : prior.filter isSramLine = (cutDumps earlier).map lineEnd.printk) :
    StillReading prior := by
  have printed : ∀ line ∈ cutDumps earlier, Printed line := by
    intro line member
    obtain ⟨capture, dump⟩ := mem_cut_dumps member
    exact (print_capture_dump capture line dump).printed
  rw [StillReading, run_read_printed lineEnd printed lines]
  apply run_running
  intro reader line member
  obtain ⟨capture, dump⟩ := mem_cut_dumps member
  exact dump_line_goes dump reader

theorem handle_read_turn (reader : CaptureReader) (raw : Bytes) :
    Turn reader (strip (decodeAscii raw)) (handleRead reader raw) := by
  by_cases empty : raw = []
  · rw [handleRead, if_pos empty]
    exact .idle
  · rw [handleRead, if_neg empty]
    exact handle_line_turn reader (strip (decodeAscii raw))

theorem handle_read_size {reader : CaptureReader} (raw : Bytes)
    (size : reader.captured.length = regionBytes) :
    (handleRead reader raw).state.captured.length = regionBytes := by
  have turn := handle_read_turn reader raw
  generalize handleRead reader raw = next at turn ⊢
  cases turn with
  | delivered offset data began tag fields positive fits =>
      exact (store_length _ _ _ (by omega)).trans size
  | idle => exact size
  | refused error => exact size
  | opened address tag fields => exact size
  | closed began same => exact size
  | returned address tag ended known complete => exact size

theorem run_read_size (reads : List Bytes) :
    (run handleRead startReader reads).1.captured.length = regionBytes := by
  have keeps : ∀ (reader : CaptureReader) (raw : Bytes), reader.captured.length = regionBytes →
      True → (handleRead reader raw).state.captured.length = regionBytes :=
    fun reader raw size _ => handle_read_size raw size
  have start : startReader.captured.length = regionBytes := List.length_replicate
  have always : Guarded handleRead (fun _ _ => True) startReader reads :=
    Guarded.of_forall (fun _ _ => trivial) reads startReader
  exact @run_invariant _ _ _ handleRead (fun _ _ => True)
    (fun reader => reader.captured.length = regionBytes) keeps reads startReader start always

/-! ## Lossless capture -/

theorem read_capture_dump {lineEnd : LineEnd} {capture : Capture} {prior reads : List Bytes}
    (reading : StillReading prior)
    (lines : reads.filter isSramLine = (captureOutput capture).map lineEnd.printk)
    (later : List Bytes) :
    readCapture (prior ++ (reads ++ later)) = .ok (capture.region.val, (capture.address : Int)) := by
  have whole := run_read_printed lineEnd (capture_output_printed capture) lines
    (run handleRead startReader prior).1
  have returned := run_capture capture (run_read_size prior)
  rw [← captureOutput, ← whole] at returned
  rw [readCapture, run_append_of_running prior (reads ++ later) startReader reading,
    run_append_of_stopped reads later _ returned, returned]
  rfl

/-- **Lossless capture.** Whatever was read before, a dump whose lines and READY line
`read_capture` still reads gives back its region and address. It still reads after
any number of dumps cut off behind a whole line. -/
theorem serial_capture_lossless (lineEnd : LineEnd) (capture : Capture)
    (prior reads later : List Bytes) (reading : StillReading prior)
    (lines : reads.filter isSramLine = (captureOutput capture).map lineEnd.printk) :
    readCapture (prior ++ (reads ++ later)) = .ok (capture.region.val, (capture.address : Int)) ∧
      ∀ earlier cut, cut.filter isSramLine = (cutDumps earlier).map lineEnd.printk →
        StillReading cut := by
  constructor
  · exact read_capture_dump reading lines later
  · exact fun earlier cut => still_reading_cut_dumps lineEnd

def zeroRegion : Block regionBytes := ⟨List.replicate regionBytes 0, List.length_replicate⟩
def zeroCapture : Capture := ⟨zeroRegion, 0x3ffb0000, by decide⟩

def rampRegion : Block regionBytes :=
  ⟨(List.range regionBytes).map UInt8.ofNat, (List.length_map _).trans List.length_range⟩

def rampCapture : Capture := ⟨rampRegion, 0x3ffc0000, by decide⟩

def bootloaderLine : Bytes := asciiBytes "rst:0x1 (POWERON),boot:0x8 (SPI_FAST_FLASH_BOOT)\r\n"

theorem bootloader_line_other : isSramLine bootloaderLine = false := by decide +kernel

theorem filter_interrupted (lineEnd : LineEnd) (capture : Capture) (count : Nat) {raw : Bytes}
    (other : isSramLine raw = false) :
    (((captureOutput capture).take count).map lineEnd.printk ++
        raw :: ((captureOutput capture).drop count).map lineEnd.printk).filter isSramLine =
      (captureOutput capture).map lineEnd.printk := by
  rw [List.filter_append, List.filter_cons_of_neg (Bool.eq_false_iff.mp other), ← List.filter_append,
    ← List.map_append, List.take_append_drop, filter_printed]

theorem filter_cut_dumps (lineEnd : LineEnd) (earlier : List (Capture × Nat)) :
    ((cutDumps earlier).map lineEnd.printk).filter isSramLine =
      (cutDumps earlier).map lineEnd.printk := by
  apply filter_tagged
  intro line member
  obtain ⟨capture, dump⟩ := mem_cut_dumps member
  have output : line ∈ captureOutput capture := List.mem_append_left _ dump
  exact ⟨capture_output_printed capture line output, capture_output_tagged capture line output⟩

/-- Three lines of a dump of zeros, a reset, and a dump with the bootloader's line behind
forty of its lines. -/
theorem ramp_capture_read :
    readCapture ((bootloaderLine :: (cutDumps [(zeroCapture, 3)]).map LineEnd.crLf.printk) ++
      ((((captureOutput rampCapture).take 40).map LineEnd.crLf.printk ++
        bootloaderLine :: ((captureOutput rampCapture).drop 40).map LineEnd.crLf.printk) ++
          [bootloaderLine])) =
        .ok (rampCapture.region.val, (rampCapture.address : Int)) ∧
      ∀ earlier cut, cut.filter isSramLine = (cutDumps earlier).map LineEnd.crLf.printk →
        StillReading cut := by
  have prior : (bootloaderLine :: (cutDumps [(zeroCapture, 3)]).map LineEnd.crLf.printk).filter
      isSramLine = (cutDumps [(zeroCapture, 3)]).map LineEnd.crLf.printk := by
    rw [List.filter_cons_of_neg (Bool.eq_false_iff.mp bootloader_line_other), filter_cut_dumps]
  exact serial_capture_lossless .crLf rampCapture _ _ [bootloaderLine]
    (still_reading_cut_dumps .crLf prior)
    (filter_interrupted .crLf rampCapture 40 bootloader_line_other)

end BootEntropy.Sram
