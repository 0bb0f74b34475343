import BootEntropy.Lib.Fragments
import BootEntropy.Sram.Lossless

/-!
# Dumps read in fragments

`readline` of the serial port gives back what has arrived when its timeout passes, so
a line may come in several reads. What `read_capture` returns is the last dump unless
that dump's BEGIN line was not read whole.
-/

namespace BootEntropy.Sram

open BootEntropy.Lib

set_option autoImplicit false

/-! ## The device and the port -/

def dumpText (lineEnd : LineEnd) (capture : Capture) : Text :=
  ((printCapture capture).map (· ++ lineEnd.text)).flatten

/-- Earlier dumps, each cut short by a reset behind a number of characters. -/
def earlierText (lineEnd : LineEnd) (earlier : List (Capture × Nat)) : Text :=
  earlier.flatMap fun dump => (dumpText lineEnd dump.1).take dump.2

def deviceOutput (lineEnd : LineEnd) (earlier : List (Capture × Nat)) (capture : Capture) : Text :=
  earlierText lineEnd earlier ++ (dumpText lineEnd capture ++ (readyLine ++ lineEnd.text))

def newline : UInt8 := 10

/-- The reads of `readline` up to the deadline. -/
structure ReadFrom (output : Text) (reads : List Bytes) : Prop where
  inOrder : reads.flatten <+: textBytes output
  unbroken : ∀ raw ∈ reads, Unbroken newline raw

/-! ## What is read as a line -/

/-- A read that is taken for a BEGIN line. -/
def Opening (raw : Bytes) : Prop := beginTag <+: strip (decodeAscii raw)

instance (raw : Bytes) : Decidable (Opening raw) :=
  inferInstanceAs (Decidable (beginTag <+: strip (decodeAscii raw)))

/-- One read has the whole BEGIN line behind the earlier output and is taken for a
BEGIN line. -/
def BeginRead (earlier : Text) (capture : Capture) (reads : List Bytes) : Prop :=
  ∃ before glue ending after,
    reads = before ++ (glue ++ textBytes (beginLine capture) ++ ending) :: after ∧
    before.flatten ++ glue = textBytes earlier ∧
    Opening (glue ++ textBytes (beginLine capture) ++ ending)

/-- A read whose fields do not parse: as a BEGIN line, or as a DATA line behind a
BEGIN line. -/
def Refused (before : List Bytes) (raw : Bytes) : Prop :=
  (Opening raw ∧ ∃ error, beginFields (strip (decodeAscii raw)) = .error error) ∨
  ((∃ opening ∈ before, Opening opening) ∧ dataTag <+: strip (decodeAscii raw) ∧
    ∃ error, dataFields (strip (decodeAscii raw)) = .error error)

def RefusedRead (reads : List Bytes) : Prop :=
  ∃ before raw after, reads = before ++ raw :: after ∧ Refused before raw

def Delivers (raw : Bytes) (index : Nat) : Prop :=
  dataTag <+: strip (decodeAscii raw) ∧ ∃ offset data,
    dataFields (strip (decodeAscii raw)) = .ok (offset, data) ∧
    offset.toNat ≤ index ∧ index < offset.toNat + data.length

/-- No read is the END line, or none is a READY line, or some byte is in no read. -/
def Unfinished (reads : List Bytes) : Prop :=
  (∀ raw ∈ reads, strip (decodeAscii raw) ≠ endTag) ∨
  (∀ raw ∈ reads, ¬readyTag <+: strip (decodeAscii raw)) ∨
  ∃ index < regionBytes, ∀ raw ∈ reads, ¬Delivers raw index

/-! ## One read -/

def Raised (outcome : Outcome) : Prop := ∃ error, outcome = .error error

section Reads

variable {reader : CaptureReader} {raw : Bytes}

theorem handle_read_opening (opening : Opening raw) :
    handleRead reader raw = handleLine reader (strip (decodeAscii raw)) := by
  have nonempty : raw ≠ [] := by
    rintro rfl
    exact absurd opening (by decide)
  rw [handleRead, if_neg nonempty]

theorem handle_read_data (tag : dataTag <+: strip (decodeAscii raw)) :
    handleRead reader raw = handleLine reader (strip (decodeAscii raw)) := by
  have nonempty : raw ≠ [] := by
    rintro rfl
    exact absurd tag (by decide)
  rw [handleRead, if_neg nonempty]

theorem mem_of_tag {tag : Text} {c : Char} (tagged : tag <+: strip (decodeAscii raw))
    (member : c ∈ tag) : c ∈ decodeAscii raw :=
  strip_subset _ (tagged.subset member)

theorem handle_read_plain (plain : '[' ∉ decodeAscii raw) : handleRead reader raw = .go reader := by
  apply handle_read_other
  apply decide_eq_false
  intro tagged
  exact plain (mem_of_tag tagged (by decide))

theorem handle_read_unready (unready : ¬readyTag <+: strip (decodeAscii raw)) :
    (handleRead reader raw).Keeps (fun _ => True) Raised := by
  have turn := handle_read_turn reader raw
  generalize handleRead reader raw = next at turn ⊢
  cases turn with
  | returned address tag ended known complete => exact absurd tag unready
  | refused error => exact ⟨error, rfl⟩
  | idle => trivial
  | opened address tag fields => trivial
  | delivered offset data began tag fields positive fits => trivial
  | closed began same => trivial

theorem handle_read_unended (notEnded : reader.ended ≠ true)
    (other : strip (decodeAscii raw) ≠ endTag) :
    (handleRead reader raw).Keeps (fun after => after.ended ≠ true) Raised := by
  have turn := handle_read_turn reader raw
  generalize handleRead reader raw = next at turn ⊢
  cases turn with
  | closed began same => exact absurd same other
  | returned address tag ended known complete => exact absurd ended notEnded
  | refused error => exact ⟨error, rfl⟩
  | opened address tag fields => exact Bool.false_ne_true
  | idle => exact notEnded
  | delivered offset data began tag fields positive fits => exact notEnded

def Missing (index : Nat) (reader : CaptureReader) : Prop :=
  reader.received ⊆ Finset.range regionBytes ∧ index ∉ reader.received

theorem handle_read_missing {index : Nat} (inside : index < regionBytes)
    (missing : Missing index reader) (other : ¬Delivers raw index) :
    (handleRead reader raw).Keeps (Missing index) Raised := by
  have turn := handle_read_turn reader raw
  generalize handleRead reader raw = next at turn ⊢
  cases turn with
  | idle => exact missing
  | closed began same => exact missing
  | refused error => exact ⟨error, rfl⟩
  | opened address tag fields => exact ⟨Finset.empty_subset _, Finset.notMem_empty index⟩
  | delivered offset data began tag fields positive fits =>
      constructor
      · intro place member
        rcases (mem_write_received reader _ data place).mp member with old | ⟨_, upper⟩
        · exact missing.1 old
        · exact Finset.mem_range.mpr (by omega)
      · intro member
        rcases (mem_write_received reader _ data index).mp member with old | new
        · exact missing.2 old
        · exact other ⟨tag, offset, data, fields, new⟩
  | returned address tag ended known complete =>
      exfalso
      have everything : reader.received = Finset.range regionBytes := by
        apply Finset.eq_of_subset_of_card_le missing.1
        rw [complete, Finset.card_range]
      apply missing.2
      rw [everything]
      exact Finset.mem_range.mpr inside

def Closed (reader : CaptureReader) : Prop := reader.began ≠ true ∧ reader.ended ≠ true

theorem handle_read_closed (closed : Closed reader) (other : ¬Opening raw) :
    (handleRead reader raw).Keeps Closed Raised := by
  have turn := handle_read_turn reader raw
  generalize handleRead reader raw = next at turn ⊢
  cases turn with
  | idle => exact closed
  | refused error => exact ⟨error, rfl⟩
  | opened address tag fields => exact absurd tag other
  | delivered offset data began tag fields positive fits => exact absurd began closed.1
  | closed began same => exact absurd began closed.1
  | returned address tag ended known complete => exact absurd ended closed.2

theorem handle_read_began (began : reader.began = true) :
    (handleRead reader raw).Keeps (fun after => after.began = true) (fun _ => True) := by
  have turn := handle_read_turn reader raw
  generalize handleRead reader raw = next at turn ⊢
  cases turn with
  | idle => exact began
  | opened address tag fields => rfl
  | delivered offset data before tag fields positive fits => exact began
  | closed before same => exact began
  | refused error => trivial
  | returned address tag ended known complete => trivial

theorem handle_opening_began (opening : Opening raw) :
    (handleRead reader raw).Keeps (fun after => after.began = true) (fun _ => True) := by
  have tag : beginTag <+: strip (decodeAscii raw) := opening
  rw [handle_read_opening opening, handleLine, if_pos tag]
  cases beginFields (strip (decodeAscii raw)) with
  | error error => trivial
  | ok address => rfl

end Reads

/-! ## Cut lines -/

theorem not_hex_of_head {token : Text} (head : token.head? ≠ some 'h') (value : Text) :
    splitOnce '=' token ≠ some ("hex".toList, value) := by
  intro entry
  obtain ⟨rest, rfl⟩ := entry_of_split_once entry
  exact head rfl

/-- Tokens of which none is a `hex` entry. -/
theorem no_hex_field {tokens : List Text}
    (other : ∀ token ∈ tokens, ∀ value, splitOnce '=' token ≠ some ("hex".toList, value)) :
    field tokens "hex".toList = none := by
  induction tokens using List.reverseRecOn with
  | nil => rfl
  | append_singleton tokens token ih =>
      rw [field_snoc_other (other token (List.mem_append_right _ (List.mem_singleton_self token)))]
      exact ih fun earlier member => other earlier (List.mem_append_left _ member)

theorem mem_split_words_solid {text token : Text} (solid : ∀ c ∈ text, isSpace c = false)
    (member : token ∈ splitWords text) : token = text := by
  by_cases empty : text = []
  · rw [empty] at member
    cases member
  · rw [split_words_word ⟨solid, empty⟩] at member
    exact List.mem_singleton.mp member

theorem data_fields_headless {offset : Nat} {text : Text}
    (cut : text <+: dataTag ++ ' ' :: (("offset=".toList ++ decimal offset) ++ ' ' :: "hex".toList))
    (tag : dataTag <+: text) : ∃ error, dataFields text = .error error := by
  have word : Word dataTag := by decide
  have solidOffset := (offset_word offset).solid
  have notHex : ∀ token, token <+: "offset=".toList ++ decimal offset →
      ∀ value, splitOnce '=' token ≠ some ("hex".toList, value) := by
    intro token front
    apply not_hex_of_head
    intro head
    obtain ⟨rest, rfl⟩ := List.head?_eq_some_iff.mp head
    have first : 'h' = 'o' := (List.cons_prefix_cons.mp front).1
    exact absurd first (by decide)
  apply data_fields_no_hex
  apply no_hex_field
  obtain ⟨behind, rfl⟩ := tag
  rw [List.prefix_append_right_inj] at cut
  cases behind with
  | nil =>
      rw [List.append_nil, split_words_word word]
      exact List.forall_mem_nil _
  | cons c behind =>
      obtain ⟨rfl, inner⟩ := List.cons_prefix_cons.mp cut
      rw [split_words_cons word, List.tail_cons]
      rcases prefix_of_append inner with part | ⟨rest, rfl, part⟩
      · intro token member
        rw [mem_split_words_solid (fun d known => solidOffset d (part.subset known)) member]
        exact notHex behind part
      · cases rest with
        | nil =>
            rw [List.append_nil, split_words_word (offset_word offset)]
            intro token member
            rw [List.mem_singleton.mp member]
            exact notHex _ List.prefix_rfl
        | cons d rest =>
            obtain ⟨rfl, key⟩ := List.cons_prefix_cons.mp part
            have solid : ∀ e ∈ "hex".toList, isSpace e = false := by decide
            have plain : '=' ∉ "hex".toList := by decide
            rw [split_words_cons (offset_word offset)]
            intro token member
            rcases List.mem_cons.mp member with rfl | later
            · exact notHex _ List.prefix_rfl
            · rw [mem_split_words_solid (fun e known => solid e (key.subset known)) later]
              intro value entry
              rw [split_once_plain fun known => plain (key.subset known)] at entry
              cases entry

theorem data_fields_cut {capture : Capture} {offset : Nat} {text : Text} (small : offset < 10 ^ 4)
    (cut : text <+: dataLine capture offset) (tag : dataTag <+: text) :
    (∃ error, dataFields text = .error error) ∨
      ∃ piece, dataFields text = .ok (offset, piece) ∧ piece <+: capture.region.val.drop offset := by
  have word : Word dataTag := by decide
  have key : "hex=".toList = "hex".toList ++ ['='] := by decide
  have shape (digits : Text) :
      dataTag ++ ' ' :: (("offset=".toList ++ decimal offset) ++ ' ' :: ("hex=".toList ++ digits)) =
      (dataTag ++ ' ' :: (("offset=".toList ++ decimal offset) ++ ' ' :: "hex".toList)) ++
        '=' :: digits := by
    rw [key]
    simp only [List.append_assoc, List.cons_append, List.nil_append]
  rw [data_line_tokens, shape] at cut
  rcases prefix_of_append cut with headless | ⟨rest, rfl, part⟩
  · exact .inl (data_fields_headless headless tag)
  · cases rest with
    | nil =>
        rw [List.append_nil] at tag ⊢
        exact .inl (data_fields_headless List.prefix_rfl tag)
    | cons c digits =>
        obtain ⟨rfl, known⟩ := List.cons_prefix_cons.mp part
        have solid : Word ("hex=".toList ++ digits) := by
          constructor
          · intro d member
            apply (hex_word _).solid d
            rcases List.mem_append.mp member with front | digit
            · exact List.mem_append_left _ front
            · exact List.mem_append_right _ (known.subset digit)
          · exact List.append_ne_nil_of_left_ne_nil (by decide) _
        rw [← shape, @data_fields_of_tokens _ digits _ (decimal_short (small.trans (by decide)))]
        · rcases from_hex_prefix known with refused | ⟨piece, read, inside⟩
          · rw [refused]
            exact .inl ⟨_, rfl⟩
          · rw [read]
            exact .inr ⟨piece, rfl, inside.trans (List.take_prefix _ _)⟩
        · rw [split_words_cons word, split_words_cons (offset_word offset), split_words_word solid]
          rfl

/-- A BEGIN line read whole says its address, whatever is glued to its front. -/
theorem begin_fields_glued (capture : Capture) (glue : Text) {blank : Text}
    (spaces : ∀ c ∈ blank, isSpace c = true) :
    beginFields (strip (glue ++ beginLine capture ++ blank)) = .ok capture.address := by
  have size : Word ("bytes=".toList ++ decimal regionBytes) := by decide
  have tagged : splitWords (glue ++ beginTag) ≠ [] :=
    split_words_ne_nil (c := '[') (List.mem_append_right glue (by decide)) (by decide)
  apply begin_fields_of_tokens
  rw [split_words_strip, split_words_append_blank _ spaces, begin_line_tokens, ← List.append_assoc,
    split_words_space _ _ (by decide), split_words_cons size,
    split_words_word (address_word capture.address), List.tail_append_of_ne_nil tagged]
  rw [List.append_assoc]
  rfl

/-! ## Behind the BEGIN line -/

def dumpRest (capture : Capture) : List Text :=
  (dataOffsets.map (dataLine capture) ++ [endTag]) ++ [readyLine]

structure Sound (capture : Capture) (reader : CaptureReader) : Prop where
  faithful : Faithful capture reader
  address : reader.address = some (capture.address : Int)

/-- An outcome that, if a pair is returned, is that of the dump. -/
def Right (capture : Capture) (outcome : Outcome) : Prop :=
  ∀ captured address, outcome = .ok (captured, address) →
    captured = capture.region.val ∧ address = capture.address

theorem Raised.right {capture : Capture} {outcome : Outcome} (raised : Raised outcome) :
    Right capture outcome := by
  obtain ⟨error, rfl⟩ := raised
  exact fun _ _ returned => nomatch returned

/-- A piece of one of the lines behind the BEGIN line: its front, or without a bracket. -/
def InDump (lineEnd : LineEnd) (capture : Capture) (raw : Bytes) : Prop :=
  '[' ∉ decodeAscii raw ∨ ∃ line ∈ dumpRest capture, raw <+: lineEnd.printk line

theorem dump_rest_printed {capture : Capture} {line : Text} (member : line ∈ dumpRest capture) :
    Printed line := by
  apply capture_output_printed capture
  exact List.mem_cons_of_mem (beginLine capture) member

theorem strip_read_cut {lineEnd : LineEnd} {line : Text} {raw : Bytes} (printed : Printed line)
    (front : raw <+: lineEnd.printk line) : strip (decodeAscii raw) <+: line := by
  have ascii : ∀ c ∈ line ++ lineEnd.text, c.toNat < 0x80 := by
    intro c member
    rcases List.mem_append.mp member with text | blank
    · exact printed.ascii c text
    · exact line_end_ascii lineEnd c blank
  have decoded : decodeAscii raw <+: line ++ lineEnd.text := by
    rw [← decode_text_bytes ascii]
    exact front.map _
  exact strip_prefix decoded printed.first printed.nonempty (line_end_spaces lineEnd)

theorem in_dump_not_begin {lineEnd : LineEnd} {capture : Capture} {raw : Bytes}
    (part : InDump lineEnd capture raw) : ¬beginTag <+: strip (decodeAscii raw) := by
  intro tag
  rcases part with plain | ⟨line, member, front⟩
  · exact plain (mem_of_tag tag (by decide))
  · have begins := tag.trans (strip_read_cut (dump_rest_printed member) front)
    rw [dumpRest, List.mem_append, List.mem_append, List.mem_singleton, List.mem_singleton] at member
    rcases member with (data | rfl) | rfl
    · obtain ⟨offset, _, rfl⟩ := List.mem_map.mp data
      exact data_line_not_begin capture offset begins
    · exact absurd begins (by decide)
    · exact absurd begins (by decide)

theorem in_dump_data {lineEnd : LineEnd} {capture : Capture} {raw : Bytes}
    (part : InDump lineEnd capture raw) (tag : dataTag <+: strip (decodeAscii raw))
    {offset : Int} {piece : Bytes} (fields : dataFields (strip (decodeAscii raw)) = .ok (offset, piece)) :
    offset.toNat ≤ regionBytes ∧ piece <+: capture.region.val.drop offset.toNat := by
  rcases part with plain | ⟨line, member, front⟩
  · exact absurd (mem_of_tag tag (by decide)) plain
  · have cut := strip_read_cut (dump_rest_printed member) front
    rw [dumpRest, List.mem_append, List.mem_append, List.mem_singleton, List.mem_singleton] at member
    rcases member with (data | rfl) | rfl
    · obtain ⟨known, member, rfl⟩ := List.mem_map.mp data
      have within := mem_data_offsets member
      have small : known < 10 ^ 4 := by
        rw [regionBytes, dataBytesPerLine] at within
        omega
      rcases data_fields_cut small cut tag with ⟨error, refused⟩ | ⟨bytes, read, inside⟩
      · rw [refused] at fields
        cases fields
      · rw [read] at fields
        obtain ⟨rfl, rfl⟩ := Prod.mk.inj (Except.ok.inj fields)
        rw [Int.toNat_natCast]
        exact ⟨by omega, inside⟩
    · exact absurd (tag.trans cut) (by decide)
    · exact absurd (tag.trans cut) (by decide)

theorem handle_read_sound {lineEnd : LineEnd} {capture : Capture} {reader : CaptureReader}
    {raw : Bytes} (sound : Sound capture reader) (part : InDump lineEnd capture raw) :
    (handleRead reader raw).Keeps (Sound capture) (Right capture) := by
  have faithful := sound.faithful
  have turn := handle_read_turn reader raw
  generalize handleRead reader raw = next at turn ⊢
  cases turn with
  | idle => exact sound
  | refused error => exact Raised.right ⟨error, rfl⟩
  | opened address tag fields => exact absurd tag (in_dump_not_begin part)
  | delivered offset data began tag fields positive fits =>
      obtain ⟨start, inside⟩ := in_dump_data part tag fields
      exact ⟨faithful.write start inside, sound.address⟩
  | closed began same => exact ⟨⟨faithful.size, faithful.inside, faithful.same⟩, sound.address⟩
  | returned address tag ended known complete =>
      intro captured shown returned
      obtain ⟨rfl, rfl⟩ := Prod.mk.inj (Except.ok.inj returned)
      rw [sound.address] at known
      exact ⟨faithful.complete complete, (Option.some.inj known).symm⟩

/-! ## The output and its reads -/

theorem dump_text_inner {lineEnd : LineEnd} {capture : Capture} :
    ∀ c ∈ dumpText lineEnd capture, c.toNat < 0x80 ∧ c ≠ 'Y' := by
  have blank : ∀ c ∈ lineEnd.text, c.toNat < 0x80 ∧ c ≠ 'Y' := by
    cases lineEnd with
    | lf => decide
    | crLf => decide
  intro c member
  obtain ⟨text, known, inside⟩ := List.mem_flatten.mp member
  obtain ⟨line, printed, rfl⟩ := List.mem_map.mp known
  rcases List.mem_append.mp inside with front | back
  · obtain ⟨rest, rfl, inner⟩ := (print_capture_dump capture line printed).bracket
    rcases List.mem_cons.mp front with rfl | later
    · decide
    · exact ⟨(inner c later).ascii, (inner c later).noReady⟩
  · exact blank c back

theorem earlier_text_inner {lineEnd : LineEnd} {earlier : List (Capture × Nat)} :
    ∀ c ∈ earlierText lineEnd earlier, c.toNat < 0x80 ∧ c ≠ 'Y' := by
  intro c member
  obtain ⟨dump, _, cut⟩ := List.mem_flatMap.mp member
  exact dump_text_inner c (List.mem_of_mem_take cut)

theorem device_output_ascii {lineEnd : LineEnd} {earlier : List (Capture × Nat)} {capture : Capture} :
    ∀ c ∈ deviceOutput lineEnd earlier capture, c.toNat < 0x80 := by
  have ready : ∀ c ∈ readyLine, c.toNat < 0x80 := ready_line_printed.ascii
  intro c member
  simp only [deviceOutput, List.mem_append] at member
  rcases member with old | dump | last | blank
  · exact (earlier_text_inner c old).1
  · exact (dump_text_inner c dump).1
  · exact ready c last
  · exact line_end_ascii lineEnd c blank

theorem device_output_bytes (lineEnd : LineEnd) (earlier : List (Capture × Nat)) (capture : Capture) :
    textBytes (deviceOutput lineEnd earlier capture) =
      textBytes (earlierText lineEnd earlier) ++ (textBytes (beginLine capture) ++
        (textBytes lineEnd.text ++ ((dumpRest capture).map lineEnd.printk).flatten)) := by
  have lines (texts : List Text) :
      textBytes (texts.map (· ++ lineEnd.text)).flatten = (texts.map lineEnd.printk).flatten := by
    rw [textBytes, List.map_flatten, List.map_map]
    rfl
  have whole : dumpText lineEnd capture ++ (readyLine ++ lineEnd.text) =
      beginLine capture ++ (lineEnd.text ++ ((dumpRest capture).map (· ++ lineEnd.text)).flatten) := by
    simp only [dumpText, printCapture, dumpRest, List.map_cons, List.map_append, List.map_nil,
      List.flatten_cons, List.flatten_append, List.flatten_nil, List.append_assoc, List.append_nil]
  rw [deviceOutput, whole, text_bytes_append, text_bytes_append, text_bytes_append, lines]

section Parts

variable {lineEnd : LineEnd} {earlier : List (Capture × Nat)} {capture : Capture}
  {before after : List Bytes} {raw : Bytes}

/-- No read of the earlier output has a `Y`. -/
theorem unready_of_earlier {front : Text} (unready : 'Y' ∉ front)
    (part : decodeAscii before.flatten <+: front) : ∀ raw ∈ before, 'Y' ∉ decodeAscii raw := by
  intro raw member letter
  apply unready
  apply part.subset
  exact ((List.infix_of_mem_flatten member).map _).subset letter

/-- No read in front of a bracket has a `Y`. -/
theorem unready_of_bracket
    (reads : ReadFrom (deviceOutput lineEnd earlier capture) (before ++ raw :: after))
    (bracket : '[' ∈ decodeAscii raw) : ∀ raw ∈ before, 'Y' ∉ decodeAscii raw := by
  have split : readyLine ++ lineEnd.text =
      "[SRAM_READ".toList ++ ("Y] command=FILL_HEX_BYTE".toList ++ lineEnd.text) := by
    rw [← List.append_assoc]
    rfl
  have absent : '[' ∉ "Y] command=FILL_HEX_BYTE".toList ++ lineEnd.text := by
    cases lineEnd with
    | lf => decide
    | crLf => decide
  have part : decodeAscii before.flatten ++ decodeAscii raw <+:
      (earlierText lineEnd earlier ++ (dumpText lineEnd capture ++ "[SRAM_READ".toList)) ++
        ("Y] command=FILL_HEX_BYTE".toList ++ lineEnd.text) := by
    have decoded : decodeAscii (before ++ raw :: after).flatten <+:
        deviceOutput lineEnd earlier capture := by
      have ascii := @device_output_ascii lineEnd earlier capture
      rw [← decode_text_bytes ascii]
      exact reads.inOrder.map _
    rw [List.flatten_append, List.flatten_cons, decode_ascii_append, decode_ascii_append,
      ← List.append_assoc, deviceOutput, split] at decoded
    rw [List.append_assoc, List.append_assoc]
    exact (List.prefix_append _ _).trans decoded
  apply unready_of_earlier _ (begins_in_front part bracket absent)
  have literal : 'Y' ∉ "[SRAM_READ".toList := by decide
  simp only [List.mem_append, not_or]
  exact ⟨fun letter => (earlier_text_inner _ letter).2 rfl,
    fun letter => (dump_text_inner _ letter).2 rfl, literal⟩

theorem line_end_bytes : (textBytes lineEnd.text).getLast? = some newline := by
  cases lineEnd with
  | lf => decide
  | crLf => decide

theorem printk_ends (line : Text) : (lineEnd.printk line).getLast? = some newline := by
  have nonempty : textBytes lineEnd.text ≠ [] := by
    cases lineEnd with
    | lf => decide
    | crLf => decide
  rw [LineEnd.printk, text_bytes_append, List.getLast?_append_of_ne_nil _ nonempty, line_end_bytes]

theorem printk_tail_plain {line : Text} (member : line ∈ dumpRest capture) :
    '[' ∉ decodeAscii (lineEnd.printk line).tail := by
  have bracket : ∃ rest, line = '[' :: rest ∧ '[' ∉ rest := by
    rw [dumpRest, List.mem_append, List.mem_singleton] at member
    rcases member with dump | rfl
    · obtain ⟨rest, same, inner⟩ :=
        (print_capture_dump capture line (List.mem_cons_of_mem _ dump)).bracket
      exact ⟨rest, same, fun inside => (inner _ inside).noBracket rfl⟩
    · exact ⟨readyLine.tail, by decide, by decide⟩
  obtain ⟨rest, same, plain⟩ := bracket
  have ascii : ∀ c ∈ rest ++ lineEnd.text, c.toNat < 0x80 := by
    intro c inside
    rcases List.mem_append.mp inside with front | blank
    · apply (dump_rest_printed member).ascii c
      rw [same]
      exact List.mem_cons_of_mem _ front
    · exact line_end_ascii lineEnd c blank
  have tail : (lineEnd.printk line).tail = textBytes (rest ++ lineEnd.text) := by
    rw [same]
    rfl
  rw [tail, decode_text_bytes ascii, List.mem_append, not_or]
  refine ⟨plain, ?_⟩
  cases lineEnd with
  | lf => decide
  | crLf => decide

theorem in_dump_of_begin_read {glue ending : Bytes}
    (reads : ReadFrom (deviceOutput lineEnd earlier capture)
      (before ++ (glue ++ textBytes (beginLine capture) ++ ending) :: after))
    (position : before.flatten ++ glue = textBytes (earlierText lineEnd earlier)) :
    ending <+: textBytes lineEnd.text ∧ ∀ raw ∈ after, InDump lineEnd capture raw := by
  have part : ending ++ after.flatten <+:
      textBytes lineEnd.text ++ ((dumpRest capture).map lineEnd.printk).flatten := by
    have inOrder := reads.inOrder
    rw [device_output_bytes, ← position, List.flatten_append, List.flatten_cons] at inOrder
    simp only [List.append_assoc, List.prefix_append_right_inj] at inOrder
    exact inOrder
  have unbroken : Unbroken newline ending :=
    (reads.unbroken _ (List.mem_append_right _ (List.mem_cons_self ..))).behind
  have inside : ending <+: textBytes lineEnd.text :=
    ends_in_record line_end_bytes unbroken ((List.prefix_append _ _).trans part)
  refine ⟨inside, ?_⟩
  obtain ⟨current, split⟩ := inside
  rw [← split, List.append_assoc, List.prefix_append_right_inj] at part
  have ends : ∀ record ∈ (dumpRest capture).map lineEnd.printk, record.getLast? = some newline := by
    intro record member
    obtain ⟨line, _, rfl⟩ := List.mem_map.mp member
    exact printk_ends line
  intro raw member
  rcases fragments_in_records
    (fun fragment known => reads.unbroken fragment (List.mem_append_right _ (List.mem_cons_of_mem _ known)))
    ends (ends_of_suffix line_end_bytes split) part raw member with here | ⟨record, known, place⟩
  · left
    have blank : '[' ∉ decodeAscii (textBytes lineEnd.text) := by
      cases lineEnd with
      | lf => decide
      | crLf => decide
    intro bracket
    apply blank
    rw [← split, decode_ascii_append]
    exact List.mem_append_right _ ((here.map _).subset bracket)
  · obtain ⟨line, printed, rfl⟩ := List.mem_map.mp known
    rcases place with front | tail
    · exact .inr ⟨line, printed, front⟩
    · exact .inl fun bracket => printk_tail_plain printed ((tail.map _).subset bracket)

end Parts

/-! ## Runs -/

/-- Reads without a `Y` return nothing, so what comes behind them decides. -/
theorem right_behind {capture : Capture} {before rest : List Bytes}
    (unready : ∀ raw ∈ before, 'Y' ∉ decodeAscii raw)
    (behind : (run handleRead startReader before).2 = none →
      ∀ outcome, (run handleRead (run handleRead startReader before).1 rest).2 = some outcome →
        Right capture outcome) : Right capture (readCapture (before ++ rest)) := by
  have early := (@run_keeps _ _ _ handleRead (fun raw => 'Y' ∉ decodeAscii raw) (fun _ => True)
    Raised (fun _ _ _ letters => handle_read_unready fun tag => letters (mem_of_tag tag (by decide)))
    before unready startReader trivial).2
  cases first : (run handleRead startReader before).2 with
  | some outcome =>
      rw [readCapture, run_append_of_stopped before rest startReader first, first]
      exact (early outcome first).right
  | none =>
      rw [readCapture, run_append_of_running before rest startReader first]
      cases second : (run handleRead (run handleRead startReader before).1 rest).2 with
      | some outcome => exact behind first outcome second
      | none => exact Raised.right ⟨_, rfl⟩

theorem run_began {before : List Bytes} (running : (run handleRead startReader before).2 = none)
    (opened : ∃ opening ∈ before, Opening opening) :
    (run handleRead startReader before).1.began = true := by
  obtain ⟨opening, member, tag⟩ := opened
  obtain ⟨front, rest, rfl⟩ := List.append_of_mem member
  cases first : (run handleRead startReader front).2 with
  | some outcome =>
      rw [run_append_of_stopped front _ startReader first, first] at running
      cases running
  | none =>
      rw [run_append_of_running front _ startReader first] at running ⊢
      have begun := @handle_opening_began (run handleRead startReader front).1 opening tag
      rw [run] at running ⊢
      cases taken : handleRead (run handleRead startReader front).1 opening with
      | stop after outcome =>
          rw [taken] at running
          cases running
      | go after =>
          rw [taken] at running begun
          exact (run_keeps (fun _ _ before _ => handle_read_began before) (fun _ _ => trivial) after
            begun).1 running

theorem handle_refused {before : List Bytes} {reader : CaptureReader} {raw : Bytes}
    (refused : Refused before raw)
    (began : (∃ opening ∈ before, Opening opening) → reader.began = true) :
    ∃ error, handleRead reader raw = .stop reader (.error error) := by
  rcases refused with ⟨opening, error, fields⟩ | ⟨opened, tag, error, fields⟩
  · have tag : beginTag <+: strip (decodeAscii raw) := opening
    rw [handle_read_opening opening, handleLine, if_pos tag, fields]
    exact ⟨error, rfl⟩
  · have notBegin : ¬beginTag <+: strip (decodeAscii raw) := by
      obtain ⟨rest, same⟩ := tag
      rw [← same]
      exact other_tag (by decide) rest
    rw [handle_read_data tag, handleLine, if_neg notBegin, if_pos ⟨began opened, tag⟩, fields]
    exact ⟨error, rfl⟩

theorem bracket_of_refused {before : List Bytes} {raw : Bytes} (refused : Refused before raw) :
    '[' ∈ decodeAscii raw := by
  rcases refused with ⟨opening, _⟩ | ⟨_, tag, _⟩
  · exact mem_of_tag opening (by decide)
  · exact mem_of_tag tag (by decide)

section Outcomes

variable {lineEnd : LineEnd} {earlier : List (Capture × Nat)} {capture : Capture} {reads : List Bytes}

theorem right_of_raised {kind : Bytes → Prop} {invariant : CaptureReader → Prop}
    (keeps : ∀ reader raw, invariant reader → kind raw →
      (handleRead reader raw).Keeps invariant Raised) (start : invariant startReader)
    (kinds : ∀ raw ∈ reads, kind raw) : Right capture (readCapture reads) := by
  have raised := (run_keeps keeps kinds startReader start).2
  rw [readCapture]
  cases returned : (run handleRead startReader reads).2 with
  | none => exact Raised.right ⟨_, rfl⟩
  | some outcome => exact (raised outcome returned).right

theorem right_of_no_opening (unopened : ∀ raw ∈ reads, ¬Opening raw) :
    Right capture (readCapture reads) := by
  have keeps : ∀ reader raw, Closed reader → ¬Opening raw →
      (handleRead reader raw).Keeps Closed Raised :=
    fun reader raw closed other => handle_read_closed closed other
  exact right_of_raised keeps ⟨by decide, by decide⟩ unopened

theorem right_of_unfinished (unfinished : Unfinished reads) : Right capture (readCapture reads) := by
  rcases unfinished with noEnd | noReady | ⟨index, inside, lost⟩
  · have keeps : ∀ (reader : CaptureReader) raw, reader.ended ≠ true →
        strip (decodeAscii raw) ≠ endTag →
        (handleRead reader raw).Keeps (fun after => after.ended ≠ true) Raised :=
      fun reader raw notEnded other => handle_read_unended notEnded other
    exact right_of_raised keeps (by decide) noEnd
  · have keeps : ∀ (reader : CaptureReader) raw, True → ¬readyTag <+: strip (decodeAscii raw) →
        (handleRead reader raw).Keeps (fun _ => True) Raised :=
      fun reader raw _ other => handle_read_unready other
    exact right_of_raised keeps trivial noReady
  · have keeps : ∀ reader raw, Missing index reader → ¬Delivers raw index →
        (handleRead reader raw).Keeps (Missing index) Raised :=
      fun reader raw missing other => handle_read_missing inside missing other
    exact right_of_raised keeps ⟨Finset.empty_subset _, Finset.notMem_empty index⟩ lost

theorem right_of_refused (source : ReadFrom (deviceOutput lineEnd earlier capture) reads)
    (refused : RefusedRead reads) : Right capture (readCapture reads) := by
  obtain ⟨before, raw, after, rfl, refused⟩ := refused
  apply right_behind (unready_of_bracket source (bracket_of_refused refused))
  intro running outcome returned
  obtain ⟨error, stopped⟩ := handle_refused refused (run_began running)
  rw [run, stopped] at returned
  exact Raised.right ⟨error, (Option.some.inj returned).symm⟩

theorem right_of_begin_read (source : ReadFrom (deviceOutput lineEnd earlier capture) reads)
    (begins : BeginRead (earlierText lineEnd earlier) capture reads) :
    Right capture (readCapture reads) := by
  obtain ⟨before, glue, ending, after, rfl, position, opening⟩ := begins
  obtain ⟨inside, parts⟩ := in_dump_of_begin_read source position
  have spaces : ∀ c ∈ decodeAscii ending, isSpace c = true := by
    intro c member
    apply line_end_spaces lineEnd
    rw [← decode_text_bytes (line_end_ascii lineEnd)]
    exact (inside.map _).subset member
  have decoded : decodeAscii (glue ++ textBytes (beginLine capture) ++ ending) =
      decodeAscii glue ++ beginLine capture ++ decodeAscii ending := by
    rw [decode_ascii_append, decode_ascii_append,
      decode_text_bytes (begin_line_dump capture).printed.ascii]
  have fields := begin_fields_glued capture (decodeAscii glue) spaces
  rw [← decoded] at fields
  have front : decodeAscii before.flatten <+: earlierText lineEnd earlier := by
    rw [← decode_text_bytes fun c member => (earlier_text_inner c member).1, ← position]
    exact (List.prefix_append _ _).map _
  apply right_behind (unready_of_earlier (fun letter => (earlier_text_inner _ letter).2 rfl) front)
  intro _
  rw [run, handle_read_opening opening, handle_begin opening fields]
  apply (run_keeps (fun _ _ => handle_read_sound) parts _ _).2
  constructor
  · exact ⟨run_read_size before, Finset.empty_subset _,
      fun index none => absurd none (Finset.notMem_empty index)⟩
  · rfl

end Outcomes

/-! ## Soundness -/

/-- **Soundness under partial reads.** A pair that `read_capture` returns is the last
dump's region and address if that dump's BEGIN line came in one read, or if no read
was taken for a BEGIN line, or one was refused, or the reading was not finished. -/
theorem partial_capture_sound (lineEnd : LineEnd) (earlier : List (Capture × Nat))
    (capture : Capture) (reads : List Bytes)
    (source : ReadFrom (deviceOutput lineEnd earlier capture) reads)
    (intact : BeginRead (earlierText lineEnd earlier) capture reads ∨
      (∀ raw ∈ reads, ¬Opening raw) ∨ RefusedRead reads ∨ Unfinished reads) :
    ∀ captured address, readCapture reads = .ok (captured, address) →
      captured = capture.region.val ∧ address = capture.address := by
  rcases intact with begins | unopened | refused | unfinished
  · exact right_of_begin_read source begins
  · exact right_of_no_opening unopened
  · exact right_of_refused source refused
  · exact right_of_unfinished unfinished

/-- The BEGIN line in two reads, cut behind some digits of the address. -/
def cutReads (lineEnd : LineEnd) (shorter : Capture) (rest : Text) : List Bytes :=
  textBytes (beginLine shorter) :: textBytes (rest ++ lineEnd.text) ::
    (dumpRest shorter).map lineEnd.printk

section CutAddress

variable {capture shorter : Capture} {rest : Text}

theorem pointer_text_inner (address : Nat) : ∀ c ∈ pointerText address, InnerChar c := by
  have zeroX : ∀ c ∈ "0x".toList, InnerChar c := by decide
  intro c member
  rcases List.mem_append.mp member with front | digit
  · exact zeroX c front
  · exact digits_inner (by decide) (by decide) _ c digit

theorem line_end_inner (lineEnd : LineEnd) : '[' ∉ lineEnd.text ∧ '\n' ∉ lineEnd.text.dropLast := by
  cases lineEnd with
  | lf => decide
  | crLf => decide

theorem unbroken_text {text : Text} (ascii : ∀ c ∈ text, c.toNat < 0x80)
    (oneLine : '\n' ∉ text.dropLast) : Unbroken newline (textBytes text) := by
  intro inside
  apply oneLine
  rw [textBytes, ← List.map_dropLast] at inside
  have decoded : '\n' ∈ decodeAscii (textBytes text.dropLast) := List.mem_map.mpr ⟨newline, inside, rfl⟩
  rwa [decode_text_bytes fun c member => ascii c (List.dropLast_subset text member)] at decoded

theorem unbroken_line (lineEnd : LineEnd) {text : Text} (ascii : ∀ c ∈ text, c.toNat < 0x80)
    (oneLine : '\n' ∉ text) : Unbroken newline (textBytes (text ++ lineEnd.text)) := by
  have nonempty : lineEnd.text ≠ [] := by
    cases lineEnd with
    | lf => decide
    | crLf => decide
  apply unbroken_text
  · intro c member
    rcases List.mem_append.mp member with front | blank
    · exact ascii c front
    · exact line_end_ascii lineEnd c blank
  · rw [List.dropLast_append_of_ne_nil nonempty, List.mem_append, not_or]
    exact ⟨oneLine, (line_end_inner lineEnd).2⟩

theorem capture_output_one_line {line : Text} (member : line ∈ captureOutput capture) :
    '\n' ∉ line := by
  rcases List.mem_append.mp member with dump | ready
  · obtain ⟨rest, rfl, inner⟩ := (print_capture_dump capture line dump).bracket
    rw [List.mem_cons, not_or]
    exact ⟨by decide, fun inside => (inner _ inside).noNewline rfl⟩
  · rw [List.mem_singleton.mp ready]
    decide

theorem cut_reads_source (lineEnd : LineEnd) (same : shorter.region = capture.region)
    (cut : pointerText capture.address = pointerText shorter.address ++ rest) :
    ReadFrom (deviceOutput lineEnd [] capture) (cutReads lineEnd shorter rest) := by
  have inner : ∀ c ∈ rest, InnerChar c := by
    intro c member
    apply pointer_text_inner capture.address c
    rw [cut]
    exact List.mem_append_right _ member
  have begins : beginLine capture = beginLine shorter ++ rest := by
    have behind (front : Text) : front ++ pointerText capture.address =
        front ++ pointerText shorter.address ++ rest := by
      rw [cut, List.append_assoc]
    unfold beginLine
    exact behind _
  have lines : dumpRest capture = dumpRest shorter := by
    have data : dataLine capture = dataLine shorter := by
      funext offset
      unfold dataLine
      rw [same]
    unfold dumpRest
    rw [data]
  constructor
  · have whole : (cutReads lineEnd shorter rest).flatten =
        textBytes (deviceOutput lineEnd [] capture) := by
      rw [device_output_bytes, begins, lines, cutReads, List.flatten_cons, List.flatten_cons,
        text_bytes_append, text_bytes_append, List.append_assoc, List.append_assoc]
      rfl
    rw [whole]
  · intro raw member
    rcases List.mem_cons.mp member with rfl | member
    · apply unbroken_text (begin_line_dump shorter).printed.ascii
      intro inside
      have first : beginLine shorter ∈ captureOutput shorter := List.mem_cons_self ..
      exact capture_output_one_line first (List.dropLast_subset _ inside)
    rcases List.mem_cons.mp member with rfl | member
    · exact unbroken_line lineEnd (fun c known => (inner c known).ascii)
        fun known => (inner _ known).noNewline rfl
    · obtain ⟨line, known, rfl⟩ := List.mem_map.mp member
      have output : line ∈ captureOutput shorter := List.mem_cons_of_mem (beginLine shorter) known
      exact unbroken_line lineEnd (dump_rest_printed known).ascii (capture_output_one_line output)

theorem cut_address_returned (lineEnd : LineEnd)
    (cut : pointerText capture.address = pointerText shorter.address ++ rest) :
    readCapture (cutReads lineEnd shorter rest) =
      .ok (shorter.region.val, (shorter.address : Int)) := by
  have printed := (begin_line_dump shorter).printed
  have line : strip (decodeAscii (textBytes (beginLine shorter))) = beginLine shorter :=
    decode_text printed
  have opening : Opening (textBytes (beginLine shorter)) := by
    rw [Opening, line]
    exact begin_line_tag shorter
  have plain : '[' ∉ decodeAscii (textBytes (rest ++ lineEnd.text)) := by
    have inner : ∀ c ∈ rest, InnerChar c := by
      intro c member
      apply pointer_text_inner capture.address c
      rw [cut]
      exact List.mem_append_right _ member
    rw [decode_text_bytes, List.mem_append, not_or]
    · exact ⟨fun known => (inner _ known).noBracket rfl, (line_end_inner lineEnd).1⟩
    · intro c member
      rcases List.mem_append.mp member with front | blank
      · exact (inner c front).ascii
      · exact line_end_ascii lineEnd c blank
  have returned := @run_capture shorter startReader List.length_replicate
  have output : printCapture shorter ++ [readyLine] = beginLine shorter :: dumpRest shorter := rfl
  rw [output, run, handle_begin (begin_line_tag shorter) (begin_fields_line shorter)] at returned
  have whole : run handleRead startReader (cutReads lineEnd shorter rest) = run handleRead
      { startReader with address := some (shorter.address : Int), began := true }
      ((dumpRest shorter).map lineEnd.printk) := by
    rw [cutReads, run, handle_read_opening opening, line,
      handle_begin (begin_line_tag shorter) (begin_fields_line shorter)]
    dsimp only
    rw [run, handle_read_plain plain]
    rfl
  rw [readCapture, whole, run_map fun state line known =>
    handle_read_printed lineEnd (dump_rest_printed known) state]
  exact congrArg (Option.getD · _) returned

end CutAddress

def shortCapture : Capture := ⟨zeroRegion, 0x3ffb, by decide⟩

/-- The address `0x3ffb0000`, cut behind four of its digits, is returned as `0x3ffb`. -/
theorem cut_address_unsound :
    ¬∀ (lineEnd : LineEnd) (earlier : List (Capture × Nat)) (capture : Capture) (reads : List Bytes),
      ReadFrom (deviceOutput lineEnd earlier capture) reads →
        ∀ captured address, readCapture reads = .ok (captured, address) →
          captured = capture.region.val ∧ address = capture.address := by
  intro sound
  have cut : pointerText zeroCapture.address = pointerText shortCapture.address ++ "0000".toList := by
    decide
  have returned := cut_address_returned .crLf cut
  have same : shortCapture.region = zeroCapture.region := rfl
  have wrong := (sound .crLf [] zeroCapture _ (cut_reads_source .crLf same cut)
    shortCapture.region.val (shortCapture.address : Int) returned).2
  have shown : (shortCapture.address : Int) ≠ zeroCapture.address := by decide
  exact shown wrong

/-! ## A dump read in parts -/

theorem handle_read_text {line : Text} (printed : Printed line) (reader : CaptureReader) :
    handleRead reader (textBytes line) = handleLine reader line := by
  have nonempty : textBytes line ≠ [] := mt List.map_eq_nil_iff.mp printed.nonempty
  rw [handleRead, if_neg nonempty, decode_text printed]

/-- A dump whose first DATA line is read without its line end. -/
def partedDump (lineEnd : LineEnd) (capture : Capture) : List Bytes :=
  lineEnd.printk (beginLine capture) :: textBytes (dataLine capture 0) ::
    textBytes lineEnd.text :: (dumpRest capture).tail.map lineEnd.printk

theorem dump_rest_first (capture : Capture) :
    dumpRest capture = dataLine capture 0 :: (dumpRest capture).tail := rfl

theorem parted_dump_flatten (lineEnd : LineEnd) (capture : Capture) :
    (partedDump lineEnd capture).flatten = textBytes (beginLine capture) ++
      (textBytes lineEnd.text ++ ((dumpRest capture).map lineEnd.printk).flatten) := by
  have parts (text : Text) : lineEnd.printk text = textBytes text ++ textBytes lineEnd.text :=
    text_bytes_append _ _
  rw [dump_rest_first, partedDump, List.map_cons]
  simp only [List.flatten_cons, parts, List.append_assoc]

theorem first_data_line_known (capture : Capture) : dataLine capture 0 ∈ captureOutput capture := by
  have first : dataLine capture 0 ∈ dumpRest capture := by
    rw [dump_rest_first]
    exact List.mem_cons_self ..
  exact List.mem_cons_of_mem (beginLine capture) first

theorem parted_dump_unbroken (lineEnd : LineEnd) (capture : Capture) :
    ∀ raw ∈ partedDump lineEnd capture, Unbroken newline raw := by
  have whole {line : Text} (known : line ∈ captureOutput capture) :
      Unbroken newline (lineEnd.printk line) :=
    unbroken_line lineEnd (capture_output_printed capture line known).ascii
      (capture_output_one_line known)
  have first := first_data_line_known capture
  rw [partedDump]
  simp only [List.forall_mem_cons, List.forall_mem_map]
  refine ⟨whole (List.mem_cons_self ..), ?_, ?_, ?_⟩
  · apply unbroken_text (capture_output_printed capture _ first).ascii
    exact fun inside => capture_output_one_line first (List.dropLast_subset _ inside)
  · exact unbroken_text (line_end_ascii lineEnd) (line_end_inner lineEnd).2
  · exact fun line member => whole (List.mem_cons_of_mem _ (List.mem_of_mem_tail member))

theorem run_parted_dump (lineEnd : LineEnd) (capture : Capture) {reader : CaptureReader}
    (size : reader.captured.length = regionBytes) :
    (run handleRead reader (partedDump lineEnd capture)).2 =
      some (.ok (capture.region.val, capture.address)) := by
  have returned := run_capture capture size
  have output : printCapture capture ++ [readyLine] = beginLine capture :: dumpRest capture := rfl
  have blank : '[' ∉ decodeAscii (textBytes lineEnd.text) := by
    rw [decode_text_bytes (line_end_ascii lineEnd)]
    exact (line_end_inner lineEnd).1
  have first : 0 ∈ dataOffsets := by decide
  rw [output, dump_rest_first, run, handle_begin (begin_line_tag capture) (begin_fields_line capture)]
    at returned
  dsimp only at returned
  rw [run, handle_data_line rfl first] at returned
  rw [partedDump, run, handle_read_printed lineEnd (begin_line_dump capture).printed,
    handle_begin (begin_line_tag capture) (begin_fields_line capture)]
  dsimp only
  rw [run, handle_read_text (data_line_dump capture 0).printed, handle_data_line rfl first]
  dsimp only
  dsimp only at returned
  rw [run, handle_read_plain blank]
  dsimp only
  rw [run_map fun state line known =>
    handle_read_printed lineEnd (dump_rest_printed (List.mem_of_mem_tail known)) state]
  exact returned

/-- A dump of zeros whose BEGIN line is cut inside its tag and whose first DATA line is
cut by a reset. -/
def cutFront : List Bytes :=
  [asciiBytes "[SRAM_CAPT", asciiBytes "URE_BEGIN] bytes=4096 address=0x3ffb0000\r\n",
    asciiBytes "[SRAM_DA"]

theorem cut_front_flatten :
    cutFront.flatten = textBytes (earlierText .crLf [(zeroCapture, 60)]) := by decide +kernel

theorem parted_reads_source :
    ReadFrom (deviceOutput .crLf [(zeroCapture, 60)] rampCapture)
      (cutFront ++ partedDump .crLf rampCapture) := by
  have whole : ∀ raw ∈ cutFront, newline ∉ raw.dropLast := by decide +kernel
  constructor
  · rw [device_output_bytes, List.flatten_append, cut_front_flatten, parted_dump_flatten]
  · rw [List.forall_mem_append]
    exact ⟨whole, parted_dump_unbroken .crLf rampCapture⟩

theorem parted_reads_begin :
    BeginRead (earlierText .crLf [(zeroCapture, 60)]) rampCapture
      (cutFront ++ partedDump .crLf rampCapture) := by
  have line : [] ++ textBytes (beginLine rampCapture) ++ textBytes LineEnd.crLf.text =
      LineEnd.crLf.printk (beginLine rampCapture) := (text_bytes_append _ _).symm
  refine ⟨cutFront, [], textBytes LineEnd.crLf.text, (partedDump .crLf rampCapture).tail, ?_, ?_, ?_⟩
  · rw [line]
    rfl
  · rw [List.append_nil, cut_front_flatten]
  · rw [line, Opening, decode_printk .crLf (begin_line_dump rampCapture).printed]
    exact begin_line_tag rampCapture

theorem parted_reads_returned :
    readCapture (cutFront ++ partedDump .crLf rampCapture) =
      .ok (rampCapture.region.val, (rampCapture.address : Int)) := by
  have unseen : ∀ raw ∈ cutFront, ∀ tag ∈ [beginTag, dataTag, endTag, readyTag],
      ¬tag <+: strip (decodeAscii raw) := by
    decide +kernel
  have running : (run handleRead startReader cutFront).2 = none :=
    run_running (fun reader raw member => ⟨reader, handle_read_untagged (unseen raw member) reader⟩) _
  rw [readCapture, run_append_of_running cutFront _ startReader running,
    run_parted_dump .crLf rampCapture (run_read_size cutFront)]
  rfl

theorem parted_reads_sound :
    ∃ captured address, readCapture (cutFront ++ partedDump .crLf rampCapture) =
        .ok (captured, address) ∧
      captured = rampCapture.region.val ∧ address = (rampCapture.address : Int) :=
  ⟨_, _, parted_reads_returned,
    partial_capture_sound .crLf [(zeroCapture, 60)] rampCapture _ parted_reads_source
      (.inl parted_reads_begin) _ _ parted_reads_returned⟩

end BootEntropy.Sram
