import Mathlib.Data.Finset.Card
import Mathlib.Order.Interval.Finset.Nat
import BootEntropy.Lib.Numerals
import BootEntropy.Lib.Run
import BootEntropy.Lib.Tokens

/-!
# SRAM image over the serial console

`print_capture` of the firmware and `read_capture` of `run_experiment.py`. What
`readline` returned before the deadline is the input of the reader; behind the
last read the deadline has passed.
-/

namespace BootEntropy.Sram

open BootEntropy.Lib

set_option autoImplicit false

def regionBytes : Nat := 4096
def dataBytesPerLine : Nat := 64

/-! ## Firmware -/

/-- The captured region and the address of the measured object. -/
structure Capture where
  region : Block regionBytes
  address : Nat
  isObject : address ≠ 0

def beginTag : Text := "[SRAM_CAPTURE_BEGIN]".toList
def dataTag : Text := "[SRAM_DATA]".toList
def endTag : Text := "[SRAM_CAPTURE_END]".toList
def readyTag : Text := "[SRAM_READY]".toList

/-- `%p` of a pointer that is not null. -/
def pointerText (address : Nat) : Text := "0x".toList ++ hexadecimal address

def beginLine (capture : Capture) : Text :=
  "[SRAM_CAPTURE_BEGIN] bytes=".toList ++ decimal regionBytes ++ " address=".toList ++
    pointerText capture.address

def dataLine (capture : Capture) (offset : Nat) : Text :=
  "[SRAM_DATA] offset=".toList ++ decimal offset ++ " hex=".toList ++
    hexText (slice capture.region.val offset (min (regionBytes - offset) dataBytesPerLine))

def readyLine : Text := "[SRAM_READY] command=FILL_HEX_BYTE".toList

def dataOffsets : List Nat :=
  (List.range (regionBytes / dataBytesPerLine)).map (· * dataBytesPerLine)

def printCapture (capture : Capture) : List Text :=
  beginLine capture :: (dataOffsets.map (dataLine capture) ++ [endTag])

/-- What the console driver makes of a newline. -/
inductive LineEnd where
  | lf
  | crLf
  deriving DecidableEq, Repr

def LineEnd.text : LineEnd → Text
  | .lf => ['\n']
  | .crLf => ['\r', '\n']

def LineEnd.printk (lineEnd : LineEnd) (line : Text) : Bytes := textBytes (line ++ lineEnd.text)

/-! ## Host -/

inductive CaptureError where
  | runtimeError (text : String)
  | valueError
  | keyError
  deriving DecidableEq, Repr

abbrev Outcome := Except CaptureError (Bytes × Int)

structure CaptureReader where
  captured : Bytes
  received : Finset Nat
  address : Option Int
  began : Bool
  ended : Bool

def startReader : CaptureReader := ⟨List.replicate regionBytes 0, ∅, none, false, false⟩

def beginFields (line : Text) : Except CaptureError Int :=
  let fields := (splitWords line).tail
  match parseInt ((field fields "bytes".toList).getD "0".toList) with
  | none => .error .valueError
  | some count =>
      if count ≠ regionBytes then
        .error (.runtimeError "firmware reported an unexpected SRAM region size")
      else
        match field fields "address".toList with
        | none => .error .keyError
        | some text =>
            match parseHexInt text with
            | none => .error .valueError
            | some address => .ok address

def dataFields (line : Text) : Except CaptureError (Int × Bytes) :=
  let fields := (splitWords line).tail
  match field fields "offset".toList with
  | none => .error .keyError
  | some text =>
      match parseInt text with
      | none => .error .valueError
      | some offset =>
          match field fields "hex".toList with
          | none => .error .keyError
          | some digits =>
              match fromHex digits with
              | none => .error .valueError
              | some data => .ok (offset, data)

def CaptureReader.write (reader : CaptureReader) (offset : Nat) (data : Bytes) : CaptureReader :=
  { reader with
    captured := store reader.captured offset data
    received := reader.received ∪ Finset.Ico offset (offset + data.length) }

/-- One turn of the loop, on a stripped line. -/
def handleLine (reader : CaptureReader) (line : Text) : Next CaptureReader Outcome :=
  if beginTag <+: line then
    match beginFields line with
    | .error error => .stop reader (.error error)
    | .ok address =>
        .go { reader with address := some address, received := ∅, began := true, ended := false }
  else if reader.began = true ∧ dataTag <+: line then
    match dataFields line with
    | .error error => .stop reader (.error error)
    | .ok (offset, data) =>
        if offset < 0 ∨ (regionBytes : Int) < offset + data.length then
          .stop reader (.error (.runtimeError "firmware reported an invalid SRAM data offset"))
        else .go (reader.write offset.toNat data)
  else if reader.began = true ∧ line = endTag then .go { reader with ended := true }
  else if readyTag <+: line ∧ reader.ended = true then
    match reader.address with
    | none => .stop reader (.error (.runtimeError "SRAM capture was incomplete"))
    | some address =>
        if reader.received.card ≠ regionBytes then
          .stop reader (.error (.runtimeError "SRAM capture was incomplete"))
        else .stop reader (.ok (reader.captured, address))
  else .go reader

def handleRead (reader : CaptureReader) (raw : Bytes) : Next CaptureReader Outcome :=
  if raw = [] then .go reader else handleLine reader (strip (decodeAscii raw))

def readCapture (reads : List Bytes) : Outcome :=
  (run handleRead startReader reads).2.getD
    (.error (.runtimeError "timed out while waiting for a complete SRAM capture"))

/-! ## Lines -/

private theorem three_tokens (tag key digits separator value : Text) :
    tag ++ ' ' :: key ++ digits ++ ' ' :: separator ++ value =
      tag ++ ' ' :: ((key ++ digits) ++ ' ' :: (separator ++ value)) := by
  simp only [List.append_assoc, List.cons_append]

theorem begin_line_tokens (capture : Capture) :
    beginLine capture = beginTag ++ ' ' :: (("bytes=".toList ++ decimal regionBytes) ++ ' ' ::
      ("address=".toList ++ pointerText capture.address)) := by
  have front : "[SRAM_CAPTURE_BEGIN] bytes=".toList = beginTag ++ ' ' :: "bytes=".toList := by
    decide
  have back : " address=".toList = ' ' :: "address=".toList := by decide
  unfold beginLine
  rw [front, back]
  exact three_tokens _ _ _ _ _

theorem data_line_tokens (capture : Capture) (offset : Nat) :
    dataLine capture offset = dataTag ++ ' ' :: (("offset=".toList ++ decimal offset) ++ ' ' ::
      ("hex=".toList ++
        hexText (slice capture.region.val offset (min (regionBytes - offset) dataBytesPerLine)))) := by
  have front : "[SRAM_DATA] offset=".toList = dataTag ++ ' ' :: "offset=".toList := by decide
  have back : " hex=".toList = ' ' :: "hex=".toList := by decide
  unfold dataLine
  rw [front, back]
  exact three_tokens _ _ _ _ _

/-- Behind the opening bracket a printed line has no second one, no newline and no
capital Y. -/
structure InnerChar (c : Char) : Prop where
  ascii : c.toNat < 0x80
  noBracket : c ≠ '['
  noNewline : c ≠ '\n'
  noReady : c ≠ 'Y'

instance (c : Char) : Decidable (InnerChar c) :=
  decidable_of_iff (c.toNat < 0x80 ∧ c ≠ '[' ∧ c ≠ '\n' ∧ c ≠ 'Y')
    ⟨fun ⟨ascii, bracket, newline, ready⟩ => ⟨ascii, bracket, newline, ready⟩,
      fun inner => ⟨inner.ascii, inner.noBracket, inner.noNewline, inner.noReady⟩⟩

theorem digits_inner {base : Nat} (large : 1 < base) (small : base ≤ 16) (value : Nat) :
    ∀ c ∈ Nat.toDigits base value, InnerChar c := by
  have digit : ∀ d < 16, InnerChar d.digitChar := by decide
  exact forall_mem_to_digits large (fun d below => digit d (by omega)) value

theorem hex_text_inner (bytes : Bytes) : ∀ c ∈ hexText bytes, InnerChar c :=
  forall_mem_hex_text (by decide) bytes

structure DumpLine (line : Text) : Prop where
  bracket : ∃ rest, line = '[' :: rest ∧ ∀ c ∈ rest, InnerChar c
  last : ∀ c ∈ line.getLast?, isSpace c = false

theorem last_of_word {tag middle word : Text} (solid : Word word) :
    ∀ c ∈ (tag ++ ' ' :: (middle ++ ' ' :: word)).getLast?, isSpace c = false := by
  have shape : tag ++ ' ' :: (middle ++ ' ' :: word) = (tag ++ ' ' :: middle ++ [' ']) ++ word := by
    simp only [List.append_assoc, List.cons_append, List.nil_append]
  intro c member
  rw [shape, List.getLast?_append_of_ne_nil _ solid.nonempty] at member
  exact solid.solid c (List.mem_of_mem_getLast? member)

theorem address_word (address : Nat) : Word ("address=".toList ++ pointerText address) := by
  constructor
  · intro c member
    rw [pointerText, ← List.append_assoc] at member
    rcases List.mem_append.mp member with front | digit
    · have letters : ∀ d ∈ "address=".toList ++ "0x".toList, isSpace d = false := by decide
      exact letters c front
    · exact (plain_digits (by decide) (by decide) address c digit).noSpace
  · exact List.append_ne_nil_of_left_ne_nil (by decide) _

theorem offset_word (offset : Nat) : Word ("offset=".toList ++ decimal offset) := by
  constructor
  · intro c member
    rcases List.mem_append.mp member with front | digit
    · have letters : ∀ d ∈ "offset=".toList, isSpace d = false := by decide
      exact letters c front
    · exact (plain_digits (by decide) (by decide) offset c digit).noSpace
  · exact List.append_ne_nil_of_left_ne_nil (by decide) _

theorem hex_word (bytes : Bytes) : Word ("hex=".toList ++ hexText bytes) := by
  have solid : ∀ d < 16, isSpace (hexDigit d) = false := fun d below => (nibble_hex_digit d below).2.2
  constructor
  · intro c member
    rcases List.mem_append.mp member with front | digit
    · have letters : ∀ d ∈ "hex=".toList, isSpace d = false := by decide
      exact letters c front
    · exact @forall_mem_hex_text (fun c => isSpace c = false) solid bytes c digit
  · exact List.append_ne_nil_of_left_ne_nil (by decide) _

theorem begin_line_dump (capture : Capture) : DumpLine (beginLine capture) := by
  constructor
  · have literal : "[SRAM_CAPTURE_BEGIN] bytes=".toList =
        '[' :: "SRAM_CAPTURE_BEGIN] bytes=".toList := by decide
    refine ⟨"SRAM_CAPTURE_BEGIN] bytes=".toList ++ decimal regionBytes ++ " address=".toList ++
      pointerText capture.address, ?_, ?_⟩
    · unfold beginLine
      rw [literal]
      rfl
    · have front : ∀ c ∈ "SRAM_CAPTURE_BEGIN] bytes=".toList, InnerChar c := by decide
      have key : ∀ c ∈ " address=".toList, InnerChar c := by decide
      have zeroX : ∀ c ∈ "0x".toList, InnerChar c := by decide
      intro c member
      simp only [List.mem_append, pointerText] at member
      rcases member with ((member | member) | member) | member | member
      · exact front c member
      · exact digits_inner (by decide) (by decide) _ c member
      · exact key c member
      · exact zeroX c member
      · exact digits_inner (by decide) (by decide) _ c member
  · rw [begin_line_tokens]
    exact last_of_word (address_word capture.address)

theorem data_line_dump (capture : Capture) (offset : Nat) : DumpLine (dataLine capture offset) := by
  constructor
  · have literal : "[SRAM_DATA] offset=".toList = '[' :: "SRAM_DATA] offset=".toList := by decide
    refine ⟨"SRAM_DATA] offset=".toList ++ decimal offset ++ " hex=".toList ++
      hexText (slice capture.region.val offset (min (regionBytes - offset) dataBytesPerLine)),
      ?_, ?_⟩
    · unfold dataLine
      rw [literal]
      rfl
    · have front : ∀ c ∈ "SRAM_DATA] offset=".toList, InnerChar c := by decide
      have key : ∀ c ∈ " hex=".toList, InnerChar c := by decide
      intro c member
      simp only [List.mem_append] at member
      rcases member with ((member | member) | member) | member
      · exact front c member
      · exact digits_inner (by decide) (by decide) _ c member
      · exact key c member
      · exact hex_text_inner _ c member
  · rw [data_line_tokens]
    exact last_of_word (hex_word _)

theorem end_tag_dump : DumpLine endTag :=
  ⟨⟨"SRAM_CAPTURE_END]".toList, by decide, by decide⟩, by decide⟩

theorem print_capture_dump (capture : Capture) : ∀ line ∈ printCapture capture, DumpLine line := by
  intro line member
  rw [printCapture, List.mem_cons, List.mem_append, List.mem_singleton] at member
  rcases member with rfl | data | rfl
  · exact begin_line_dump capture
  · obtain ⟨offset, _, rfl⟩ := List.mem_map.mp data
    exact data_line_dump capture offset
  · exact end_tag_dump

/-! ## Fields of the lines -/

theorem key_token (key : String) (name value : Text) (entry : key.toList = name ++ ['=']) :
    key.toList ++ value = name ++ '=' :: value := by
  rw [entry, List.append_assoc]
  rfl

theorem bytes_entry :
    splitOnce '=' ("bytes=".toList ++ decimal regionBytes) =
      some ("bytes".toList, decimal regionBytes) := by
  rw [key_token "bytes=" "bytes".toList _ (by decide), split_once_entry _ (by decide)]

theorem address_entry (address : Nat) :
    splitOnce '=' ("address=".toList ++ pointerText address) =
      some ("address".toList, pointerText address) := by
  rw [key_token "address=" "address".toList _ (by decide), split_once_entry _ (by decide)]

theorem offset_entry (digits : Text) :
    splitOnce '=' ("offset=".toList ++ digits) = some ("offset".toList, digits) := by
  rw [key_token "offset=" "offset".toList _ (by decide), split_once_entry _ (by decide)]

theorem hex_entry (digits : Text) :
    splitOnce '=' ("hex=".toList ++ digits) = some ("hex".toList, digits) := by
  rw [key_token "hex=" "hex".toList _ (by decide), split_once_entry _ (by decide)]

/-- Size and address last on a BEGIN line decide what it says. -/
theorem begin_fields_of_tokens {line : Text} {front : List Text} {address : Nat}
    (tokens : (splitWords line).tail =
      front ++ ["bytes=".toList ++ decimal regionBytes] ++ ["address=".toList ++ pointerText address]) :
    beginFields line = .ok address := by
  have count : parseInt (decimal regionBytes) = some (regionBytes : Int) :=
    parse_int_decimal (by decide)
  have bytes : field (splitWords line).tail "bytes".toList = some (decimal regionBytes) := by
    rw [tokens, field_snoc_other, field_snoc_same bytes_entry]
    intro value same
    rw [address_entry] at same
    exact absurd (congrArg Prod.fst (Option.some.inj same)) (by simp)
  have addressField : field (splitWords line).tail "address".toList =
      some (pointerText address) := by
    rw [tokens, field_snoc_same (address_entry address)]
  unfold beginFields
  dsimp only
  rw [bytes, Option.getD_some, count]
  dsimp only
  rw [if_neg (not_not.mpr rfl), addressField]
  dsimp only
  rw [pointerText, parse_hex_int_pointer]

theorem begin_fields_line (capture : Capture) : beginFields (beginLine capture) = .ok capture.address := by
  apply @begin_fields_of_tokens _ [] capture.address
  have size : Word ("bytes=".toList ++ decimal regionBytes) := by decide
  have tag : Word beginTag := by decide
  rw [begin_line_tokens, split_words_cons tag, split_words_cons size,
    split_words_word (address_word capture.address)]
  rfl

theorem data_fields_of_tokens {line digits : Text} {offset : Nat}
    (short : (decimal offset).length ≤ maxStrDigits)
    (tokens : (splitWords line).tail =
      ["offset=".toList ++ decimal offset, "hex=".toList ++ digits]) :
    dataFields line =
      match fromHex digits with
      | none => .error .valueError
      | some data => .ok (offset, data) := by
  have shape : (splitWords line).tail =
      [] ++ ["offset=".toList ++ decimal offset] ++ ["hex=".toList ++ digits] := tokens
  have offsetField : field (splitWords line).tail "offset".toList = some (decimal offset) := by
    rw [shape, field_snoc_other, field_snoc_same (offset_entry _)]
    intro value same
    rw [hex_entry] at same
    exact absurd (congrArg Prod.fst (Option.some.inj same)) (by simp)
  have hexField : field (splitWords line).tail "hex".toList = some digits := by
    rw [shape, field_snoc_same (hex_entry digits)]
  unfold dataFields
  dsimp only
  rw [offsetField]
  dsimp only
  rw [parse_int_decimal short, hexField]

theorem data_fields_no_hex {line : Text} (absent : field (splitWords line).tail "hex".toList = none) :
    ∃ error, dataFields line = .error error := by
  unfold dataFields
  dsimp only
  cases field (splitWords line).tail "offset".toList with
  | none => exact ⟨_, rfl⟩
  | some text =>
      dsimp only
      cases parseInt text with
      | none => exact ⟨_, rfl⟩
      | some offset =>
          dsimp only
          rw [absent]
          exact ⟨_, rfl⟩

theorem data_fields_line (capture : Capture) {offset : Nat} (small : offset < 10 ^ 4) :
    dataFields (dataLine capture offset) =
      .ok (offset, slice capture.region.val offset (min (regionBytes - offset) dataBytesPerLine)) := by
  have tag : Word dataTag := by decide
  rw [data_fields_of_tokens (decimal_short (small.trans (by decide))), from_hex_text]
  rw [data_line_tokens, split_words_cons tag, split_words_cons (offset_word offset),
    split_words_word (hex_word _)]
  rfl

end BootEntropy.Sram
