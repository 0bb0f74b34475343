import BootEntropy.Sram.Experiment

/-!
# One command and its reply

A command that arrives whole makes the firmware fill the region once, and the line it
prints is the one `arm_pattern` waits for. A command that has lost its front to a start
of the board fills nothing.
-/

namespace BootEntropy.Sram

open BootEntropy.Lib

set_option autoImplicit false

/-! ## Firmware -/

def CommandReader.held (reader : CommandReader) : Bytes := reader.command.val.take reader.used

def fillText (pattern : UInt8) : Bytes := asciiBytes "FILL " ++ textBytes (hexText [pattern])

theorem fill_command_eq (pattern : UInt8) : fillCommand pattern = fillText pattern ++ [newline] :=
  (List.append_assoc _ _ _).symm

theorem hex_text_ascii (bytes : Bytes) : ∀ c ∈ hexText bytes, c.toNat < 0x80 :=
  fun c member => (hex_text_inner bytes c member).ascii

theorem fill_text_length (pattern : UInt8) : (fillText pattern).length = 7 := rfl

theorem fill_pattern_text (pattern : UInt8) : fillPattern (fillText pattern) = some pattern := by
  have digits : decodeAscii ((fillText pattern).drop 5) = hexText [pattern] :=
    decode_text_bytes (hex_text_ascii [pattern])
  rw [fillPattern, if_pos ⟨List.prefix_append _ _, fill_text_length pattern⟩, digits,
    from_hex_text]

theorem line_end_fill_text {pattern c : UInt8} (member : c ∈ fillText pattern) :
    isLineEnd c = false := by
  have digit : ∀ d < 16, isLineEnd (UInt8.ofNat (hexDigit d).toNat) = false := by decide
  have digits : ∀ c ∈ hexText [pattern], isLineEnd (UInt8.ofNat c.toNat) = false :=
    forall_mem_hex_text (fun d below => digit d below) [pattern]
  have letters : ∀ c ∈ asciiBytes "FILL ", isLineEnd c = false := by decide +kernel
  rcases List.mem_append.mp member with word | printed
  · exact letters c word
  · obtain ⟨digit, inside, rfl⟩ := List.mem_map.mp printed
    exact digits digit inside

/-- What a poll that reads the last character of a command does. -/
inductive Executed (reader : CommandReader) (pattern : UInt8) : CommandReader → Prop
  | filled (after : CommandReader) (whole : reader.held = fillText pattern)
      (used : after.used = 0) (fills : after.filled = reader.filled ++ [pattern])
      (console : after.console = reader.console ++ [armedLine pattern true]) :
      Executed reader pattern after
  | refused (after : CommandReader) (cut : reader.held ≠ fillText pattern)
      (used : after.used = 0) (fills : after.filled = reader.filled)
      (printed : List Text) (only : ∀ line ∈ printed, line = invalidCommandLine)
      (console : after.console = reader.console ++ printed) : Executed reader pattern after

theorem fill_and_verify_console (reader : CommandReader) (pattern : UInt8) :
    (fillAndVerify reader pattern).console = reader.console ++ [armedLine pattern true] := by
  have verified : (List.replicate regionBytes pattern).all (· = pattern) = true := by
    rw [List.all_eq_true]
    intro byte member
    exact decide_eq_true (List.eq_of_mem_replicate member)
  have line : (fillAndVerify reader pattern).console = reader.console ++
      [armedLine pattern ((List.replicate regionBytes pattern).all (· = pattern))] := rfl
  rw [line, verified]

/-- A front of a command's text that is held, with what is on its way. -/
structure Underway (pattern : UInt8) (reader : CommandReader) (toBoard : Bytes) : Prop where
  room : reader.used < commandBytes
  suffix : reader.held ++ toBoard <:+ fillCommand pattern

theorem held_length {reader : CommandReader} (room : reader.used < commandBytes) :
    reader.held.length = reader.used := by
  have size := reader.command.property
  rw [CommandReader.held, List.length_take, size]
  omega

theorem Underway.empty {pattern : UInt8} {reader : CommandReader} (used : reader.used = 0) :
    Underway pattern reader [] := by
  have none : reader.held = [] := by rw [CommandReader.held, used, List.take_zero]
  constructor
  · rw [used]
    decide
  · rw [none]
    exact List.nil_suffix

theorem Underway.split {pattern c : UInt8} {reader : CommandReader} {toBoard : Bytes}
    (underway : Underway pattern reader (c :: toBoard)) :
    (c = newline ∧ toBoard = [] ∧ reader.held <:+ fillText pattern) ∨
      (isLineEnd c = false ∧ reader.held.length < 7) := by
  have suffix := underway.suffix
  rw [fill_command_eq, List.suffix_concat_iff] at suffix
  rcases suffix with none | ⟨text, same, part⟩
  · simp at none
  rcases List.eq_nil_or_concat toBoard with rfl | ⟨front, last, rfl⟩
  · obtain ⟨rfl, ends⟩ := List.append_inj' same rfl
    exact .inl ⟨List.singleton_inj.mp ends, rfl, part⟩
  · right
    rw [List.concat_eq_append, ← List.cons_append, ← List.append_assoc] at same
    obtain ⟨rfl, _⟩ := List.append_inj' same rfl
    have length := part.length_le
    rw [List.length_append, List.length_cons, fill_text_length] at length
    exact ⟨line_end_fill_text (part.subset (by simp)), by omega⟩

theorem parse_command_held {reader : CommandReader} (room : reader.used < commandBytes) :
    parseCommand (reader.store reader.used 0) = fillPattern reader.held := by
  have held : (reader.store reader.used 0).command.val.take reader.used = reader.held :=
    take_set_of_le _ 0
  rw [← held]
  exact parse_command_eq (reader.store reader.used 0) room

theorem end_command_executed {pattern : UInt8} {reader : CommandReader}
    (room : reader.used < commandBytes) (part : reader.held <:+ fillText pattern) :
    Executed reader pattern (endCommand reader) := by
  have parsed := parse_command_held room
  by_cases whole : reader.held = fillText pattern
  · rw [whole, fill_pattern_text] at parsed
    have run : endCommand reader =
        { fillAndVerify (reader.store reader.used 0) pattern with used := 0 } := by
      unfold endCommand
      dsimp only
      rw [parsed]
    rw [run]
    exact .filled _ whole rfl rfl (fill_and_verify_console _ pattern)
  · have short : reader.held.length ≠ 7 := by
      intro seven
      exact whole (part.eq_of_length (seven.trans (fill_text_length pattern).symm))
    rw [fillPattern, if_neg fun both => short both.2] at parsed
    unfold endCommand
    dsimp only
    rw [parsed]
    dsimp only
    split_ifs
    · exact .refused _ whole rfl rfl [invalidCommandLine] (by simp) rfl
    · exact .refused _ whole rfl rfl [] (by simp) (List.append_nil _).symm

theorem Underway.poll {pattern c : UInt8} {reader : CommandReader} {toBoard : Bytes}
    (underway : Underway pattern reader (c :: toBoard)) :
    (toBoard = [] ∧ Executed reader pattern (stepReader reader (some c))) ∨
      (isLineEnd c = false ∧ Underway pattern (stepReader reader (some c)) toBoard ∧
        (stepReader reader (some c)).held = reader.held ++ [c] ∧
        (stepReader reader (some c)).filled = reader.filled ∧
        (stepReader reader (some c)).console = reader.console) := by
  rcases underway.split with ⟨rfl, rfl, part⟩ | ⟨inner, short⟩
  · left
    have ends : isLineEnd newline = true := by decide
    rw [stepReader, if_pos ends]
    exact ⟨rfl, end_command_executed underway.room part⟩
  · right
    rw [held_length underway.room] at short
    have room : reader.used + 1 < commandBytes := by
      rw [commandBytes]
      omega
    have inside : reader.used < reader.command.val.length := by
      rw [reader.command.property]
      exact underway.room
    have stepped : stepReader reader (some c) =
        { reader.store reader.used c with used := reader.used + 1 } := by
      rw [stepReader, if_neg (by rw [inner]; exact Bool.false_ne_true), if_pos room]
    have held : (stepReader reader (some c)).held = reader.held ++ [c] := by
      rw [stepped]
      exact take_set_succ c inside
    refine ⟨inner, ⟨?_, ?_⟩, held, ?_, ?_⟩
    · rw [stepped]
      exact room
    · rw [held, List.append_assoc]
      exact underway.suffix
    · rw [stepped]
      rfl
    · rw [stepped]
      rfl

/-! ## Host -/

/-- What `arm_pattern` makes of a read. -/
inductive Armed (pattern : UInt8) (raw : Bytes) : Next Unit (Except CaptureError Unit) → Prop
  | idle : Armed pattern raw (.go ())
  | refused (error : CaptureError) : Armed pattern raw (.stop () (.error error))
  | accepted (tag : armedTag <+: strip (decodeAscii raw)) : Armed pattern raw (.stop () (.ok ()))

theorem handle_arm_armed (pattern : UInt8) (raw : Bytes) :
    Armed pattern raw (handleArm pattern raw) := by
  unfold handleArm
  split_ifs with empty
  · exact .idle
  · dsimp only
    split_ifs with tag
    · exact .refused _
    · exact .accepted tag
    · exact .idle

theorem handle_arm_other {pattern : UInt8} {raw : Bytes}
    (other : ¬armedTag <+: strip (decodeAscii raw)) : handleArm pattern raw = .go () := by
  unfold handleArm
  split_ifs
  · rfl
  · dsimp only
    rw [if_neg other]

theorem armed_entry (pattern : UInt8) :
    splitOnce '=' ("pattern=".toList ++ hexText [pattern]) =
      some ("pattern".toList, hexText [pattern]) := by
  rw [key_token "pattern=" "pattern".toList _ (by decide), split_once_entry _ (by decide)]

theorem armed_line_eq (pattern : UInt8) :
    armedLine pattern true =
      "[SRAM_ARMED] pattern=".toList ++ (hexText [pattern] ++ " verify=ok".toList) := by
  have back : " verify=".toList ++ "ok".toList = " verify=ok".toList := by decide
  rw [← back, ← List.append_assoc, ← List.append_assoc]
  rfl

theorem armed_line_tokens (pattern : UInt8) :
    armedLine pattern true = armedTag ++ ' ' :: (("pattern=".toList ++ hexText [pattern]) ++ ' ' ::
      "verify=ok".toList) := by
  have front : "[SRAM_ARMED] pattern=".toList = armedTag ++ ' ' :: "pattern=".toList := by decide
  have back : " verify=ok".toList = ' ' :: "verify=ok".toList := by decide
  rw [armed_line_eq, front, back]
  simp only [List.append_assoc, List.cons_append]

theorem pattern_word (pattern : UInt8) : Word ("pattern=".toList ++ hexText [pattern]) := by
  have solid : ∀ d < 16, isSpace (hexDigit d) = false := fun d below => (nibble_hex_digit d below).2.2
  have letters : ∀ d ∈ "pattern=".toList, isSpace d = false := by decide
  constructor
  · intro c member
    rcases List.mem_append.mp member with front | digit
    · exact letters c front
    · exact @forall_mem_hex_text (fun c => isSpace c = false) solid [pattern] c digit
  · exact List.append_ne_nil_of_left_ne_nil (by decide) _

theorem armed_line_printed (pattern : UInt8) : Printed (armedLine pattern true) := by
  have tokens := armed_line_tokens pattern
  have ok : Word "verify=ok".toList := by decide
  constructor
  · have front : ∀ d ∈ "[SRAM_ARMED] pattern=".toList, d.toNat < 0x80 := by decide
    have back : ∀ d ∈ " verify=ok".toList, d.toNat < 0x80 := by decide
    intro c member
    rw [armed_line_eq, List.mem_append, List.mem_append] at member
    rcases member with tag | digit | verify
    · exact front c tag
    · exact hex_text_ascii [pattern] c digit
    · exact back c verify
  · rw [tokens]
    exact List.append_ne_nil_of_left_ne_nil (by decide) _
  · intro c head
    rw [tokens, List.head?_append_of_ne_nil _ (by decide)] at head
    revert c
    decide
  · rw [tokens]
    exact last_of_word ok

theorem handle_arm_line (lineEnd : LineEnd) (pattern : UInt8) :
    handleArm pattern (lineEnd.printk (armedLine pattern true)) = .stop () (.ok ()) := by
  have printed := armed_line_printed pattern
  have nonempty : lineEnd.printk (armedLine pattern true) ≠ [] := by
    intro empty
    rw [LineEnd.printk, textBytes, List.map_eq_nil_iff] at empty
    exact printed.nonempty (List.append_eq_nil_iff.mp empty).1
  have words : (splitWords (armedLine pattern true)).tail =
      ["pattern=".toList ++ hexText [pattern], "verify=ok".toList] := by
    rw [armed_line_tokens, split_words_cons (by decide), split_words_cons (pattern_word pattern),
      split_words_word (by decide)]
    rfl
  have verify : splitOnce '=' "verify=ok".toList = some ("verify".toList, "ok".toList) := by decide
  have patternField : field (splitWords (armedLine pattern true)).tail "pattern".toList =
      some (hexText [pattern]) := by
    rw [words]
    have shape : ["pattern=".toList ++ hexText [pattern], "verify=ok".toList] =
      [] ++ ["pattern=".toList ++ hexText [pattern]] ++ ["verify=ok".toList] := rfl
    rw [shape, field_snoc_other, field_snoc_same (armed_entry pattern)]
    intro value same
    rw [verify] at same
    exact absurd (congrArg Prod.fst (Option.some.inj same)) (by simp)
  have verifyField : field (splitWords (armedLine pattern true)).tail "verify".toList =
      some "ok".toList := by
    rw [words]
    exact @field_snoc_same ["pattern=".toList ++ hexText [pattern]] _ _ _ verify
  have tag : armedTag <+: armedLine pattern true := by
    rw [armed_line_tokens]
    exact List.prefix_append _ _
  rw [handleArm, if_neg nonempty, decode_printk lineEnd printed]
  dsimp only
  rw [if_pos tag, patternField, verifyField, if_neg (by simp)]

end BootEntropy.Sram
