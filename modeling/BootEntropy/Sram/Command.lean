import BootEntropy.Lib.Segments
import BootEntropy.Sram.Capture

/-!
# The command reader

The loop of `main` that reads `FILL` commands from the console, `parse_hex_byte` and
`fill_and_verify`. A character that finds the buffer full empties it, so the reader
sees the length of a segment modulo the size of the buffer.
-/

namespace BootEntropy.Sram

open BootEntropy.Lib

set_option autoImplicit false

def commandBytes : Nat := 32

/-! ## Firmware -/

def hexNibble (c : UInt8) : Option UInt8 :=
  if 0x30 ≤ c ∧ c ≤ 0x39 then some (c - 0x30)
  else if 0x61 ≤ c ∧ c ≤ 0x66 then some (c - 0x61 + 10)
  else if 0x41 ≤ c ∧ c ≤ 0x46 then some (c - 0x41 + 10)
  else none

/-- `none` is the return value -1. -/
def parseHexByte (text : Bytes) : Option UInt8 :=
  [0, 1].foldlM (fun result i =>
    (hexNibble (text.getD i 0)).map fun nibble => (result <<< 4) ||| nibble) 0

/-- Whether `strncmp(left, right, count)` is zero. -/
def strncmpEqual : Nat → Bytes → Bytes → Bool
  | 0, _, _ => true
  | count + 1, left, right =>
      let a := left.headD 0
      let b := right.headD 0
      if a ≠ b then false
      else if a = 0 then true
      else strncmpEqual count left.tail right.tail

/-- `uart_poll_in` returned no byte, or this one. -/
abbrev Polled := Option UInt8

/-- The variables of `main`, the measured region and the console. `filled` has the
argument of every call of `fill_and_verify`, `written` every index of `command` that
was stored to. -/
structure CommandReader where
  command : Block commandBytes
  used : Nat
  region : Bytes
  console : List Text
  filled : List UInt8
  written : List Nat

def CommandReader.store (reader : CommandReader) (index : Nat) (c : UInt8) : CommandReader :=
  { reader with
    command := ⟨reader.command.val.set index c, by rw [List.length_set, reader.command.property]⟩
    written := reader.written ++ [index] }

def CommandReader.print (reader : CommandReader) (line : Text) : CommandReader :=
  { reader with console := reader.console ++ [line] }

def armedLine (pattern : UInt8) (valid : Bool) : Text :=
  "[SRAM_ARMED] pattern=".toList ++ hexText [pattern] ++ " verify=".toList ++
    (if valid then "ok".toList else "failed".toList)

def invalidCommandLine : Text := "[SRAM_ERROR] invalid_command".toList

def fillAndVerify (reader : CommandReader) (pattern : UInt8) : CommandReader :=
  let region := List.replicate regionBytes pattern
  let valid := region.all (· = pattern)
  { reader with
    region := region
    filled := reader.filled ++ [pattern] }.print (armedLine pattern valid)

def isLineEnd (c : UInt8) : Bool := c = 0x0D || c = 0x0A

def parseCommand (reader : CommandReader) : Option UInt8 :=
  if reader.used = 7 ∧ strncmpEqual 5 reader.command.val (asciiBytes "FILL ") then
    parseHexByte (reader.command.val.drop 5)
  else none

def endCommand (reader : CommandReader) : CommandReader :=
  let reader := reader.store reader.used 0
  let reader :=
    match parseCommand reader with
    | some pattern => fillAndVerify reader pattern
    | none => if reader.used ≠ 0 then reader.print invalidCommandLine else reader
  { reader with used := 0 }

def stepReader (reader : CommandReader) : Polled → CommandReader
  | none => reader
  | some c =>
      if isLineEnd c then endCommand reader
      else if reader.used + 1 < commandBytes then
        { reader.store reader.used c with used := reader.used + 1 }
      else { reader with used := 0 }

def runReader (reader : CommandReader) (polls : List Polled) : CommandReader :=
  polls.foldl stepReader reader

/-- `main` ahead of the loop. The buffer and the region hold anything. -/
def startCommandReader (command : Block commandBytes) (region : Bytes) : CommandReader where
  command := command
  used := 0
  region := region
  console := []
  filled := []
  written := []

/-! ## The grammar -/

/-- The byte a segment is a command for: `FILL ` and its two hexadecimal digits. -/
def fillPattern (segment : Bytes) : Option UInt8 :=
  if asciiBytes "FILL " <+: segment ∧ segment.length = 7 then
    match fromHex (decodeAscii (segment.drop 5)) with
    | some [pattern] => some pattern
    | _ => none
  else none

/-- The characters of a segment that are left in the buffer at its end. -/
def buffered (segment : Bytes) : Bytes :=
  segment.drop (segment.length - segment.length % commandBytes)

/-- A longer segment that the reader takes for a command. -/
def Wrapped (segment : Bytes) : Prop := 7 < segment.length ∧ fillPattern (buffered segment) ≠ none

/-! ## Parsing -/

/-- One character of `decodeAscii`. -/
def consoleChar (c : UInt8) : Char := if c.toNat < 0x80 then Char.ofNat c.toNat else replacement

theorem hex_nibble_eq (c : UInt8) :
    hexNibble c = (nibble (consoleChar c)).map UInt8.ofNat := by
  have all : ∀ n : Fin 256, hexNibble (UInt8.ofNat n) =
      (nibble (consoleChar (UInt8.ofNat n))).map UInt8.ofNat := by
    decide +kernel
  have here := all ⟨c.toNat, c.toNat_lt⟩
  rwa [UInt8.ofNat_toNat] at here

theorem nibbles_joined : ∀ high < 16, ∀ low < 16,
    (((0 : UInt8) <<< 4 ||| UInt8.ofNat high) <<< 4) ||| UInt8.ofNat low = UInt8.ofNat (16 * high + low) := by
  decide

theorem nibble_lt {c : Char} {value : Nat} (read : nibble c = some value) : value < 16 := by
  unfold nibble at read
  split_ifs at read with digit lower upper
  · have bound : c.toNat ≤ '9'.toNat := digit.2
    rw [← Option.some.inj read]
    have nine : '9'.toNat = 57 := rfl
    have zero : '0'.toNat = 48 := rfl
    omega
  · have bound : c.toNat ≤ 'f'.toNat := lower.2
    rw [← Option.some.inj read]
    have f : 'f'.toNat = 102 := rfl
    have a : 'a'.toNat = 97 := rfl
    omega
  · have bound : c.toNat ≤ 'F'.toNat := upper.2
    rw [← Option.some.inj read]
    have f : 'F'.toNat = 70 := rfl
    have a : 'A'.toNat = 65 := rfl
    omega

theorem parse_hex_byte_eq (a b : UInt8) (rest : Bytes) :
    parseHexByte (a :: b :: rest) =
      match fromHex (decodeAscii [a, b]) with
      | some [pattern] => some pattern
      | _ => none := by
  have first := hex_nibble_eq a
  have second := hex_nibble_eq b
  show ((hexNibble a).map fun nibble => ((0 : UInt8) <<< 4) ||| nibble).bind
      (fun result => ((hexNibble b).map fun nibble => (result <<< 4) ||| nibble).bind some) = _
  rw [first, second]
  have decoded : decodeAscii [a, b] = [consoleChar a, consoleChar b] := rfl
  rw [decoded]
  generalize consoleChar a = c
  generalize consoleChar b = d
  have blank {letter : Char} (space : asciiSpace letter = true) : nibble letter = none := by
    have code : letter.toNat ≤ 32 := by
      unfold asciiSpace at space
      simp only [Bool.or_eq_true, Bool.and_eq_true, decide_eq_true_eq] at space
      omega
    unfold nibble
    have small (other : Char) (above : 32 < other.toNat) : ¬other ≤ letter := by
      intro below
      have codes : other.toNat ≤ letter.toNat := below
      omega
    rw [if_neg fun both => small '0' (by decide) both.1,
      if_neg fun both => small 'a' (by decide) both.1,
      if_neg fun both => small 'A' (by decide) both.1]
  by_cases space : asciiSpace c = true
  · rw [blank space, fromHex, if_pos space, fromHex]
    split_ifs <;> rfl
  · rw [fromHex, if_neg space]
    cases high : nibble c with
    | none => rfl
    | some h =>
        cases low : nibble d with
        | none => rfl
        | some l =>
            have joined := nibbles_joined h (nibble_lt high) l (nibble_lt low)
            exact congrArg some joined

theorem strncmp_equal_iff {right : Bytes} (printed : ∀ c ∈ right, c ≠ 0) (left : Bytes) :
    strncmpEqual right.length left right = true ↔ right <+: left := by
  induction right generalizing left with
  | nil => exact iff_of_true rfl List.nil_prefix
  | cons c right ih =>
      rw [List.forall_mem_cons] at printed
      rw [List.length_cons, strncmpEqual]
      cases left with
      | nil =>
          have different : (0 : UInt8) ≠ c := fun same => printed.1 same.symm
          simp [different]
      | cons d left =>
          rw [List.cons_prefix_cons, ← ih printed.2]
          by_cases same : d = c
          · simp [same, printed.1]
          · simp [same, Ne.symm same]

/-! ## The invariant -/

structure Reads (received : Bytes) (reader : CommandReader) : Prop where
  used : reader.used = (openSegment isLineEnd received).length % commandBytes
  held : reader.command.val.take reader.used = buffered (openSegment isLineEnd received)
  filled : reader.filled =
    (closedSegments isLineEnd received).filterMap fun segment => fillPattern (buffered segment)
  inside : ∀ index ∈ reader.written, index < commandBytes

theorem buffered_length (segment : Bytes) :
    (buffered segment).length = segment.length % commandBytes := by
  have bound : segment.length % commandBytes ≤ segment.length := Nat.mod_le _ _
  rw [buffered, List.length_drop]
  omega

theorem Reads.used_lt {received : Bytes} {reader : CommandReader} (reads : Reads received reader) :
    reader.used < commandBytes := by
  rw [reads.used]
  exact Nat.mod_lt _ (by decide)

theorem reads_start (command : Block commandBytes) (region : Bytes) :
    Reads [] (startCommandReader command region) where
  used := rfl
  held := rfl
  filled := rfl
  inside := fun _ member => nomatch member

theorem take_set_of_le (bytes : Bytes) {used : Nat} (c : UInt8) :
    (bytes.set used c).take used = bytes.take used := by
  rw [List.take_set_of_le (Nat.le_refl used)]

theorem take_set_succ {bytes : Bytes} {used : Nat} (c : UInt8) (room : used < bytes.length) :
    (bytes.set used c).take (used + 1) = bytes.take used ++ [c] := by
  rw [List.take_add_one, take_set_of_le, List.getElem?_set_self room]
  rfl

theorem parse_command_eq (reader : CommandReader) (used : reader.used < commandBytes) :
    parseCommand reader = fillPattern (reader.command.val.take reader.used) := by
  have room : reader.used ≤ reader.command.val.length := by
    rw [reader.command.property]
    exact Nat.le_of_lt used
  have length : (reader.command.val.take reader.used).length = reader.used :=
    List.length_take_of_le room
  unfold parseCommand fillPattern
  rw [length]
  by_cases seven : reader.used = 7
  · have printed : ∀ c ∈ asciiBytes "FILL ", c ≠ 0 := by decide +kernel
    have tag : strncmpEqual 5 reader.command.val (asciiBytes "FILL ") = true ↔
        asciiBytes "FILL " <+: reader.command.val :=
      strncmp_equal_iff printed reader.command.val
    have front : asciiBytes "FILL " <+: reader.command.val.take reader.used ↔
        asciiBytes "FILL " <+: reader.command.val := by
      rw [seven, List.prefix_take_iff]
      exact and_iff_left (by decide)
    have digits : (reader.command.val.take reader.used).drop 5 =
        (reader.command.val.drop 5).take 2 := by
      rw [seven, List.drop_take]
    by_cases tagged : asciiBytes "FILL " <+: reader.command.val
    · rw [if_pos ⟨seven, tag.mpr tagged⟩, if_pos ⟨front.mpr tagged, seven⟩, digits]
      have size : reader.command.val.length = 32 := reader.command.property
      have long := congrArg List.length (List.take_append_drop 5 reader.command.val)
      rw [List.length_append, List.length_take, size] at long
      match behind : reader.command.val.drop 5 with
      | [] =>
          rw [behind] at long
          cases long
      | [a] =>
          rw [behind] at long
          cases long
      | a :: b :: rest => exact parse_hex_byte_eq a b rest
    · rw [if_neg fun both => tagged (tag.mp both.2), if_neg fun both => tagged (front.mp both.1)]
  · rw [if_neg fun both => seven both.1, if_neg fun both => seven both.2]

theorem buffered_snoc_of_room {segment : Bytes} {c : UInt8}
    (room : segment.length % commandBytes + 1 < commandBytes) :
    buffered (segment ++ [c]) = buffered segment ++ [c] := by
  have whole := Nat.div_add_mod segment.length commandBytes
  have next : (segment.length + 1) % commandBytes = segment.length % commandBytes + 1 := by
    rw [Nat.add_mod, Nat.mod_eq_of_lt (show 1 < commandBytes by decide), Nat.mod_eq_of_lt room]
  have start : segment.length + 1 - (segment.length % commandBytes + 1) =
      segment.length - segment.length % commandBytes := by omega
  rw [buffered, buffered, List.length_append, List.length_singleton, next, start,
    List.drop_append_of_le_length (Nat.sub_le _ _)]

theorem buffered_snoc_of_full {segment : Bytes} {c : UInt8}
    (full : ¬segment.length % commandBytes + 1 < commandBytes) :
    (segment ++ [c]).length % commandBytes = 0 ∧ buffered (segment ++ [c]) = [] := by
  have bound : segment.length % commandBytes < commandBytes := Nat.mod_lt _ (by decide)
  have next : (segment ++ [c]).length % commandBytes = 0 := by
    rw [List.length_append, List.length_singleton, commandBytes] at *
    omega
  refine ⟨next, ?_⟩
  rw [buffered, next]
  exact List.drop_length

theorem end_command_filled (reader : CommandReader) :
    (endCommand reader).filled =
      reader.filled ++ (parseCommand (reader.store reader.used 0)).toList := by
  unfold endCommand
  dsimp only
  cases parseCommand (reader.store reader.used 0) with
  | some pattern => rfl
  | none =>
      dsimp only
      split_ifs
      · exact (List.append_nil _).symm
      · exact (List.append_nil _).symm

theorem end_command_written (reader : CommandReader) :
    (endCommand reader).written = reader.written ++ [reader.used] := by
  unfold endCommand
  dsimp only
  cases parseCommand (reader.store reader.used 0) with
  | some pattern => rfl
  | none =>
      dsimp only
      split_ifs
      · rfl
      · rfl

theorem Reads.step {received : Bytes} {reader : CommandReader} (reads : Reads received reader)
    (polled : Polled) : Reads (received ++ polled.toList) (stepReader reader polled) := by
  have room := reads.used_lt
  cases polled with
  | none =>
      rw [Option.toList_none, List.append_nil]
      exact reads
  | some c =>
      have insideNow : ∀ index ∈ reader.written ++ [reader.used], index < commandBytes := by
        intro index member
        rcases List.mem_append.mp member with before | now
        · exact reads.inside index before
        · rw [List.mem_singleton.mp now]
          exact room
      rw [Option.toList_some]
      unfold stepReader
      dsimp only
      cases ends : isLineEnd c with
      | true =>
          rw [if_pos rfl]
          have held : (reader.store reader.used 0).command.val.take reader.used =
              reader.command.val.take reader.used := take_set_of_le _ 0
          have parsed := parse_command_eq (reader.store reader.used 0) room
          have command : parseCommand (reader.store reader.used 0) =
              fillPattern (buffered (openSegment isLineEnd received)) := by
            rw [parsed, ← reads.held]
            exact congrArg fillPattern held
          have opened := open_segment_stop received ends
          constructor
          · rw [opened]
            rfl
          · rw [opened]
            exact List.take_zero
          · rw [end_command_filled, command, reads.filled, closed_segments_stop received ends,
              List.filterMap_append]
            congr 1
          · rw [end_command_written]
            exact insideNow
      | false =>
          rw [if_neg Bool.false_ne_true]
          have closed := closed_segments_snoc received ends
          have opened := open_segment_snoc received ends
          have filled := reads.filled
          rw [← closed] at filled
          rw [reads.used] at room
          split_ifs with more
          · have size : reader.used < reader.command.val.length := by
              rw [reader.command.property, reads.used]
              exact room
            have pushed := @buffered_snoc_of_room _ c (reads.used ▸ more)
            refine ⟨?_, ?_, filled, insideNow⟩
            · have length := buffered_length (openSegment isLineEnd received ++ [c])
              rw [pushed, List.length_append, buffered_length, ← reads.used] at length
              rw [opened]
              exact length
            · rw [opened, pushed, ← reads.held]
              exact take_set_succ c size
          · rw [reads.used] at more
            have empty := @buffered_snoc_of_full _ c more
            refine ⟨?_, ?_, filled, reads.inside⟩
            · rw [opened]
              exact empty.1.symm
            · rw [opened, empty.2]
              exact List.take_zero

theorem run_reader_reads (command : Block commandBytes) (region : Bytes) (polls : List Polled) :
    Reads (polls.flatMap Option.toList) (runReader (startCommandReader command region) polls) := by
  induction polls using List.reverseRecOn with
  | nil => exact reads_start command region
  | append_singleton polls polled ih =>
      have next := ih.step polled
      rw [List.flatMap_append, List.flatMap_singleton, runReader, List.foldl_append]
      exact next

/-! ## Acceptance -/

theorem fill_pattern_length {segment : Bytes} {pattern : UInt8}
    (command : fillPattern segment = some pattern) : segment.length = 7 := by
  unfold fillPattern at command
  split_ifs at command with shape
  exact shape.2

theorem buffered_of_short {segment : Bytes} (short : segment.length < commandBytes) :
    buffered segment = segment := by
  rw [buffered, Nat.mod_eq_of_lt short, Nat.sub_self]
  rfl

theorem buffered_short_of_command {segment : Bytes} (command : fillPattern segment = none)
    (found : fillPattern (buffered segment) ≠ none) : 7 < segment.length := by
  obtain ⟨pattern, read⟩ := Option.ne_none_iff_exists'.mp found
  have seven := fill_pattern_length read
  rw [buffered_length] at seven
  by_contra small
  have same : buffered segment = segment := by
    apply buffered_of_short
    rw [commandBytes]
    omega
  rw [same] at found
  exact found command

/-- The calls of `fill_and_verify` are the commands of the closed segments, one each and
no others, exactly if no closed segment is a longer one that wraps around the buffer to
a command. The index stored to is below the size of the buffer always. -/
theorem command_reader_exact_iff (command : Block commandBytes) (region : Bytes)
    (polls : List Polled) :
    ((runReader (startCommandReader command region) polls).filled =
          (closedSegments isLineEnd (polls.flatMap Option.toList)).filterMap fillPattern ∧
        ∀ index ∈ (runReader (startCommandReader command region) polls).written,
          index < commandBytes) ↔
      ∀ segment ∈ closedSegments isLineEnd (polls.flatMap Option.toList), ¬Wrapped segment := by
  have reads := run_reader_reads command region polls
  rw [and_iff_left reads.inside, reads.filled]
  have finds (segment : Bytes) (pattern : UInt8) (wanted : fillPattern segment = some pattern) :
      fillPattern (buffered segment) = some pattern := by
    rw [buffered_of_short]
    · exact wanted
    · rw [fill_pattern_length wanted]
      decide
  rw [filter_map_eq_iff finds]
  apply forall₂_congr
  intro segment _
  constructor
  · rintro silent ⟨long, found⟩
    apply found
    apply silent
    by_contra some
    obtain ⟨pattern, read⟩ := Option.ne_none_iff_exists'.mp some
    have seven := fill_pattern_length read
    omega
  · intro unwrapped none
    by_contra found
    exact unwrapped ⟨buffered_short_of_command none found, found⟩

/-- 32 characters, and behind them a command on the same line. -/
theorem long_line_is_run :
    (runReader (startCommandReader (zeroBlock commandBytes) [])
        ((List.replicate 32 0x78 ++ asciiBytes "FILL a5\n").map some)).filled ≠
      (closedSegments isLineEnd (List.replicate 32 0x78 ++ asciiBytes "FILL a5\n")).filterMap
        fillPattern := by
  decide +kernel

end BootEntropy.Sram
