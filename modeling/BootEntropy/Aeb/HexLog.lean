import BootEntropy.Lib.Chunk
import BootEntropy.Lib.Numerals
import BootEntropy.Lib.Records
import BootEntropy.Lib.Search

/-!
# Raw windows in the serial log

The lines `run_trial` and `maybe_dump_raw_hex` print, and `parse_log` with the raw
part of `build_summary` in `parse_aeb_log.py`.
-/

namespace BootEntropy.Aeb

open BootEntropy.Lib

set_option autoImplicit false

/-! ## Firmware -/

structure ResultFields where
  idle : Bool
  nonce : Block 16
  packetsExpected : UInt32
  packetsSeen : UInt32
  intervalUs : UInt32
  sampleUs : UInt32
  ones : UInt64
  transitions : UInt64
  jitterMinUs : UInt32
  jitterMeanUs : UInt32
  jitterMaxUs : UInt32
  rawSha256 : Block 32
  jitterSha256 : Block 32
  responseSha256 : Block 32
  seedSha256 : Block 32

/-- A trial that dumps a window of `size` bytes of an array. -/
structure DumpedTrial where
  number : UInt32
  size : Nat
  sizeFits : size < 2 ^ 31
  fields : Bytes → ResultFields

def hexLineBytes : Nat := 64

def resultLineTag : Text := "[AEB_RESULT]".toList
def rawHexBeginTag : Text := "[AEB_RAW_HEX_BEGIN]".toList
def rawHexChunkTag : Text := "[AEB_RAW_HEX_CHUNK]".toList
def rawHexEndTag : Text := "[AEB_RAW_HEX_END]".toList

section Lines

variable (trial : DumpedTrial)

def resultEntries (raw : Bytes) : List (Text × Text) :=
  let fields := trial.fields raw
  [("trial".toList, decimal trial.number.toNat),
    ("condition".toList, if fields.idle then "idle".toList else "burst".toList),
    ("nonce".toList, hexText fields.nonce.val),
    ("sample_bytes".toList, decimal trial.size),
    ("packets_expected".toList, decimal fields.packetsExpected.toNat),
    ("packets_seen".toList, decimal fields.packetsSeen.toNat),
    ("interval_us".toList, decimal fields.intervalUs.toNat),
    ("sample_us".toList, decimal fields.sampleUs.toNat),
    ("ones".toList, decimal fields.ones.toNat),
    ("transitions".toList, decimal fields.transitions.toNat),
    ("jitter_min_us".toList, decimal fields.jitterMinUs.toNat),
    ("jitter_mean_us".toList, decimal fields.jitterMeanUs.toNat),
    ("jitter_max_us".toList, decimal fields.jitterMaxUs.toNat),
    ("raw_sha256".toList, hexText fields.rawSha256.val),
    ("jitter_sha256".toList, hexText fields.jitterSha256.val),
    ("response_sha256".toList, hexText fields.responseSha256.val),
    ("seed_sha256".toList, hexText fields.seedSha256.val)]

/-- `result_line`. It is never longer than its buffer of 768 bytes. -/
def resultLine (raw : Bytes) : Text := resultLineTag ++ entriesText (resultEntries trial raw)

def rawHexBegin : Text :=
  rawHexBeginTag ++ entriesText
    [("trial".toList, decimal trial.number.toNat), ("bytes".toList, decimal trial.size)]

def chunkEntries (raw : Bytes) (index : Nat) : List (Text × Text) :=
  [("trial".toList, decimal trial.number.toNat),
    ("offset".toList, decimal (index * hexLineBytes)),
    ("hex".toList, hexText (chunk hexLineBytes raw index))]

def rawHexChunk (raw : Bytes) (index : Nat) : Text :=
  rawHexChunkTag ++ entriesText (chunkEntries trial raw index)

def rawHexEnd : Text :=
  rawHexEndTag ++ entriesText [("trial".toList, decimal trial.number.toNat)]

/-- Lines of a dump: offsets `0`, `64`, `128`, ... below the size. -/
def hexLineCount : Nat := chunkCount hexLineBytes trial.size

end Lines

/-- Text in which `parse_log` finds neither tag. -/
def Untagged (text : Text) : Prop :=
  findSub resultLineTag text = none ∧ findSub rawHexChunkTag text = none

inductive LogLine (ι : Type) where
  | result (trial : ι)
  | rawBegin (trial : ι)
  | rawChunk (trial : ι) (index : Nat)
  | rawEnd (trial : ι)
  | other (text : Text) (untagged : Untagged text)

section Log

variable {ι : Type} (trials : ι → DumpedTrial)

abbrev Windows := ∀ trial, Block (trials trial).size

def trialLines (trial : ι) : List (LogLine ι) :=
  .result trial :: .rawBegin trial ::
    ((List.range (hexLineCount (trials trial))).map (.rawChunk trial) ++ [.rawEnd trial])

def LogLine.ofTrial : LogLine ι → Bool
  | .other _ _ => false
  | _ => true

/-- The log of any number of boots, with any of its lines missing. -/
structure PrintedBy (boots : List (List ι)) (log : List (LogLine ι)) : Prop where
  once : boots.flatten.Nodup
  part : (log.filter LogLine.ofTrial).Sublist (boots.flatten.flatMap (trialLines trials))

variable {trials} in
def LogLine.render (raw : Windows trials) : LogLine ι → Text
  | .result trial => resultLine (trials trial) (raw trial).val ++ ['\n']
  | .rawBegin trial => rawHexBegin (trials trial) ++ ['\n']
  | .rawChunk trial index => rawHexChunk (trials trial) (raw trial).val index ++ ['\n']
  | .rawEnd trial => rawHexEnd (trials trial) ++ ['\n']
  | .other text _ => text

end Log

/-! ## `parse_log` -/

/-- `value.rstrip(",")` -/
def rstripComma (value : Text) : Text := value.rdropWhile (· = ',')

def parseKvLine (line : Text) : Entries := keyValues rstripComma (splitWords (strip line))

structure ParsedLog where
  rows : List Entries
  rawChunks : Nested Int Int Text

/-- `line.split(tag, 1)[1]` of a line with the tag. -/
def behindTag (tag line : Text) : Option Text :=
  (findSub tag line).map fun index => line.drop (index + tag.length)

def chunkFields (fields : Entries) : Option ((Int × Int) × Text) := do
  let trial ← (fields.lookup "trial".toList).bind parseInt
  let offset ← (fields.lookup "offset".toList).bind parseInt
  let hex ← fields.lookup "hex".toList
  return ((trial, offset), hex)

def parseLogLine (log : ParsedLog) (line : Text) : ParsedLog :=
  match behindTag resultLineTag line with
  | some payload => { log with rows := log.rows ++ [parseKvLine payload] }
  | none =>
      match behindTag rawHexChunkTag line with
      | none => log
      | some payload =>
          match chunkFields (parseKvLine payload) with
          | none => log
          | some written => { log with rawChunks := log.rawChunks.write written }

def parseLog (lines : List Text) : ParsedLog := lines.foldl parseLogLine ⟨[], ∅⟩

def joinHexParts (chunks : AList fun _ : Int => Text) : Option Bytes :=
  fromHex ((chunks.keys.insertionSort (· ≤ ·)).flatMap fun offset => (chunks.lookup offset).getD [])

/-- `raw_windows` as a function of the trial; `none` is a missing key. -/
def rawWindows (log : ParsedLog) (trial : Int) : Option Bytes :=
  (log.rawChunks.lookup trial).bind joinHexParts

/-! ## `build_summary` -/

/-- Digits for `str.isdigit` that `int` refuses: super- and subscripts and circled digits. -/
def otherDigits : List (Nat × Nat) :=
  [(0xB2, 0xB3), (0xB9, 0xB9), (0x1369, 0x1371), (0x19DA, 0x19DA), (0x2070, 0x2070),
    (0x2074, 0x2079), (0x2080, 0x2089), (0x2460, 0x2468), (0x2474, 0x247C), (0x2488, 0x2490),
    (0x24EA, 0x24EA), (0x24F5, 0x24FD), (0x24FF, 0x24FF), (0x2776, 0x277E), (0x2780, 0x2788),
    (0x278A, 0x2792), (0x10A40, 0x10A43), (0x10E60, 0x10E68), (0x11052, 0x1105A),
    (0x1F100, 0x1F10A)]

def isDigitChar (c : Char) : Bool :=
  (digitValue c).isSome || otherDigits.any fun range => range.1 ≤ c.toNat && c.toNat ≤ range.2

def isDigitText (text : Text) : Bool := text ≠ [] && text.all isDigitChar

/-- The window of a row, if it has one; `none` is a `ValueError`. -/
def rowWindow (log : ParsedLog) (row : Entries) : Option (List Bytes) :=
  let trial := (row.lookup "trial".toList).getD []
  if isDigitText trial then
    (parseInt trial).map fun number => (rawWindows log number).toList
  else some []

def rawValues (log : ParsedLog) : Option (List Bytes) :=
  (log.rows.mapM (rowWindow log)).map List.flatten

def bitCount (byte : UInt8) : Nat := (List.range 8).countP byte.toNat.testBit

def hammingBytes (left right : Bytes) : Nat :=
  if left.length ≠ right.length then 0
  else ((left.zip right).map fun pair => bitCount (pair.1 ^^^ pair.2)).sum

def pairwise {α : Type} (distance : α → α → Nat) : List α → List Nat
  | [] => []
  | value :: values => values.map (distance value) ++ pairwise distance values

structure ByteMinEntropy where
  bytes : Nat
  maxCount : Nat
  deriving DecidableEq, Repr

/-- The counts; `none` without any byte. -/
def byteMinEntropy (windows : List Bytes) : Option ByteMinEntropy :=
  let joined := windows.flatten
  if joined = [] then none
  else some ⟨joined.length, (joined.map fun byte => joined.count byte).foldl max 0⟩

/-- The parts of the summary that come from raw windows. The distances are given
before `summarize_dist`. -/
structure RawSummary where
  rawWindowHamming : List Nat
  rawByteMinEntropy : Option ByteMinEntropy
  rawWindowsPresent : Nat
  deriving DecidableEq, Repr

def buildSummary (log : ParsedLog) : Option RawSummary :=
  (rawValues log).map fun values =>
    ⟨pairwise hammingBytes values, byteMinEntropy values, values.length⟩

/-! ## Entries the firmware prints -/

structure PrintedChar (c : Char) : Prop where
  solid : isSpace c = false
  noComma : c ≠ ','
  noBracket : c ≠ '['

instance (c : Char) : Decidable (PrintedChar c) :=
  decidable_of_iff (isSpace c = false ∧ c ≠ ',' ∧ c ≠ '[')
    ⟨fun ⟨solid, comma, bracket⟩ => ⟨solid, comma, bracket⟩,
      fun printed => ⟨printed.solid, printed.noComma, printed.noBracket⟩⟩

structure PrintedEntry (entry : Text × Text) : Prop where
  key : ∀ c ∈ entry.1, PrintedChar c ∧ c ≠ '='
  value : ∀ c ∈ entry.2, PrintedChar c

theorem decimal_printed (value : Nat) : ∀ c ∈ decimal value, PrintedChar c :=
  forall_mem_to_digits (by decide) (by decide) value

theorem hex_text_printed (bytes : Bytes) : ∀ c ∈ hexText bytes, PrintedChar c :=
  forall_mem_hex_text (by decide) bytes

theorem rstrip_comma_printed {value : Text} (printed : ∀ c ∈ value, PrintedChar c) :
    rstripComma value = value := by
  rw [rstripComma, List.rdropWhile_eq_self_iff]
  intro nonempty comma
  exact (printed _ (List.getLast_mem nonempty)).noComma (of_decide_eq_true comma)

theorem PrintedEntry.plain {entry : Text × Text} (printed : PrintedEntry entry) :
    PlainEntry rstripComma entry := by
  constructor
  · exact fun member => (printed.key _ member).2 rfl
  · exact fun c member => (printed.key c member).1.solid
  · exact fun c member => (printed.value c member).solid
  · exact rstrip_comma_printed printed.value

theorem no_bracket_in_entries {entries : List (Text × Text)}
    (printed : ∀ entry ∈ entries, PrintedEntry entry) : '[' ∉ entriesText entries ++ ['\n'] := by
  have inner : '[' ∉ entriesText entries := by
    intro member
    obtain ⟨entry, known, inside⟩ := List.mem_flatMap.mp member
    have one := printed entry known
    rcases List.mem_cons.mp inside with blank | inside
    · exact absurd blank (by decide)
    rcases List.mem_append.mp inside with key | inside
    · exact (one.key _ key).1.noBracket rfl
    rcases List.mem_cons.mp inside with equals | value
    · exact absurd equals (by decide)
    · exact (one.value _ value).noBracket rfl
  rw [List.mem_append, not_or]
  exact ⟨inner, by decide⟩

theorem parse_kv_entries {entries : List (Text × Text)}
    (printed : ∀ entry ∈ entries, PrintedEntry entry) :
    parseKvLine (entriesText entries ++ ['\n']) = ofEntries entries := by
  have plain : ∀ entry ∈ entries, PlainEntry rstripComma entry :=
    fun entry member => (printed entry member).plain
  rw [parseKvLine, split_entries_text plain (by decide), key_values_tokens plain]

/-! ## Lines that are read -/

theorem behind_own_tag (tag payload : Text) : behindTag tag (tag ++ payload) = some payload := by
  rw [behindTag, find_sub_start, Option.map_some, Nat.zero_add, List.drop_left]

theorem behind_other_tag {tag own payload : Text} (head : tag.head? = some '[')
    (apart : ¬tag <+: own ∧ ¬own <+: tag) (inner : '[' ∉ own.tail) (plain : '[' ∉ payload) :
    behindTag tag (own ++ payload) = none := by
  rw [behindTag, Option.map_eq_none_iff]
  have other := other_tag apart payload
  cases own with
  | nil => exact absurd List.nil_prefix apart.2
  | cons c own =>
      rw [List.cons_append] at other ⊢
      rw [findSub, if_neg other, find_sub_absent head]
      · rfl
      · rw [List.mem_append, not_or]
        exact ⟨inner, plain⟩

end BootEntropy.Aeb
