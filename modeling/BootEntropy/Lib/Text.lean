import Mathlib.Data.List.Basic
import BootEntropy.Lib.Bytes

/-!
# Text as the host scripts see it

A Python `str` is a list of code points. The functions below follow the
interpreter's own behavior on the inputs that matter to log and datagram
parsing: UTF-8 decoding with replacement, whitespace, `split`, and `int`.
Hexadecimal and decimal rendering are shared with the C printers.
-/

namespace BootEntropy.Lib

set_option autoImplicit false

abbrev Text := List Char

/-- A statement about the characters of a text is decided over the text, not over
all characters. -/
instance (priority := high) decidableForallText {holds : Char → Prop} [DecidablePred holds]
    (text : Text) : Decidable (∀ c ∈ text, holds c) :=
  List.decidableBAll holds text

instance (priority := high) decidableForallOption {holds : Char → Prop} [DecidablePred holds] :
    ∀ c : Option Char, Decidable (∀ d ∈ c, holds d)
  | none => isTrue fun _ member => nomatch member
  | some d =>
      decidable_of_iff (holds d)
        ⟨fun held _ member => Option.some.inj member ▸ held, fun all => all d rfl⟩

/-! ## Rendering -/

def hexDigit (value : Nat) : Char := "0123456789abcdef".toList.getD value '0'

def asciiBytes (text : String) : Bytes := text.toList.map fun c => UInt8.ofNat c.toNat

/-- Two lower-case digits for every byte, most significant nibble first. -/
def hexText (bytes : Bytes) : Text :=
  bytes.flatMap fun byte => [hexDigit (byte.toNat / 16), hexDigit (byte.toNat % 16)]

def decimal (value : Nat) : Text := Nat.toDigits 10 value

def signedDecimal : Int → Text
  | .ofNat value => decimal value
  | .negSucc value => '-' :: decimal (value + 1)

private theorem hex_digit_injective :
    ∀ left right : Fin 16, hexDigit left = hexDigit right → left = right := by
  decide

private theorem hex_digit_inj {left right : Nat} (leftSmall : left < 16)
    (rightSmall : right < 16) (same : hexDigit left = hexDigit right) : left = right :=
  congrArg Fin.val (hex_digit_injective ⟨left, leftSmall⟩ ⟨right, rightSmall⟩ same)

/-- Two byte strings with one hexadecimal rendering are equal, so a printed
digest or secret gives away every byte of it. -/
theorem hex_text_injective : Function.Injective hexText := by
  intro left
  induction left with
  | nil =>
      intro right same
      cases right with
      | nil => rfl
      | cons byte rest => simp [hexText] at same
  | cons byte rest ih =>
      intro right same
      cases right with
      | nil => simp [hexText] at same
      | cons other others =>
          simp only [hexText, List.flatMap_cons, List.cons_append, List.nil_append,
            List.cons.injEq] at same
          obtain ⟨high, low, tails⟩ := same
          have byteBound : byte.toNat < 256 := byte.toNat_lt
          have otherBound : other.toNat < 256 := other.toNat_lt
          have highSame := hex_digit_inj (by omega) (by omega) high
          have lowSame := hex_digit_inj (by omega) (by omega) low
          have heads : byte = other := UInt8.toNat_inj.mp (by omega)
          rw [heads, ih tails]

@[simp] theorem hex_text_length (bytes : Bytes) : (hexText bytes).length = 2 * bytes.length := by
  induction bytes with
  | nil => rfl
  | cons byte rest ih =>
      simp only [hexText, List.flatMap_cons, List.length_append, List.length_cons,
        List.length_nil] at ih ⊢
      omega

/-! ## `bytes.decode("utf-8", errors="replace")` -/

/-- A character in progress: continuation octets still owed, the range the next
one must fall in, and the code point bits read so far. -/
structure PendingChar where
  owed : Nat
  low : Nat
  high : Nat
  bits : Nat
  deriving DecidableEq, Repr

def replacement : Char := Char.ofNat 0xFFFD

/-- The first octet of a character. An octet that can start nothing is replaced
on its own. -/
def startChar (byte : UInt8) : Text × Option PendingChar :=
  let b := byte.toNat
  if b < 0x80 then ([Char.ofNat b], none)
  else if b < 0xC2 then ([replacement], none)
  else if b < 0xE0 then ([], some ⟨1, 0x80, 0xBF, b % 0x20⟩)
  else if b = 0xE0 then ([], some ⟨2, 0xA0, 0xBF, 0⟩)
  else if b = 0xED then ([], some ⟨2, 0x80, 0x9F, 0xD⟩)
  else if b < 0xF0 then ([], some ⟨2, 0x80, 0xBF, b % 0x10⟩)
  else if b = 0xF0 then ([], some ⟨3, 0x90, 0xBF, 0⟩)
  else if b < 0xF4 then ([], some ⟨3, 0x80, 0xBF, b % 0x08⟩)
  else if b = 0xF4 then ([], some ⟨3, 0x80, 0x8F, 4⟩)
  else ([replacement], none)

/-- An octet that cannot continue a character closes it as one replacement
character and is then read as a first octet itself. -/
def decodeStep : Option PendingChar → UInt8 → Text × Option PendingChar
  | none, byte => startChar byte
  | some pending, byte =>
      if pending.low ≤ byte.toNat ∧ byte.toNat ≤ pending.high then
        let bits := pending.bits * 0x40 + byte.toNat % 0x40
        if pending.owed ≤ 1 then ([Char.ofNat bits], none)
        else ([], some ⟨pending.owed - 1, 0x80, 0xBF, bits⟩)
      else (replacement :: (startChar byte).1, (startChar byte).2)

def decodeFrom : Option PendingChar → Bytes → Text
  | none, [] => []
  | some _, [] => [replacement]
  | pending, byte :: rest =>
      (decodeStep pending byte).1 ++ decodeFrom (decodeStep pending byte).2 rest

def decodeUtf8 (bytes : Bytes) : Text := decodeFrom none bytes

theorem decode_utf8_ascii (byte : UInt8) (rest : Bytes) (ascii : byte.toNat < 0x80) :
    decodeUtf8 (byte :: rest) = Char.ofNat byte.toNat :: decodeUtf8 rest := by
  simp [decodeUtf8, decodeFrom, decodeStep, startChar, ascii]

/-! ## Whitespace and tokens -/

/-- `str.isspace` of one character. -/
def isSpace (c : Char) : Bool :=
  let n := c.toNat
  (9 ≤ n && n ≤ 13) || (28 ≤ n && n ≤ 32) || n = 0x85 || n = 0xA0 || n = 0x1680 ||
    (0x2000 ≤ n && n ≤ 0x200A) || n = 0x2028 || n = 0x2029 || n = 0x202F || n = 0x205F ||
    n = 0x3000

def stripWith (drop : Char → Bool) (text : Text) : Text :=
  ((text.dropWhile drop).reverse.dropWhile drop).reverse

/-- `str.strip()` -/
def strip (text : Text) : Text := stripWith isSpace text

/-- `str.split()`: maximal runs of non-space characters. -/
def splitWords (text : Text) : List Text := (text.splitOnP isSpace).filter (· ≠ [])

/-- `token.split("=", 1)` of a token that contains the separator, else `none`. -/
def splitOnce (separator : Char) (token : Text) : Option (Text × Text) :=
  if separator ∈ token then
    some (token.takeWhile (· ≠ separator), (token.dropWhile (· ≠ separator)).tail)
  else none

theorem strip_cons (c : Char) (rest : Text) (solid : isSpace c = false) :
    ∃ tail, strip (c :: rest) = c :: tail := by
  have ahead : (c :: rest).dropWhile isSpace = c :: rest := by simp [solid]
  have last : ∀ behind : Text,
      ∃ front, (behind ++ [c]).dropWhile isSpace = front ++ [c] := by
    intro behind
    induction behind with
    | nil => exact ⟨[], by simp [solid]⟩
    | cons head behind ih =>
        by_cases space : isSpace head
        · simpa [space] using ih
        · exact ⟨head :: behind, by simp [space]⟩
  obtain ⟨front, trimmed⟩ := last rest.reverse
  refine ⟨front.reverse, ?_⟩
  rw [strip, stripWith, ahead, List.reverse_cons, trimmed, List.reverse_append]
  rfl

/-! ## `int(str)` -/

/-- The code point of digit zero in every Unicode block of decimal digits. -/
def decimalZeros : List Nat :=
  [0x30, 0x660, 0x6F0, 0x7C0, 0x966, 0x9E6, 0xA66, 0xAE6, 0xB66, 0xBE6, 0xC66, 0xCE6, 0xD66,
    0xDE6, 0xE50, 0xED0, 0xF20, 0x1040, 0x1090, 0x17E0, 0x1810, 0x1946, 0x19D0, 0x1A80, 0x1A90,
    0x1B50, 0x1BB0, 0x1C40, 0x1C50, 0xA620, 0xA8D0, 0xA900, 0xA9D0, 0xA9F0, 0xAA50, 0xABF0,
    0xFF10, 0x104A0, 0x10D30, 0x11066, 0x110F0, 0x11136, 0x111D0, 0x112F0, 0x11450, 0x114D0,
    0x11650, 0x116C0, 0x11730, 0x118E0, 0x11950, 0x11C50, 0x11D50, 0x11DA0, 0x16A60, 0x16AC0,
    0x16B50, 0x1D7CE, 0x1D7D8, 0x1D7E2, 0x1D7EC, 0x1D7F6, 0x1E140, 0x1E2F0, 0x1E950, 0x1FBF0]

def digitValue (c : Char) : Option Nat :=
  (decimalZeros.find? fun base => decide (base ≤ c.toNat ∧ c.toNat ≤ base + 9)).map
    fun base => c.toNat - base

/-- The rest of a number after a first digit. One underscore may stand between
two digits. -/
def digitRun : Nat → Text → Option Nat
  | value, [] => some value
  | value, '_' :: c :: rest => (digitValue c).bind fun digit => digitRun (10 * value + digit) rest
  | value, c :: rest => (digitValue c).bind fun digit => digitRun (10 * value + digit) rest

/-- `sys.int_info.default_max_str_digits` -/
def maxStrDigits : Nat := 4300

def natural (text : Text) : Option Nat :=
  if maxStrDigits < (text.filter (· ≠ '_')).length then none
  else match text with
    | [] => none
    | c :: rest => (digitValue c).bind fun digit => digitRun digit rest

/-- `int` strips the C white space and the non-ASCII white space, but not the
four ASCII separators that `split` treats as space. -/
def intSpace (c : Char) : Bool :=
  (9 ≤ c.toNat && c.toNat ≤ 13) || c.toNat = 32 || (127 ≤ c.toNat && isSpace c)

/-- `int(text)`; `none` is a `ValueError`. -/
def parseInt (text : Text) : Option Int :=
  match stripWith intSpace text with
  | '+' :: digits => (natural digits).map Int.ofNat
  | '-' :: digits => (natural digits).map fun value => -(value : Int)
  | digits => (natural digits).map Int.ofNat

example : parseInt "-1_0".toList = some (-10) := by decide
example : parseInt "1__0".toList = none := by decide
example : decodeUtf8 [0xE2, 0x28, 0xF0, 0x9F, 0x98, 0x80] =
    [replacement, '(', Char.ofNat 0x1F600] := by decide

end BootEntropy.Lib
