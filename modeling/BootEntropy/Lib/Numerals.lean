import BootEntropy.Lib.Text

/-!
# Numerals

`int(text, 16)`, `bytes.fromhex`, and the round trips of both with the decimal and
hexadecimal printers.
-/

namespace BootEntropy.Lib

set_option autoImplicit false

/-! ## Digits in a base -/

/-- The rest of a number after a first digit. One underscore may stand between
two digits. -/
def digitRunIn (digit : Char → Option Nat) (base : Nat) : Nat → Text → Option Nat
  | value, [] => some value
  | value, '_' :: c :: rest =>
      (digit c).bind fun d => digitRunIn digit base (base * value + d) rest
  | value, c :: rest => (digit c).bind fun d => digitRunIn digit base (base * value + d) rest

theorem digit_run_eq (value : Nat) (text : Text) :
    digitRun value text = digitRunIn digitValue 10 value text := by
  fun_induction digitRun value text with
  | case1 => rfl
  | case2 value c rest ih =>
      rw [digitRunIn]
      exact congrArg _ (funext ih)
  | case3 value c rest other ih =>
      rw [digitRunIn]
      · exact congrArg _ (funext ih)
      · exact other

def numeral (digit : Char → Option Nat) (base : Nat) : Text → Option Nat
  | [] => none
  | c :: rest => (digit c).bind fun d => digitRunIn digit base d rest

theorem digit_run_in_eq_foldlM (digit : Char → Option Nat) (base : Nat) {text : Text}
    (plain : '_' ∉ text) (value : Nat) :
    digitRunIn digit base value text =
      text.foldlM (fun value c => (digit c).map (base * value + ·)) value := by
  induction text generalizing value with
  | nil => rfl
  | cons c rest ih =>
      rw [List.mem_cons, not_or] at plain
      have run : digitRunIn digit base value (c :: rest) =
          (digit c).bind fun d => digitRunIn digit base (base * value + d) rest := by
        rw [digitRunIn]
        intro _ _ underscore
        exact absurd underscore.symm plain.1
      rw [run, List.foldlM_cons]
      cases digit c with
      | none => rfl
      | some d => exact ih plain.2 (base * value + d)

theorem numeral_eq_foldlM (digit : Char → Option Nat) (base : Nat) {text : Text}
    (plain : '_' ∉ text) (nonempty : text ≠ []) :
    numeral digit base text =
      text.foldlM (fun value c => (digit c).map (base * value + ·)) 0 := by
  cases text with
  | nil => exact absurd rfl nonempty
  | cons c rest =>
      rw [List.mem_cons, not_or] at plain
      rw [numeral, List.foldlM_cons]
      cases digit c with
      | none => rfl
      | some d =>
          have run := digit_run_in_eq_foldlM digit base plain.2 d
          simpa using run

theorem foldlM_to_digits {digit : Char → Option Nat} {base : Nat} (large : 1 < base)
    (reads : ∀ d < base, digit d.digitChar = some d) (value : Nat) :
    (Nat.toDigits base value).foldlM (fun value c => (digit c).map (base * value + ·)) 0 =
      some value := by
  induction value using Nat.strongRecOn with
  | ind value ih =>
      by_cases small : value < base
      · rw [Nat.toDigits_of_lt_base small]
        simp [reads value small]
      · have positive : 0 < base := by omega
        have shrinks : value / base < value := Nat.div_lt_self (by omega) large
        rw [Nat.toDigits_of_base_le large (by omega), List.foldlM_append, ih _ shrinks]
        simp [reads _ (Nat.mod_lt value positive), Nat.div_add_mod]

theorem digit_of_mem_to_digits {base : Nat} (large : 1 < base) (value : Nat) :
    ∀ c ∈ Nat.toDigits base value, ∃ d < base, c = d.digitChar := by
  induction value using Nat.strongRecOn with
  | ind value ih =>
      intro c member
      by_cases below : value < base
      · rw [Nat.toDigits_of_lt_base below, List.mem_singleton] at member
        exact ⟨value, below, member⟩
      · have shrinks : value / base < value := Nat.div_lt_self (by omega) large
        rw [Nat.toDigits_of_base_le large (by omega), List.mem_append, List.mem_singleton] at member
        rcases member with front | last
        · exact ih _ shrinks c front
        · exact ⟨value % base, Nat.mod_lt value (by omega), last⟩

theorem forall_mem_to_digits {base : Nat} (large : 1 < base) {holds : Char → Prop}
    (digit : ∀ d < base, holds d.digitChar) (value : Nat) :
    ∀ c ∈ Nat.toDigits base value, holds c := by
  intro c member
  obtain ⟨d, below, rfl⟩ := digit_of_mem_to_digits large value c member
  exact digit d below

theorem forall_mem_hex_text {holds : Char → Prop} (digit : ∀ d < 16, holds (hexDigit d))
    (bytes : Bytes) : ∀ c ∈ hexText bytes, holds c := by
  intro c member
  obtain ⟨byte, _, printed⟩ := List.mem_flatMap.mp member
  have bounded : byte.toNat < 256 := byte.toNat_lt
  simp only [List.mem_cons, List.not_mem_nil, or_false] at printed
  rcases printed with rfl | rfl
  · exact digit _ (by omega)
  · exact digit _ (by omega)

structure PlainDigit (c : Char) : Prop where
  noSpace : isSpace c = false
  noIntSpace : intSpace c = false
  noSign : c ≠ '+' ∧ c ≠ '-'
  noUnderscore : c ≠ '_'
  noPrefix : c ≠ 'x' ∧ c ≠ 'X'

instance (c : Char) : Decidable (PlainDigit c) :=
  decidable_of_iff (isSpace c = false ∧ intSpace c = false ∧ (c ≠ '+' ∧ c ≠ '-') ∧ c ≠ '_' ∧
      c ≠ 'x' ∧ c ≠ 'X')
    ⟨fun ⟨space, intSpace, sign, underscore, letters⟩ =>
        ⟨space, intSpace, sign, underscore, letters⟩,
      fun plain => ⟨plain.noSpace, plain.noIntSpace, plain.noSign, plain.noUnderscore,
        plain.noPrefix⟩⟩

theorem plain_digits {base : Nat} (large : 1 < base) (small : base ≤ 16) (value : Nat) :
    ∀ c ∈ Nat.toDigits base value, PlainDigit c := by
  have digit : ∀ d < 16, PlainDigit d.digitChar := by decide
  exact forall_mem_to_digits large (fun d below => digit d (by omega)) value

theorem strip_with_solid {drop : Char → Bool} {text : Text}
    (solid : ∀ c ∈ text, drop c = false) : stripWith drop text = text := by
  have kept {letters : Text} (same : ∀ c ∈ letters, drop c = false) :
      letters.dropWhile drop = letters := by
    cases letters with
    | nil => rfl
    | cons c rest => rw [List.dropWhile_cons_of_neg (by simp [same c (List.mem_cons_self ..)])]
  rw [stripWith, kept solid, kept, List.reverse_reverse]
  intro c member
  exact solid c (List.mem_reverse.mp member)

/-! ## Decimal numbers -/

theorem natural_eq {text : Text} (short : text.length ≤ maxStrDigits) :
    natural text = numeral digitValue 10 text := by
  have filtered : (text.filter (· ≠ '_')).length ≤ text.length := List.length_filter_le _ _
  unfold natural
  rw [if_neg (by omega)]
  cases text with
  | nil => rfl
  | cons c rest =>
      have runs : digitRunIn digitValue 10 = digitRun :=
        funext fun value => funext fun text => (digit_run_eq value text).symm
      rw [numeral, runs]

theorem natural_decimal {value : Nat} (short : (decimal value).length ≤ maxStrDigits) :
    natural (decimal value) = some value := by
  have reads : ∀ d < 10, digitValue d.digitChar = some d := by decide
  have plain : '_' ∉ Nat.toDigits 10 value := fun member =>
    (plain_digits (by decide) (by decide) value _ member).noUnderscore rfl
  rw [natural_eq short, decimal, numeral_eq_foldlM _ _ plain Nat.toDigits_ne_nil]
  exact foldlM_to_digits (by decide) reads value

/-- `int` reads back what `%u` printed. -/
theorem parse_int_decimal {value : Nat} (short : (decimal value).length ≤ maxStrDigits) :
    parseInt (decimal value) = some (value : Int) := by
  have plain : ∀ c ∈ decimal value, PlainDigit c := plain_digits (by decide) (by decide) value
  have read := natural_decimal short
  unfold parseInt
  rw [strip_with_solid fun c member => (plain c member).noIntSpace]
  generalize decimal value = digits at plain read ⊢
  split
  · exact absurd rfl (plain '+' (List.mem_cons_self ..)).noSign.1
  · exact absurd rfl (plain '-' (List.mem_cons_self ..)).noSign.2
  · rw [read]
    rfl

/-- `format(value, "0{width}d")` -/
def paddedDecimal (width value : Nat) : Text :=
  List.replicate (width - (decimal value).length) '0' ++ decimal value

theorem padded_decimal_plain (width value : Nat) : ∀ c ∈ paddedDecimal width value, c.isDigit := by
  have digit : ∀ d < 10, d.digitChar.isDigit := by decide
  intro c member
  rcases List.mem_append.mp member with zero | printed
  · rw [List.eq_of_mem_replicate zero]
    decide
  · exact @forall_mem_to_digits 10 (by decide) (fun c => c.isDigit) digit value c printed

theorem padded_decimal_injective (width : Nat) : Function.Injective (paddedDecimal width) := by
  have reads : ∀ d < 10, digitValue d.digitChar = some d := by decide
  have zeros (count : Nat) : (List.replicate count '0').foldlM
      (fun value c => (digitValue c).map (10 * value + ·)) 0 = some 0 := by
    induction count with
    | zero => rfl
    | succ count ih =>
        rw [List.replicate_succ, List.foldlM_cons]
        exact ih
  have value (number : Nat) : (paddedDecimal width number).foldlM
      (fun value c => (digitValue c).map (10 * value + ·)) 0 = some number := by
    rw [paddedDecimal, List.foldlM_append, zeros]
    exact foldlM_to_digits (by decide) reads number
  intro left right same
  have both := value left
  rw [same, value right] at both
  exact (Option.some.inj both).symm

/-- `%d` -/
theorem parse_int_signed {value : Int} (short : (decimal value.natAbs).length ≤ maxStrDigits) :
    parseInt (signedDecimal value) = some value := by
  cases value with
  | ofNat value => exact parse_int_decimal short
  | negSucc value =>
      have plain : ∀ c ∈ decimal (value + 1), PlainDigit c :=
        plain_digits (by decide) (by decide) (value + 1)
      have read := natural_decimal short
      have solid : ∀ c ∈ '-' :: decimal (value + 1), intSpace c = false := by
        intro c member
        rcases List.mem_cons.mp member with rfl | digit
        · decide
        · exact (plain c digit).noIntSpace
      show parseInt ('-' :: decimal (value + 1)) = some (Int.negSucc value)
      unfold parseInt
      rw [strip_with_solid solid]
      show (natural (decimal (value + 1))).map (fun value => -(value : Int)) = _
      rw [show natural (decimal (value + 1)) = some (value + 1) from read]
      rfl

/-- A number of 64 bits is far below the limit of `int`. -/
theorem decimal_short {value : Nat} (fits : value < 2 ^ 64) :
    (decimal value).length ≤ maxStrDigits := by
  have digits : (Nat.toDigits 10 value).length ≤ 20 :=
    (Nat.length_toDigits_le_iff (by decide) (by decide)).mpr (by omega)
  exact le_trans digits (by decide)

/-! ## `int(text, 16)` -/

def hexDigitValue (c : Char) : Option Nat :=
  (digitValue c).or
    (if 'a' ≤ c ∧ c ≤ 'f' then some (c.toNat - 'a'.toNat + 10)
    else if 'A' ≤ c ∧ c ≤ 'F' then some (c.toNat - 'A'.toNat + 10)
    else none)

/-- The prefix `0x` and one underscore behind it. -/
def dropHexPrefix : Text → Text
  | '0' :: 'x' :: '_' :: rest => rest
  | '0' :: 'X' :: '_' :: rest => rest
  | '0' :: 'x' :: rest => rest
  | '0' :: 'X' :: rest => rest
  | text => text

def hexNatural (text : Text) : Option Nat := numeral hexDigitValue 16 (dropHexPrefix text)

/-- `int(text, 16)`; `none` is a `ValueError`. -/
def parseHexInt (text : Text) : Option Int :=
  match stripWith intSpace text with
  | '+' :: digits => (hexNatural digits).map Int.ofNat
  | '-' :: digits => (hexNatural digits).map fun value => -(value : Int)
  | digits => (hexNatural digits).map Int.ofNat

/-- `%x` -/
def hexadecimal (value : Nat) : Text := Nat.toDigits 16 value

theorem numeral_hexadecimal (value : Nat) :
    numeral hexDigitValue 16 (hexadecimal value) = some value := by
  have reads : ∀ d < 16, hexDigitValue d.digitChar = some d := by decide
  have plain : '_' ∉ Nat.toDigits 16 value := fun member =>
    (plain_digits (by decide) (by decide) value _ member).noUnderscore rfl
  rw [hexadecimal, numeral_eq_foldlM _ _ plain Nat.toDigits_ne_nil]
  exact foldlM_to_digits (by decide) reads value

/-- `int(..., 16)` reads back a printed pointer. -/
theorem parse_hex_int_pointer (value : Nat) :
    parseHexInt ("0x".toList ++ hexadecimal value) = some (value : Int) := by
  have plain : ∀ c ∈ hexadecimal value, PlainDigit c := plain_digits (by decide) (by decide) value
  have read := numeral_hexadecimal value
  have solid : ∀ c ∈ "0x".toList ++ hexadecimal value, intSpace c = false := by
    intro c member
    rcases List.mem_append.mp member with front | digit
    · have both : ∀ letter ∈ "0x".toList, intSpace letter = false := by decide
      exact both c front
    · exact (plain c digit).noIntSpace
  have dropped : dropHexPrefix ("0x".toList ++ hexadecimal value) = hexadecimal value := by
    show dropHexPrefix ('0' :: 'x' :: hexadecimal value) = hexadecimal value
    generalize hexadecimal value = digits at plain
    rw [dropHexPrefix]
    rintro rest rfl
    exact (plain '_' (List.mem_cons_self ..)).noUnderscore rfl
  unfold parseHexInt
  rw [strip_with_solid solid]
  show (hexNatural ("0x".toList ++ hexadecimal value)).map Int.ofNat = some (value : Int)
  rw [hexNatural, dropped, read]
  rfl

/-! ## `int(text, 0)` -/

def digitBelow (base : Nat) (c : Char) : Option Nat := (hexDigitValue c).filter (· < base)

def radixLetter (c : Char) : Option Nat :=
  if c = 'x' ∨ c = 'X' then some 16
  else if c = 'o' ∨ c = 'O' then some 8
  else if c = 'b' ∨ c = 'B' then some 2
  else none

def dropUnderscore : Text → Text
  | '_' :: rest => rest
  | text => text

/-- A decimal literal does not begin with a zero, unless it is zero. -/
def literal : Text → Option Nat
  | [] => none
  | first :: rest =>
      if digitValue first = some 0 then
        match rest.head?.bind radixLetter with
        | some base => numeral (digitBelow base) base (dropUnderscore rest.tail)
        | none => (natural (first :: rest)).filter (· = 0)
      else natural (first :: rest)

/-- `int(text, 0)`; `none` is a `ValueError`. -/
def parseLiteral (text : Text) : Option Int :=
  match stripWith intSpace text with
  | '+' :: digits => (literal digits).map Int.ofNat
  | '-' :: digits => (literal digits).map fun value : Nat => -(value : Int)
  | digits => (literal digits).map Int.ofNat

theorem decimal_head {value : Nat} (positive : 0 < value) :
    ∀ c ∈ (decimal value).head?, digitValue c ≠ some 0 := by
  have digit : ∀ d < 10, 0 < d → digitValue d.digitChar ≠ some 0 := by decide
  rw [decimal]
  induction value using Nat.strongRecOn with
  | ind value ih =>
      by_cases below : value < 10
      · rw [Nat.toDigits_of_lt_base below]
        rintro c ⟨⟩
        exact digit value below positive
      · rw [Nat.toDigits_of_base_le (by decide) (by omega),
          List.head?_append_of_ne_nil _ Nat.toDigits_ne_nil]
        exact ih (value / 10) (by omega) (by omega)

theorem parse_literal_decimal {value : Nat} (short : (decimal value).length ≤ maxStrDigits) :
    parseLiteral (decimal value) = some (value : Int) := by
  rcases Nat.eq_zero_or_pos value with rfl | positive
  · decide
  have plain : ∀ c ∈ decimal value, PlainDigit c := plain_digits (by decide) (by decide) value
  have read := natural_decimal short
  have head := decimal_head positive
  have whole : literal (decimal value) = some value := by
    rw [← read]
    cases digits : decimal value with
    | nil => exact absurd digits Nat.toDigits_ne_nil
    | cons first rest =>
        rw [digits] at head
        rw [literal, if_neg (head first rfl)]
  unfold parseLiteral
  rw [strip_with_solid fun c member => (plain c member).noIntSpace]
  generalize decimal value = digits at plain whole ⊢
  split
  · exact absurd rfl (plain '+' (List.mem_cons_self ..)).noSign.1
  · exact absurd rfl (plain '-' (List.mem_cons_self ..)).noSign.2
  · rw [whole]
    rfl

/-! ### How large a literal is -/

section Bounds

variable {digit : Char → Option Nat} {base : Nat}

theorem digit_run_in_lt (small : ∀ c d, digit c = some d → d < base) (value : Nat) (text : Text) :
    ∀ read, digitRunIn digit base value text = some read → read < (value + 1) * base ^ text.length := by
  have grows {value d read length : Nat} (below : d < base)
      (bound : read < (base * value + d + 1) * base ^ length) :
      read < (value + 1) * base ^ (length + 1) := by
    have wider : base * value + d + 1 ≤ (value + 1) * base := by
      rw [Nat.succ_mul, Nat.mul_comm value]
      omega
    calc
      read < (base * value + d + 1) * base ^ length := bound
      _ ≤ (value + 1) * base * base ^ length := Nat.mul_le_mul_right _ wider
      _ = (value + 1) * base ^ (length + 1) := by rw [Nat.pow_succ', Nat.mul_assoc]
  fun_induction digitRunIn digit base value text with
  | case1 value =>
      rintro read ⟨⟩
      rw [List.length_nil, Nat.pow_zero]
      omega
  | case2 value c rest ih =>
      intro read run
      obtain ⟨d, known, later⟩ := Option.bind_eq_some_iff.mp run
      have below := small c d known
      have bound := grows below (ih d read later)
      exact bound.trans_le (Nat.mul_le_mul_left _
        (Nat.pow_le_pow_right (by omega) (by simp only [List.length_cons]; omega)))
  | case3 value c rest other ih =>
      intro read run
      obtain ⟨d, known, later⟩ := Option.bind_eq_some_iff.mp run
      exact grows (small c d known) (ih d read later)

theorem numeral_lt (small : ∀ c d, digit c = some d → d < base) {text : Text} {read : Nat}
    (run : numeral digit base text = some read) : read < base ^ text.length := by
  cases text with
  | nil => cases run
  | cons c rest =>
      obtain ⟨d, known, later⟩ := Option.bind_eq_some_iff.mp run
      have bound := digit_run_in_lt small d rest read later
      exact bound.trans_le (by
        rw [List.length_cons, Nat.pow_succ']
        exact Nat.mul_le_mul_right _ (small c d known))

end Bounds

theorem digit_value_lt (c : Char) (d : Nat) (known : digitValue c = some d) : d < 10 := by
  rw [digitValue, Option.map_eq_some_iff] at known
  obtain ⟨first, found, rfl⟩ := known
  have near : decide (first ≤ c.toNat ∧ c.toNat ≤ first + 9) = true := by
    have holds := List.find?_some found
    exact holds
  have range := of_decide_eq_true near
  omega

theorem digit_below_lt {base : Nat} (c : Char) (d : Nat) (known : digitBelow base c = some d) :
    d < base := by
  rw [digitBelow, Option.filter_eq_some_iff] at known
  exact of_decide_eq_true known.2

theorem literal_lt {text : Text} {read : Nat} (known : literal text = some read) :
    read < 16 ^ text.length := by
  have decimal (run : natural text = some read) : read < 16 ^ text.length := by
    have digits : numeral digitValue 10 text = some read := by
      unfold natural at run
      split_ifs at run
      cases text with
      | nil => cases run
      | cons c rest =>
          rw [numeral]
          simp only [← digit_run_eq]
          exact run
    exact (numeral_lt digit_value_lt digits).trans_le (Nat.pow_le_pow_left (by decide) _)
  have shorter (rest : Text) : (dropUnderscore rest).length ≤ rest.length := by
    unfold dropUnderscore
    split
    · exact Nat.le_succ _
    · exact le_refl _
  have radix {c : Char} {base : Nat} (letter : radixLetter c = some base) : 0 < base ∧ base ≤ 16 := by
    unfold radixLetter at letter
    split_ifs at letter <;> cases letter <;> decide
  cases text with
  | nil => cases known
  | cons first rest =>
      rw [literal] at known
      split_ifs at known
      · cases letter : rest.head?.bind radixLetter with
        | some base =>
            rw [letter] at known
            obtain ⟨c, _, isLetter⟩ := Option.bind_eq_some_iff.mp letter
            obtain ⟨positive, most⟩ := radix isLetter
            have bound := numeral_lt digit_below_lt known
            have length : (dropUnderscore rest.tail).length ≤ (first :: rest).length := by
              have tail := shorter rest.tail
              rw [List.length_tail] at tail
              rw [List.length_cons]
              omega
            calc
              read < base ^ (dropUnderscore rest.tail).length := bound
              _ ≤ base ^ (first :: rest).length := Nat.pow_le_pow_right positive length
              _ ≤ 16 ^ (first :: rest).length := Nat.pow_le_pow_left most _
        | none =>
            rw [letter] at known
            exact decimal (Option.filter_eq_some_iff.mp known).1
      · exact decimal known

/-- A literal has less than one hexadecimal digit for each character. -/
theorem parse_literal_lt {text : Text} {read : Int} (known : parseLiteral text = some read) :
    read.natAbs < 16 ^ text.length := by
  have stripped : (stripWith intSpace text).length ≤ text.length := by
    have front := (List.dropWhile_sublist (l := text) intSpace).length_le
    have back := (List.dropWhile_sublist (l := (text.dropWhile intSpace).reverse) intSpace).length_le
    rw [List.length_reverse] at back
    rw [stripWith, List.length_reverse]
    exact back.trans front
  have behind {digits : Text} {value : Nat} (length : digits.length ≤ (stripWith intSpace text).length)
      (number : literal digits = some value) : value < 16 ^ text.length :=
    (literal_lt number).trans_le (Nat.pow_le_pow_right (by decide) (length.trans stripped))
  unfold parseLiteral at known
  split at known
  · next digits shape =>
      obtain ⟨value, number, rfl⟩ := Option.map_eq_some_iff.mp known
      exact behind (by rw [shape]; exact Nat.le_succ _) number
  · next digits shape =>
      obtain ⟨value, number, rfl⟩ := Option.map_eq_some_iff.mp known
      rw [Int.natAbs_neg]
      exact behind (by rw [shape]; exact Nat.le_succ _) number
  · obtain ⟨value, number, rfl⟩ := Option.map_eq_some_iff.mp known
    exact behind (le_refl _) number

example : parseLiteral " -0x_1F".toList = some (-31) := by decide
example : parseLiteral "010".toList = none := by decide

/-! ## `bytes.fromhex` -/

def asciiSpace (c : Char) : Bool := (9 ≤ c.toNat && c.toNat ≤ 13) || c.toNat = 32

def nibble (c : Char) : Option Nat :=
  if '0' ≤ c ∧ c ≤ '9' then some (c.toNat - '0'.toNat)
  else if 'a' ≤ c ∧ c ≤ 'f' then some (c.toNat - 'a'.toNat + 10)
  else if 'A' ≤ c ∧ c ≤ 'F' then some (c.toNat - 'A'.toNat + 10)
  else none

/-- White space may stand between two bytes. -/
def fromHex : Text → Option Bytes
  | [] => some []
  | [c] => if asciiSpace c then some [] else none
  | c :: d :: rest =>
      if asciiSpace c then fromHex (d :: rest)
      else do
        let high ← nibble c
        let low ← nibble d
        let bytes ← fromHex rest
        return UInt8.ofNat (16 * high + low) :: bytes

theorem nibble_hex_digit : ∀ value < 16, nibble (hexDigit value) = some value ∧
    asciiSpace (hexDigit value) = false ∧ isSpace (hexDigit value) = false := by
  decide

theorem from_hex_text (bytes : Bytes) : fromHex (hexText bytes) = some bytes := by
  induction bytes with
  | nil => rfl
  | cons byte rest ih =>
      have bounded : byte.toNat < 256 := byte.toNat_lt
      have high := nibble_hex_digit (byte.toNat / 16) (by omega)
      have low := nibble_hex_digit (byte.toNat % 16) (by omega)
      have joined : UInt8.ofNat (16 * (byte.toNat / 16) + byte.toNat % 16) = byte := by
        rw [Nat.div_add_mod, UInt8.ofNat_toNat]
      show fromHex (hexDigit (byte.toNat / 16) :: hexDigit (byte.toNat % 16) :: hexText rest) = _
      rw [fromHex, high.2.1, high.1, low.1, ih]
      show some (UInt8.ofNat (16 * (byte.toNat / 16) + byte.toNat % 16) :: rest) = _
      rw [joined]

theorem from_hex_prefix {bytes : Bytes} {digits : Text} (cut : digits <+: hexText bytes) :
    fromHex digits = none ∨ ∃ piece, fromHex digits = some piece ∧ piece <+: bytes := by
  induction bytes generalizing digits with
  | nil =>
      rw [List.prefix_nil.mp cut]
      exact .inr ⟨[], rfl, List.prefix_rfl⟩
  | cons byte rest ih =>
      have bounded : byte.toNat < 256 := byte.toNat_lt
      have high := nibble_hex_digit (byte.toNat / 16) (by omega)
      have low := nibble_hex_digit (byte.toNat % 16) (by omega)
      have shape : hexText (byte :: rest) =
          hexDigit (byte.toNat / 16) :: hexDigit (byte.toNat % 16) :: hexText rest := rfl
      rw [shape] at cut
      match digits, cut with
      | [], _ => exact .inr ⟨[], rfl, List.nil_prefix⟩
      | [c], cut =>
          rw [List.cons_prefix_cons] at cut
          rw [cut.1, fromHex, high.2.1]
          exact .inl rfl
      | c :: d :: later, cut =>
          rw [List.cons_prefix_cons, List.cons_prefix_cons] at cut
          obtain ⟨rfl, rfl, rest⟩ := cut
          rw [fromHex, high.2.1, high.1, low.1]
          rcases ih rest with refused | ⟨piece, read, inside⟩
          · rw [refused]
            exact .inl rfl
          · have joined : UInt8.ofNat (16 * (byte.toNat / 16) + byte.toNat % 16) = byte := by
              rw [Nat.div_add_mod, UInt8.ofNat_toNat]
            rw [read]
            refine .inr ⟨byte :: piece, ?_, List.cons_prefix_cons.mpr ⟨rfl, inside⟩⟩
            show some (UInt8.ofNat (16 * (byte.toNat / 16) + byte.toNat % 16) :: piece) = _
            rw [joined]

end BootEntropy.Lib
