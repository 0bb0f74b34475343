import Mathlib.Data.List.DropRight
import BootEntropy.Lib.Text

/-!
# Lines of tokens

ASCII decoding, `strip` and `split` of a line, and the dictionary that
`token.split("=", 1)` of its tokens makes.
-/

namespace BootEntropy.Lib

set_option autoImplicit false

/-! ## ASCII -/

/-- `bytes.decode("ascii", errors="replace")` -/
def decodeAscii (bytes : Bytes) : Text :=
  bytes.map fun byte => if byte.toNat < 0x80 then Char.ofNat byte.toNat else replacement

def textBytes (text : Text) : Bytes := text.map fun c => UInt8.ofNat c.toNat

theorem ascii_byte {c : Char} (ascii : c.toNat < 0x80) : (UInt8.ofNat c.toNat).toNat = c.toNat := by
  rw [UInt8.toNat_ofNat', Nat.mod_eq_of_lt (by omega)]

theorem decode_text_bytes {text : Text} (ascii : ∀ c ∈ text, c.toNat < 0x80) :
    decodeAscii (textBytes text) = text := by
  induction text with
  | nil => rfl
  | cons c rest ih =>
      have small : c.toNat < 0x80 := ascii c (List.mem_cons_self ..)
      have tail := ih fun d member => ascii d (List.mem_cons_of_mem c member)
      show (if (UInt8.ofNat c.toNat).toNat < 0x80 then Char.ofNat (UInt8.ofNat c.toNat).toNat
        else replacement) :: decodeAscii (textBytes rest) = c :: rest
      rw [ascii_byte small, if_pos small, Char.ofNat_toNat, tail]

theorem decode_utf8_text_bytes {text : Text} (ascii : ∀ c ∈ text, c.toNat < 0x80) :
    decodeUtf8 (textBytes text) = text := by
  induction text with
  | nil => rfl
  | cons c rest ih =>
      have small : c.toNat < 0x80 := ascii c (List.mem_cons_self ..)
      have byte := ascii_byte small
      have tail := ih fun d member => ascii d (List.mem_cons_of_mem c member)
      rw [textBytes] at tail
      rw [textBytes, List.map_cons, decode_utf8_ascii _ _ (by omega), byte, Char.ofNat_toNat, tail]

theorem decode_ascii_append (left right : Bytes) :
    decodeAscii (left ++ right) = decodeAscii left ++ decodeAscii right := List.map_append

theorem text_bytes_append (left right : Text) :
    textBytes (left ++ right) = textBytes left ++ textBytes right := List.map_append

theorem other_tag {tag own : Text} (apart : ¬tag <+: own ∧ ¬own <+: tag) (rest : Text) :
    ¬tag <+: own ++ rest := by
  intro begins
  rcases List.prefix_or_prefix_of_prefix begins (List.prefix_append own rest) with shorter | longer
  · exact apart.1 shorter
  · exact apart.2 longer

/-! ## `split` -/

structure Word (text : Text) : Prop where
  solid : ∀ c ∈ text, isSpace c = false
  nonempty : text ≠ []

instance (text : Text) : Decidable (Word text) :=
  decidable_of_iff ((∀ c ∈ text, isSpace c = false) ∧ text ≠ [])
    ⟨fun ⟨solid, nonempty⟩ => ⟨solid, nonempty⟩, fun word => ⟨word.solid, word.nonempty⟩⟩

theorem split_words_space (left right : Text) {c : Char} (space : isSpace c = true) :
    splitWords (left ++ c :: right) = splitWords left ++ splitWords right := by
  rw [splitWords, List.splitOnP_append_cons left right space, List.filter_append]
  rfl

theorem split_words_word {word : Text} (solid : Word word) : splitWords word = [word] := by
  rw [splitWords, List.splitOnP_eq_singleton solid.solid]
  exact List.filter_cons_of_pos (decide_eq_true solid.nonempty)

theorem split_words_cons {word : Text} (solid : Word word) (rest : Text) :
    splitWords (word ++ ' ' :: rest) = word :: splitWords rest := by
  rw [split_words_space word rest (by decide), split_words_word solid]
  rfl

theorem split_words_blank {blank : Text} (spaces : ∀ c ∈ blank, isSpace c = true) :
    splitWords blank = [] := by
  induction blank with
  | nil => rfl
  | cons c rest ih =>
      have first := split_words_space [] rest (spaces c (List.mem_cons_self ..))
      have later := ih fun d member => spaces d (List.mem_cons_of_mem c member)
      rw [List.nil_append, later] at first
      exact first

theorem split_words_append_blank (text : Text) {blank : Text}
    (spaces : ∀ c ∈ blank, isSpace c = true) : splitWords (text ++ blank) = splitWords text := by
  cases blank with
  | nil => rw [List.append_nil]
  | cons c rest =>
      have later := split_words_blank fun d member => spaces d (List.mem_cons_of_mem c member)
      rw [split_words_space text rest (spaces c (List.mem_cons_self ..)), later, List.append_nil]

theorem split_words_drop_blank (text : Text) :
    splitWords (text.dropWhile isSpace) = splitWords text := by
  induction text with
  | nil => rfl
  | cons c rest ih =>
      by_cases space : isSpace c = true
      · have first := split_words_space [] rest space
        rw [List.dropWhile_cons_of_pos space, ih]
        exact first.symm
      · rw [List.dropWhile_cons_of_neg space]

theorem split_words_strip (text : Text) : splitWords (strip text) = splitWords text := by
  have behind : strip text = (text.dropWhile isSpace).rdropWhile isSpace := rfl
  have whole := @List.rdropWhile_append_rtakeWhile _ isSpace (text.dropWhile isSpace)
  have spaces : ∀ c ∈ (text.dropWhile isSpace).rtakeWhile isSpace, isSpace c = true :=
    fun c member => List.mem_rtakeWhile_imp member
  rw [behind, ← split_words_append_blank _ spaces, whole, split_words_drop_blank]

theorem drop_while_stops {drop : Char → Bool} {text rest : Text} {c : Char}
    (back : text.dropWhile drop = c :: rest) : drop c = false := by
  have edge := List.head?_dropWhile_not drop text
  rw [back] at edge
  exact edge

theorem split_words_ne_nil {text : Text} {c : Char} (member : c ∈ text)
    (solid : isSpace c = false) : splitWords text ≠ [] := by
  induction text with
  | nil => cases member
  | cons d rest ih =>
      by_cases space : isSpace d = true
      · have first : splitWords (d :: rest) = splitWords rest := split_words_space [] rest space
        rw [first]
        rcases List.mem_cons.mp member with rfl | later
        · rw [solid] at space
          cases space
        · exact ih later
      · have front : Word (d :: rest.takeWhile fun e => !isSpace e) := by
          constructor
          · intro e inside
            rcases List.mem_cons.mp inside with rfl | later
            · exact Bool.eq_false_iff.mpr space
            · have kept := List.mem_takeWhile_imp later
              rw [Bool.not_eq_true'] at kept
              exact kept
          · exact List.cons_ne_nil _ _
        have whole := List.takeWhile_append_dropWhile (p := fun e => !isSpace e) (l := rest)
        cases back : rest.dropWhile fun e => !isSpace e with
        | nil =>
            rw [back, List.append_nil] at whole
            rw [whole] at front
            rw [split_words_word front]
            exact List.cons_ne_nil _ _
        | cons e later =>
            have blank : isSpace e = true := by
              have stop := drop_while_stops back
              rw [Bool.not_eq_false'] at stop
              exact stop
            rw [← whole, back, ← List.cons_append, split_words_space _ later blank,
              split_words_word front]
            exact List.cons_ne_nil _ _

/-! ## `dict(token.split("=", 1) for token in tokens if "=" in token)` -/

/-- The entry of a name; a later token wins. -/
def field (tokens : List Text) (name : Text) : Option Text :=
  (tokens.filterMap (splitOnce '=')).reverse.lookup name

theorem field_snoc_other {tokens : List Text} {token name : Text}
    (other : ∀ value, splitOnce '=' token ≠ some (name, value)) :
    field (tokens ++ [token]) name = field tokens name := by
  rw [field, List.filterMap_append]
  cases split : splitOnce '=' token with
  | none => simp [field, split]
  | some entry =>
      obtain ⟨key, value⟩ := entry
      have different : name ≠ key := by
        rintro rfl
        exact other value split
      have unequal : (name == key) = false := beq_eq_false_iff_ne.mpr different
      simp [field, split, List.lookup_cons, unequal]

theorem field_snoc_same {tokens : List Text} {token name value : Text}
    (same : splitOnce '=' token = some (name, value)) :
    field (tokens ++ [token]) name = some value := by
  rw [field, List.filterMap_append]
  simp [same]

theorem split_once_separator {separator : Char} {name : Text} (value : Text)
    (plain : separator ∉ name) :
    splitOnce separator (name ++ separator :: value) = some (name, value) := by
  have kept : ∀ c ∈ name, decide (c ≠ separator) = true := by
    intro c member
    rw [decide_eq_true_eq]
    rintro rfl
    exact plain member
  have front : (name ++ separator :: value).takeWhile (· ≠ separator) = name := by
    rw [List.takeWhile_append_of_pos kept]
    simp
  have back : (name ++ separator :: value).dropWhile (· ≠ separator) = separator :: value := by
    rw [List.dropWhile_append_of_pos kept]
    simp
  rw [splitOnce, if_pos (by simp), front, back]
  rfl

theorem split_once_entry {name : Text} (value : Text) (plain : '=' ∉ name) :
    splitOnce '=' (name ++ '=' :: value) = some (name, value) := split_once_separator value plain

theorem split_once_plain {token : Text} (plain : '=' ∉ token) : splitOnce '=' token = none := by
  rw [splitOnce, if_neg plain]

theorem entry_of_split_once {token name value : Text}
    (entry : splitOnce '=' token = some (name, value)) : name ++ ['='] <+: token := by
  have separated : '=' ∈ token := by
    by_contra plain
    rw [split_once_plain plain] at entry
    cases entry
  rw [splitOnce, if_pos separated] at entry
  obtain ⟨rfl, rfl⟩ := Prod.mk.inj (Option.some.inj entry)
  have whole := List.takeWhile_append_dropWhile (p := fun c => decide (c ≠ '=')) (l := token)
  cases back : token.dropWhile fun c => decide (c ≠ '=') with
  | nil =>
      have all := List.dropWhile_eq_nil_iff.mp back '=' separated
      simp at all
  | cons c rest =>
      have same : c = '=' := by
        have stop := drop_while_stops back
        rw [decide_eq_false_iff_not, not_not] at stop
        exact stop
      rw [back, same] at whole
      refine ⟨rest, ?_⟩
      rw [List.append_assoc, List.singleton_append]
      exact whole

/-! ## `strip` -/

theorem strip_line {line blank : Text} (first : ∀ c ∈ line.head?, isSpace c = false)
    (last : ∀ c ∈ line.getLast?, isSpace c = false) (spaces : ∀ c ∈ blank, isSpace c = true) :
    strip (line ++ blank) = line := by
  have trimmed (text : Text) (front : ∀ c ∈ text.head?, isSpace c = false) :
      text.dropWhile isSpace = text := by
    cases text with
    | nil => rfl
    | cons c rest => exact List.dropWhile_cons_of_neg (by simp [front c rfl])
  have gone : blank.reverse.dropWhile isSpace = [] := by
    rw [List.dropWhile_eq_nil_iff]
    intro c member
    exact spaces c (List.mem_reverse.mp member)
  cases line with
  | nil =>
      have blankGone : blank.dropWhile isSpace = [] := List.dropWhile_eq_nil_iff.mpr spaces
      rw [List.nil_append, strip, stripWith, blankGone]
      rfl
  | cons c rest =>
      rw [strip, stripWith, trimmed (c :: rest ++ blank) first, List.reverse_append,
        List.dropWhile_append, gone]
      simp only [List.isEmpty_nil, if_true]
      rw [trimmed, List.reverse_reverse]
      intro d member
      rw [List.head?_reverse] at member
      exact last d member

theorem word_prefix_strip {word : Text} (solid : Word word) (rest : Text) :
    word <+: strip (word ++ rest) := by
  have stays (text : Text) (inside : ∀ c ∈ text, isSpace c = false) (behind : Text)
      (nonempty : text ≠ []) : (text ++ behind).dropWhile isSpace = text ++ behind := by
    cases text with
    | nil => exact absurd rfl nonempty
    | cons c text =>
        exact List.dropWhile_cons_of_neg (by simp [inside c (List.mem_cons_self ..)])
  have mirrored : ∀ c ∈ word.reverse, isSpace c = false :=
    fun c member => solid.solid c (List.mem_reverse.mp member)
  have whole := stays word.reverse mirrored [] (List.reverse_ne_nil_iff.mpr solid.nonempty)
  rw [List.append_nil] at whole
  rw [strip, stripWith, stays word solid.solid rest solid.nonempty, List.reverse_append,
    List.dropWhile_append, whole]
  split_ifs
  · simp
  · rw [List.reverse_append, List.reverse_reverse]
    exact List.prefix_append _ _

theorem strip_subset (text : Text) : strip text ⊆ text := by
  have behind : strip text = (text.dropWhile isSpace).rdropWhile isSpace := rfl
  rw [behind]
  exact List.Subset.trans (List.rdropWhile_prefix isSpace _).subset
    (List.dropWhile_suffix isSpace).subset

theorem strip_prefix {line blank text : Text} (cut : text <+: line ++ blank)
    (first : ∀ c ∈ line.head?, isSpace c = false) (nonempty : line ≠ [])
    (spaces : ∀ c ∈ blank, isSpace c = true) : strip text <+: line := by
  cases text with
  | nil => exact List.nil_prefix
  | cons c rest =>
      have head : isSpace c = false := by
        cases line with
        | nil => exact absurd rfl nonempty
        | cons d others =>
            rw [List.cons_append, List.cons_prefix_cons] at cut
            rw [cut.1]
            exact first d rfl
      have front : (c :: rest).dropWhile isSpace = c :: rest :=
        List.dropWhile_cons_of_neg (by simp [head])
      have stripped : strip (c :: rest) = (c :: rest).rdropWhile isSpace := by
        rw [strip, stripWith, front]
        rfl
      rw [stripped]
      have shorter := (List.rdropWhile_prefix isSpace (c :: rest)).trans cut
      rcases List.prefix_or_prefix_of_prefix shorter (List.prefix_append line blank) with
        inside | outside
      · exact inside
      · obtain ⟨extra, same⟩ := outside
        rw [← same] at shorter
        have blankPart : extra <+: blank := (List.prefix_append_right_inj line).mp shorter
        by_cases none : extra = []
        · rw [none, List.append_nil] at same
          exact same ▸ List.prefix_rfl
        · exfalso
          have left : (c :: rest).rdropWhile isSpace ≠ [] := by
            rw [← same]
            exact List.append_ne_nil_of_right_ne_nil _ none
          have lastSolid := List.rdropWhile_last_not isSpace (c :: rest) left
          apply lastSolid
          apply spaces
          apply blankPart.subset
          have lastSame : ((c :: rest).rdropWhile isSpace).getLast left = extra.getLast none := by
            simp only [← same, List.getLast_append_of_ne_nil _ none]
          rw [lastSame]
          exact List.getLast_mem none

end BootEntropy.Lib
