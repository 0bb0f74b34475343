import BootEntropy.Capsule.Gate
import BootEntropy.Capsule.Isolation

/-!
# Lines of the console

The texts that `main` and `wifi.c` print, and what the parser reads in each of them.
-/

namespace BootEntropy.Capsule

open BootEntropy.Lib
open BootEntropy.BootLog

set_option autoImplicit false

/-! ## Characters -/

def fieldChars : Text := "abcdefghijklmnopqrstuvwxyz0123456789_.:-".toList
def addressChars : Text := "0123456789.".toList

structure PlainField (field : Text) : Prop where
  plain : ∀ c ∈ field, c ∈ fieldChars
  filled : field ≠ []

instance (field : Text) : Decidable (PlainField field) :=
  decidable_of_iff ((∀ c ∈ field, c ∈ fieldChars) ∧ field ≠ [])
    ⟨fun ⟨plain, filled⟩ => ⟨plain, filled⟩, fun field => ⟨field.plain, field.filled⟩⟩

/-- What no key and no value holds. -/
structure FieldChar (c : Char) : Prop where
  noSpace : isSpace c = false
  noBreak : isLineBreak c = false
  noComma : c ≠ ','
  noBracket : c ≠ '['
  noEqual : c ≠ '='
  ascii : c.toNat < 0x80

theorem field_char {c : Char} (member : c ∈ fieldChars) : FieldChar c := by
  have all : ∀ c ∈ fieldChars, isSpace c = false ∧ isLineBreak c = false ∧ c ≠ ',' ∧ c ≠ '[' ∧
      c ≠ '=' ∧ c.toNat < 0x80 := by decide
  obtain ⟨noSpace, noBreak, noComma, noBracket, noEqual, ascii⟩ := all c member
  exact ⟨noSpace, noBreak, noComma, noBracket, noEqual, ascii⟩

theorem nat_field (value : Nat) : PlainField (toString value).toList := by
  have digit : ∀ d < 10, d.digitChar ∈ fieldChars := by decide
  have printed : (toString value).toList = Nat.toDigits 10 value := Nat.toList_repr
  rw [printed]
  exact ⟨forall_mem_to_digits (by decide) digit value, Nat.toDigits_ne_nil⟩

theorem int_field (value : Int) : PlainField (toString value).toList := by
  cases value with
  | ofNat value => exact nat_field value
  | negSucc value =>
      have sign : (toString (Int.negSucc value)).toList = '-' :: (toString (value + 1)).toList := by
        show ("-" ++ toString (value + 1)).toList = _
        rw [String.toList_append]
        rfl
      have minus : '-' ∈ fieldChars := by decide
      rw [sign]
      exact ⟨List.forall_mem_cons.mpr ⟨minus, (nat_field _).plain⟩, List.cons_ne_nil _ _⟩

theorem hex_field {bytes : Bytes} (some : bytes ≠ []) : PlainField (hexString bytes).toList := by
  have digit : ∀ value < 16, hexDigit value ∈ fieldChars := by decide
  rw [hexString, String.toList_ofList]
  constructor
  · exact forall_mem_hex_text digit bytes
  · cases bytes with
    | nil => exact absurd rfl some
    | cons byte rest => exact List.cons_ne_nil _ _

/-! ## Fields -/

inductive PlainFields : List String → Prop where
  | one {field : String} (plain : PlainField field.toList) : PlainFields [field]
  | two {key value : String} (plainKey : PlainField key.toList) (plainValue : PlainField value.toList) :
      PlainFields [key, value]

def fieldsText (fields : List String) : Text := (String.intercalate "," fields).toList

theorem fields_text_one (field : String) : fieldsText [field] = field.toList := by
  rw [fieldsText, String.intercalate_singleton]

theorem fields_text_two (key value : String) :
    fieldsText [key, value] = key.toList ++ ',' :: value.toList := by
  have comma : ",".toList = [','] := by decide
  rw [fieldsText, String.intercalate_cons_cons, String.intercalate_singleton, String.toList_append,
    String.toList_append, comma, List.append_assoc]
  rfl

/-- A text that `strip` leaves alone. -/
structure Trimmed (line : Text) : Prop where
  first : ∀ c ∈ line.head?, isSpace c = false
  last : ∀ c ∈ line.getLast?, isSpace c = false

theorem Trimmed.strip {line : Text} (trimmed : Trimmed line) : strip line = line := by
  have stripped := strip_line trimmed.first trimmed.last fun c (none : c ∈ ([] : Text)) =>
    absurd none List.not_mem_nil
  rw [List.append_nil] at stripped
  exact stripped

theorem last_append (front : Text) {back : Text} (filled : back ≠ [])
    (solid : ∀ c ∈ back.getLast?, isSpace c = false) :
    ∀ c ∈ (front ++ back).getLast?, isSpace c = false := by
  rw [List.getLast?_append_of_ne_nil front filled]
  exact solid

structure Body (body : Text) : Prop where
  chars : ∀ c ∈ body, c = ',' ∨ c ∈ fieldChars
  first : ∃ c, body.head? = some c ∧ c ∈ fieldChars
  last : ∀ c ∈ body.getLast?, isSpace c = false

theorem PlainField.body {field : Text} (plain : PlainField field) : Body field where
  chars := fun c member => .inr (plain.plain c member)
  first := by
    cases field with
    | nil => exact absurd rfl plain.filled
    | cons c rest => exact ⟨c, rfl, plain.plain c List.mem_cons_self⟩
  last := fun c member => (field_char (plain.plain c (List.mem_of_getLast? member))).noSpace

theorem PlainFields.body {fields : List String} (plain : PlainFields fields) :
    Body (fieldsText fields) := by
  cases plain with
  | one plain =>
      rw [fields_text_one]
      exact plain.body
  | @two key value plainKey plainValue =>
      obtain ⟨c, head, member⟩ := plainKey.body.first
      rw [fields_text_two]
      constructor
      · intro d inside
        rcases List.mem_append.mp inside with front | back
        · exact .inr (plainKey.plain d front)
        · rcases List.mem_cons.mp back with comma | later
          · exact .inl comma
          · exact .inr (plainValue.plain d later)
      · exact ⟨c, by rw [List.head?_append, head]; rfl, member⟩
      · apply last_append _ (List.cons_ne_nil _ _)
        exact last_append [','] plainValue.filled plainValue.body.last

theorem Body.filled {body : Text} (plain : Body body) : body ≠ [] := by
  obtain ⟨c, head, _⟩ := plain.first
  rintro rfl
  cases head

/-! ## Tags -/

def Tag.label : Tag → String
  | .tebMeta => "[TEB_META]"
  | .tebMetric => "[TEB_METRIC]"
  | .tebNet => "[TEB_NET]"
  | .tebErr => "[TEB_ERR]"
  | .tebPuf => "[TEB_PUF]"
  | .tebPool => "[TEB_POOL]"
  | .tebResult => "[TEB_RESULT]"
  | .tebSeedCommit => "[TEB_SEED_COMMIT]"

theorem tagged_text (tag : Tag) (fields : List String) :
    (ConsoleLine.tagged tag fields).text.toList =
      tag.label.toList ++ ' ' :: fieldsText fields := by
  have label : tag.text.toList = tag.label.toList ++ [' '] := by
    cases tag <;> decide
  rw [ConsoleLine.text, String.toList_append, label, List.append_assoc]
  rfl

structure LabelText (label : Text) : Prop where
  opens : label.head? = some '['
  once : '[' ∉ label.tail
  noEqual : '=' ∉ label
  noBreak : ∀ c ∈ label, isLineBreak c = false
  ascii : ∀ c ∈ label, c.toNat < 0x80

theorem label_text (tag : Tag) : LabelText tag.label.toList := by
  have all (tag : Tag) : tag.label.toList.head? = some '[' ∧ '[' ∉ tag.label.toList.tail ∧
      '=' ∉ tag.label.toList ∧ (∀ c ∈ tag.label.toList, isLineBreak c = false) ∧
      ∀ c ∈ tag.label.toList, c.toNat < 0x80 := by
    cases tag <;> decide
  obtain ⟨opens, once, noEqual, noBreak, ascii⟩ := all tag
  exact ⟨opens, once, noEqual, noBreak, ascii⟩

theorem other_label {tag other : Tag} (different : other ≠ tag) (rest : Text) :
    ¬other.label.toList <+: tag.label.toList ++ rest := by
  apply other_tag
  cases tag <;> cases other <;> first | exact absurd rfl different | decide

section Tagged

variable {tag : Tag} {fields : List String}

theorem tagged_plain (plain : PlainFields fields) :
    PlainLine (ConsoleLine.tagged tag fields).text.toList := by
  rw [tagged_text]
  intro c member
  rcases List.mem_append.mp member with label | behind
  · exact (label_text tag).noBreak c label
  · rcases List.mem_cons.mp behind with rfl | inside
    · decide
    · rcases plain.body.chars c inside with rfl | known
      · decide
      · exact (field_char known).noBreak

theorem tagged_trimmed (plain : PlainFields fields) :
    Trimmed (ConsoleLine.tagged tag fields).text.toList := by
  rw [tagged_text]
  constructor
  · intro c head
    rw [List.head?_append, (label_text tag).opens] at head
    cases head
    decide
  · apply last_append _ (List.cons_ne_nil _ _)
    exact last_append [' '] plain.body.filled plain.body.last

theorem tagged_no_address (plain : PlainFields fields) :
    addressSearch (ConsoleLine.tagged tag fields).text.toList = none := by
  have needed : '=' ∈ "IPv4 ready: addr=".toList := by decide
  apply address_search_none needed
  rw [tagged_text]
  intro member
  rcases List.mem_append.mp member with label | behind
  · exact (label_text tag).noEqual label
  · rcases List.mem_cons.mp behind with same | inside
    · cases same
    · rcases plain.body.chars '=' inside with same | known
      · cases same
      · exact (field_char known).noEqual rfl

theorem tagged_head : (ConsoleLine.tagged tag fields).text.toList.head? = some '[' := by
  rw [tagged_text, List.head?_append, (label_text tag).opens]
  rfl

theorem tagged_not_banner : (ConsoleLine.tagged tag fields).text.toList ≠ bannerText := by
  have banner : bannerText.head? ≠ some '[' := by decide
  intro same
  rw [← same] at banner
  exact banner tagged_head

theorem keyed_other {other : Tag} (different : other ≠ tag) :
    keyedEntry other.label (ConsoleLine.tagged tag fields).text.toList = none := by
  apply keyed_entry_none
  rw [tagged_text]
  exact other_label different _

theorem rest_other {other : Tag} (different : other ≠ tag) :
    taggedRest other.label (ConsoleLine.tagged tag fields).text.toList = none := by
  apply tagged_rest_none
  rw [tagged_text]
  exact other_label different _

theorem rest_own (plain : PlainFields fields) :
    taggedRest tag.label (ConsoleLine.tagged tag fields).text.toList = some (fieldsText fields) := by
  obtain ⟨c, head, member⟩ := plain.body.first
  rw [tagged_text]
  exact tagged_rest_eq tag.label head (field_char member).noSpace

theorem keyed_own {key value : String} (plainKey : PlainField key.toList)
    (plainValue : PlainField value.toList) :
    keyedEntry tag.label (ConsoleLine.tagged tag [key, value]).text.toList =
      some (key.toList, value.toList) := by
  obtain ⟨c, head, member⟩ := plainKey.body.first
  rw [tagged_text, fields_text_two]
  exact keyed_entry_eq tag.label head (field_char member).noSpace
    (fun comma => (field_char (plainKey.plain ',' comma)).noComma rfl) plainValue.filled

theorem rest_profile : taggedRest "Profile:" (ConsoleLine.tagged tag fields).text.toList = none := by
  have apart (tag : Tag) : ¬"Profile:".toList <+: tag.label.toList ∧
      ¬tag.label.toList <+: "Profile:".toList := by
    cases tag <;> decide
  apply tagged_rest_none
  rw [tagged_text]
  exact other_tag (apart tag) _

end Tagged

/-! ## Entries -/

def keyedTags : List Tag := [.tebMeta, .tebMetric, .tebPool, .tebPuf]

theorem key_tags_eq : keyTags = keyedTags.map Tag.label := rfl

theorem read_keyed {tag : Tag} {key value : String} (keyed : tag ∈ keyedTags)
    (plainKey : PlainField key.toList) (plainValue : PlainField value.toList) :
    readEntry (ConsoleLine.tagged tag [key, value]).text.toList =
      .fields [(key.toList, value.toList)] := by
  have found (tags : List Tag) (known : tag ∈ tags) :
      (tags.map Tag.label).findSome? (fun label =>
        keyedEntry label (ConsoleLine.tagged tag [key, value]).text.toList) =
          some (key.toList, value.toList) := by
    induction tags with
    | nil => cases known
    | cons other tags ih =>
        rw [List.map_cons, List.findSome?_cons]
        by_cases same : other = tag
        · rw [same, keyed_own plainKey plainValue]
        · rw [keyed_other same]
          exact ih (List.mem_of_ne_of_mem (Ne.symm same) known)
  rw [readEntry, if_neg tagged_not_banner, key_tags_eq, found keyedTags keyed]

section Unkeyed

variable {tag : Tag} {fields : List String}

theorem unkeyed_eq_none (unkeyed : tag ∉ keyedTags) :
    (keyTags.findSome? fun label =>
      keyedEntry label (ConsoleLine.tagged tag fields).text.toList) = none := by
  rw [key_tags_eq, List.findSome?_eq_none_iff]
  intro label member
  obtain ⟨other, known, rfl⟩ := List.mem_map.mp member
  apply keyed_other
  rintro rfl
  exact unkeyed known

theorem read_result (plain : PlainFields fields) :
    readEntry (ConsoleLine.tagged .tebResult fields).text.toList = .result (fieldsText fields) := by
  have own := @rest_own .tebResult fields plain
  rw [readEntry, if_neg tagged_not_banner, unkeyed_eq_none (by decide)]
  dsimp only
  rw [show "[TEB_RESULT]" = Tag.tebResult.label from rfl, own]

theorem read_error (plain : PlainFields fields) :
    readEntry (ConsoleLine.tagged .tebErr fields).text.toList =
      .fields [("error".toList, fieldsText fields), ("result".toList, "failed".toList)] := by
  have own := @rest_own .tebErr fields plain
  have other := @rest_other .tebErr fields .tebResult (by decide)
  rw [readEntry, if_neg tagged_not_banner, unkeyed_eq_none (by decide)]
  dsimp only
  rw [show "[TEB_RESULT]" = Tag.tebResult.label from rfl, other,
    show "[TEB_ERR]" = Tag.tebErr.label from rfl, own]

theorem read_note (unkeyed : tag ∉ keyedTags) (noResult : tag ≠ .tebResult) (noError : tag ≠ .tebErr)
    (plain : PlainFields fields) :
    readEntry (ConsoleLine.tagged tag fields).text.toList = .fields [] := by
  have result := @rest_other tag fields .tebResult noResult.symm
  have error := @rest_other tag fields .tebErr noError.symm
  rw [readEntry, if_neg tagged_not_banner, unkeyed_eq_none unkeyed]
  dsimp only
  rw [show "[TEB_RESULT]" = Tag.tebResult.label from rfl, result,
    show "[TEB_ERR]" = Tag.tebErr.label from rfl, error, tagged_no_address plain, rest_profile]

end Unkeyed

/-! ## Lines without a tag -/

def addressEntries : Option (Text × Text) → List (Text × Text)
  | some (addr, gateway) => [("ipv4_addr".toList, addr), ("ipv4_gateway".toList, gateway)]
  | none => []

/-- Every pattern but that of the address begins with one of three characters. -/
theorem read_untagged {line : Text} (head : ∀ c ∈ line.head?, c ≠ '[' ∧ c ≠ 'A' ∧ c ≠ 'P') :
    readEntry line = .fields (addressEntries (addressSearch line)) := by
  have apart {tag : Text} {c : Char} (starts : tag.head? = some c) (known : c = '[' ∨ c = 'A' ∨ c = 'P') :
      ¬tag <+: line := by
    rintro ⟨rest, rfl⟩
    obtain ⟨bracket, banner, profile⟩ := head c (by rw [List.head?_append, starts]; rfl)
    rcases known with same | same | same
    · exact bracket same
    · exact banner same
    · exact profile same
  have notBanner : line ≠ bannerText := by
    rintro rfl
    exact apart (c := 'A') (by decide) (.inr (.inl rfl)) (List.prefix_refl bannerText)
  have noKey : (keyTags.findSome? fun tag => keyedEntry tag line) = none := by
    rw [key_tags_eq, List.findSome?_eq_none_iff]
    intro label member
    obtain ⟨tag, _, rfl⟩ := List.mem_map.mp member
    exact keyed_entry_none (apart (label_text tag).opens (.inl rfl))
  have noRest (tag : Tag) : taggedRest tag.label line = none :=
    tagged_rest_none (apart (label_text tag).opens (.inl rfl))
  have noProfile : taggedRest "Profile:" line = none :=
    tagged_rest_none (apart (c := 'P') (by decide) (.inr (.inr rfl)))
  rw [readEntry, if_neg notBanner, noKey]
  dsimp only
  rw [show "[TEB_RESULT]" = Tag.tebResult.label from rfl, noRest,
    show "[TEB_ERR]" = Tag.tebErr.label from rfl, noRest, noProfile]
  cases addressSearch line <;> rfl

theorem PlainField.line {field : Text} (plain : PlainField field) : PlainLine field :=
  fun c member => (field_char (plain.plain c member)).noBreak

theorem plain_line_append {front back : Text} (plainFront : PlainLine front)
    (plainBack : PlainLine back) : PlainLine (front ++ back) := by
  intro c member
  rcases List.mem_append.mp member with here | there
  · exact plainFront c here
  · exact plainBack c there

theorem trimmed_append {front back : Text} {c d : Char} (head : front.head? = some c)
    (solidHead : isSpace c = false) (last : back.getLast? = some d) (solidLast : isSpace d = false) :
    Trimmed (front ++ back) := by
  constructor
  · intro e first
    rw [List.head?_append, head] at first
    cases first
    exact solidHead
  · apply last_append
    · rintro rfl
      cases last
    · intro e final
      rw [last] at final
      cases final
      exact solidLast

/-! ## Wi-Fi lines -/

structure Address (text : Text) : Prop where
  chars : ∀ c ∈ text, c ∈ addressChars
  filled : text ≠ []

/-- The name of the network is one line, and the addresses are addresses. -/
def WifiLine.Plain : WifiLine → Prop
  | .connecting _ ssid => PlainLine ssid.toList
  | .ipv4Ready addr gw => Address addr.toList ∧ Address gw.toList
  | _ => True

theorem Address.field {text : Text} (address : Address text) : PlainField text where
  plain := by
    have known : ∀ c ∈ addressChars, c ∈ fieldChars := by decide
    exact fun c member => known c (address.chars c member)
  filled := address.filled

theorem Address.digits {text : Text} (address : Address text) :
    ∀ c ∈ text, isAddressChar c = true := by
  have known : ∀ c ∈ addressChars, isAddressChar c = true := by decide
  exact fun c member => known c (address.chars c member)

theorem connecting_text (attempt : Nat) (ssid : String) :
    (WifiLine.connecting attempt ssid).text.toList =
      "Connecting to Wi-Fi (attempt ".toList ++ ((toString attempt).toList ++
        ("/5, ssid=".toList ++ (ssid.toList ++ ")".toList))) := by
  show ("Connecting to Wi-Fi (attempt " ++ toString attempt ++ "/5, ssid=" ++ ssid ++ ")").toList = _
  simp only [String.toList_append, List.append_assoc]

theorem ipv4_ready_text (addr gw : String) :
    (WifiLine.ipv4Ready addr gw).text.toList =
      "IPv4 ready: addr=".toList ++ (addr.toList ++ (" gw=".toList ++ gw.toList)) := by
  show ("IPv4 ready: addr=" ++ addr ++ " gw=" ++ gw).toList = _
  simp only [String.toList_append, List.append_assoc]

theorem connection_failed_text (status : Int) :
    (WifiLine.connectionFailed status).text.toList =
      "Wi-Fi connection failed (".toList ++ ((toString status).toList ++ ")".toList) := by
  show ("Wi-Fi connection failed (" ++ toString status ++ ")").toList = _
  simp only [String.toList_append, List.append_assoc]

theorem wifi_plain {line : WifiLine} (plain : line.Plain) : PlainLine line.text.toList := by
  cases line with
  | connecting attempt ssid =>
      rw [connecting_text]
      apply plain_line_append (by decide)
      apply plain_line_append (nat_field attempt).line
      apply plain_line_append (by decide)
      exact plain_line_append plain (by decide)
  | connectionFailed status =>
      rw [connection_failed_text]
      apply plain_line_append (by decide)
      exact plain_line_append (int_field status).line (by decide)
  | ipv4Ready addr gw =>
      rw [ipv4_ready_text]
      apply plain_line_append (by decide)
      apply plain_line_append plain.1.field.line
      exact plain_line_append (by decide) plain.2.field.line
  | noInterface => decide
  | connected => decide
  | disconnected => decide
  | connectionTimeout => decide
  | ipv4Timeout => decide

theorem wifi_trimmed {line : WifiLine} (plain : line.Plain) : Trimmed line.text.toList := by
  have closed (front : Text) {c : Char} (head : front.head? = some c) (solid : isSpace c = false)
      (middle : Text) : Trimmed (front ++ (middle ++ ")".toList)) := by
    rw [← List.append_assoc]
    apply trimmed_append (c := c) (d := ')') _ solid (by decide) (by decide)
    rw [List.head?_append, head]
    rfl
  cases line with
  | connecting attempt ssid =>
      have split : (WifiLine.connecting attempt ssid).text.toList =
          "Connecting to Wi-Fi (attempt ".toList ++
            (((toString attempt).toList ++ ("/5, ssid=".toList ++ ssid.toList)) ++ ")".toList) := by
        rw [connecting_text]
        simp only [List.append_assoc]
      rw [split]
      exact closed _ (c := 'C') (by decide) (by decide) _
  | connectionFailed status =>
      rw [connection_failed_text]
      exact closed _ (c := 'W') (by decide) (by decide) _
  | ipv4Ready addr gw =>
      rw [ipv4_ready_text]
      constructor
      · intro c head
        rw [List.head?_append] at head
        cases head
        decide
      · apply last_append
        · exact List.append_ne_nil_of_right_ne_nil _ (List.append_ne_nil_of_right_ne_nil _ plain.2.filled)
        · apply last_append
          · exact List.append_ne_nil_of_right_ne_nil _ plain.2.filled
          · exact last_append _ plain.2.filled plain.2.field.body.last
  | noInterface => exact ⟨by decide, by decide⟩
  | connected => exact ⟨by decide, by decide⟩
  | disconnected => exact ⟨by decide, by decide⟩
  | connectionTimeout => exact ⟨by decide, by decide⟩
  | ipv4Timeout => exact ⟨by decide, by decide⟩

/-! ## What a line shows -/

/-- The keys and values of a printed line. The name of a network may hold an address. -/
def ConsoleLine.printed : ConsoleLine → List (Text × Text)
  | .banner text =>
      match behindTag "Profile: ".toList text.toList with
      | some name => [("profile".toList, name)]
      | none => []
  | .wifi (.ipv4Ready addr gw) =>
      [("ipv4_addr".toList, addr.toList), ("ipv4_gateway".toList, gw.toList)]
  | .wifi line => addressEntries (addressSearch line.text.toList)
  | .tagged .tebErr fields =>
      [("error".toList, fieldsText fields), ("result".toList, "failed".toList)]
  | .tagged .tebResult fields => [("result".toList, fieldsText fields)]
  | .tagged tag [key, value] => if tag ∈ keyedTags then [(key.toList, value.toList)] else []
  | .tagged _ _ => []

def derivedKeys : List Text :=
  ["run".toList, "sram_one_rate".toList, "sram_transition_rate".toList, "timing_mean_delta".toList]

def measuredKeys : List Text :=
  ["sram_ones".toList, "sram_transitions".toList, "timing_sum_delta".toList]

/-- What no entry of a boot does before the last one. -/
structure PrintedEntry (entry : Text × Text) : Prop where
  own : entry.1 ∉ derivedKeys
  short : entry.1 ∈ measuredKeys → entry.2.length ≤ 20
  unseeded : entry.1 = "result".toList → entry.2 ≠ "seeded".toList

structure ReadsAs (line : ConsoleLine) (entry : Entry) : Prop where
  plain : PlainLine line.text.toList
  trimmed : Trimmed line.text.toList
  read : readEntry line.text.toList = entry

theorem ReadsAs.stripped {line : ConsoleLine} {entry : Entry} (reads : ReadsAs line entry) :
    readEntry (strip line.text.toList) = entry := by
  rw [reads.trimmed.strip, reads.read]

/-- The lines between the banner and the end of a boot. -/
inductive Ordinary : ConsoleLine → Prop where
  | rule : Ordinary (.banner "========================================")
  | profile (profile : Profile) : Ordinary (.banner ("Profile: " ++ profile.name))
  | server {ip : String} (port : Nat) (plain : ∀ c ∈ ip.toList, c ∈ fieldChars) :
      Ordinary (.banner ("Server: " ++ ip ++ ":" ++ toString port))
  | wifi {line : WifiLine} (plain : line.Plain) : Ordinary (.wifi line)
  | keyed {tag : Tag} {key value : String} (keyed : tag ∈ keyedTags)
      (plainKey : PlainField key.toList) (plainValue : PlainField value.toList)
      (entry : PrintedEntry (key.toList, value.toList)) : Ordinary (.tagged tag [key, value])
  | note {tag : Tag} {fields : List String} (known : tag = .tebNet ∨ tag = .tebSeedCommit)
      (plain : PlainFields fields) : Ordinary (.tagged tag fields)
  | error {key : String} {fields : List String} (plain : PlainFields (key :: fields))
      (other : key.toList.head? ≠ some 'r') : Ordinary (.tagged .tebErr (key :: fields))

theorem tagged_reads {tag : Tag} {fields : List String} {entry : Entry} (plain : PlainFields fields)
    (read : readEntry (ConsoleLine.tagged tag fields).text.toList = entry) :
    ReadsAs (.tagged tag fields) entry where
  plain := tagged_plain plain
  trimmed := tagged_trimmed plain
  read := read

theorem server_text (ip : String) (port : Nat) :
    ("Server: " ++ ip ++ ":" ++ toString port).toList =
      "Server: ".toList ++ (ip.toList ++ (":".toList ++ (toString port).toList)) := by
  simp only [String.toList_append, List.append_assoc]

theorem server_reads {ip : String} (port : Nat) (plain : ∀ c ∈ ip.toList, c ∈ fieldChars) :
    ReadsAs (.banner ("Server: " ++ ip ++ ":" ++ toString port)) (.fields []) := by
  have text : (ConsoleLine.banner ("Server: " ++ ip ++ ":" ++ toString port)).text.toList =
      "Server: ".toList ++ (ip.toList ++ (":".toList ++ (toString port).toList)) :=
    server_text ip port
  have filled : (toString port).toList ≠ [] := (nat_field port).filled
  have trimmed : Trimmed ("Server: ".toList ++ (ip.toList ++ (":".toList ++ (toString port).toList))) := by
    constructor
    · intro c head
      rw [List.head?_append] at head
      cases head
      decide
    · apply last_append
      · exact List.append_ne_nil_of_right_ne_nil _ (List.append_ne_nil_of_right_ne_nil _ filled)
      · apply last_append _ (List.append_ne_nil_of_right_ne_nil _ filled)
        exact last_append _ filled (nat_field port).body.last
  constructor
  · rw [text]
    apply plain_line_append (by decide)
    apply plain_line_append fun c member => (field_char (plain c member)).noBreak
    exact plain_line_append (by decide) (nat_field port).line
  · exact text ▸ trimmed
  · have head : ∀ c ∈ ("Server: ".toList ++
        (ip.toList ++ (":".toList ++ (toString port).toList))).head?, c ≠ '[' ∧ c ≠ 'A' ∧ c ≠ 'P' := by
      intro c first
      rw [List.head?_append] at first
      cases first
      decide
    have absent : '=' ∉ "Server: ".toList ++ (ip.toList ++ (":".toList ++ (toString port).toList)) := by
      intro member
      rcases List.mem_append.mp member with front | behind
      · exact absurd front (by decide)
      · rcases List.mem_append.mp behind with address | later
        · exact (field_char (plain '=' address)).noEqual rfl
        · rcases List.mem_append.mp later with colon | number
          · exact absurd colon (by decide)
          · exact (field_char ((nat_field port).plain '=' number)).noEqual rfl
    rw [text, read_untagged head, address_search_none (by decide) absent]
    rfl

theorem wifi_printed {line : WifiLine} (plain : line.Plain) :
    (ConsoleLine.wifi line).printed = addressEntries (addressSearch line.text.toList) := by
  cases line with
  | ipv4Ready addr gw =>
      rw [ipv4_ready_text, address_search_eq plain.1.digits plain.1.filled plain.2.digits
        plain.2.filled]
      rfl
  | connecting attempt ssid => rfl
  | connectionFailed status => rfl
  | noInterface => rfl
  | connected => rfl
  | disconnected => rfl
  | connectionTimeout => rfl
  | ipv4Timeout => rfl

theorem wifi_head (line : WifiLine) : ∃ c ∈ "CFIW".toList, line.text.toList.head? = some c := by
  cases line with
  | connecting attempt ssid =>
      refine ⟨'C', by decide, ?_⟩
      rw [connecting_text, List.head?_append]
      rfl
  | connectionFailed status =>
      refine ⟨'W', by decide, ?_⟩
      rw [connection_failed_text, List.head?_append]
      rfl
  | ipv4Ready addr gw =>
      refine ⟨'I', by decide, ?_⟩
      rw [ipv4_ready_text, List.head?_append]
      rfl
  | noInterface => exact ⟨'F', by decide, by decide⟩
  | connected => exact ⟨'W', by decide, by decide⟩
  | disconnected => exact ⟨'W', by decide, by decide⟩
  | connectionTimeout => exact ⟨'W', by decide, by decide⟩
  | ipv4Timeout => exact ⟨'I', by decide, by decide⟩

theorem wifi_reads {line : WifiLine} (plain : line.Plain) :
    ReadsAs (.wifi line) (.fields (ConsoleLine.wifi line).printed) := by
  obtain ⟨first, known, begins⟩ := wifi_head line
  have untagged : ∀ c ∈ "CFIW".toList, c ≠ '[' ∧ c ≠ 'A' ∧ c ≠ 'P' := by decide
  have head : ∀ c ∈ line.text.toList.head?, c ≠ '[' ∧ c ≠ 'A' ∧ c ≠ 'P' := by
    intro c same
    rw [begins, Option.mem_some_iff] at same
    exact same ▸ untagged first known
  constructor
  · exact wifi_plain plain
  · exact wifi_trimmed plain
  · rw [wifi_printed plain]
    exact read_untagged head

theorem printed_keyed {tag : Tag} {key value : String} (keyed : tag ∈ keyedTags) :
    (ConsoleLine.tagged tag [key, value]).printed = [(key.toList, value.toList)] := by
  have known : tag = .tebMeta ∨ tag = .tebMetric ∨ tag = .tebPool ∨ tag = .tebPuf := by
    simpa [keyedTags] using keyed
  rcases known with rfl | rfl | rfl | rfl <;> rfl

theorem printed_note {tag : Tag} {fields : List String} (known : tag = .tebNet ∨ tag = .tebSeedCommit)
    (plain : PlainFields fields) : (ConsoleLine.tagged tag fields).printed = [] := by
  rcases known with rfl | rfl <;> cases plain <;> rfl

theorem server_printed (ip : String) (port : Nat) :
    (ConsoleLine.banner ("Server: " ++ ip ++ ":" ++ toString port)).printed = [] := by
  have apart : ¬"Profile: ".toList <+: ("Server: " ++ ip ++ ":" ++ toString port).toList := by
    rw [server_text]
    exact other_tag (by decide) _
  show (match behindTag "Profile: ".toList ("Server: " ++ ip ++ ":" ++ toString port).toList with
    | some name => [("profile".toList, name)]
    | none => []) = []
  rw [behind_tag_none apart]

theorem ordinary_reads {line : ConsoleLine} (ordinary : Ordinary line) :
    ReadsAs line (.fields line.printed) := by
  cases ordinary with
  | rule => exact ⟨by decide, ⟨by decide, by decide⟩, by decide⟩
  | profile profile => cases profile <;> exact ⟨by decide, ⟨by decide, by decide⟩, by decide⟩
  | @server ip port plain =>
      rw [server_printed]
      exact server_reads port plain
  | wifi plain => exact wifi_reads plain
  | keyed keyed plainKey plainValue entry =>
      rw [printed_keyed keyed]
      exact tagged_reads (.two plainKey plainValue) (read_keyed keyed plainKey plainValue)
  | note known plain =>
      rw [printed_note known plain]
      rcases known with rfl | rfl <;>
        exact tagged_reads plain (read_note (by decide) (by decide) (by decide) plain)
  | error plain other => exact tagged_reads plain (read_error plain)

/-! ## Entries of a line -/

theorem printed_entry {key : Text} (value : Text)
    (other : key ∉ derivedKeys ∧ key ∉ measuredKeys ∧ key ≠ "result".toList) :
    PrintedEntry (key, value) where
  own := other.1
  short := fun measured => absurd measured other.2.1
  unseeded := fun same => absurd same other.2.2

theorem address_entries (found : Option (Text × Text)) :
    ∀ entry ∈ addressEntries found, PrintedEntry entry := by
  intro entry member
  cases found with
  | none => cases member
  | some pair =>
      rcases List.mem_cons.mp member with rfl | last
      · exact printed_entry _ (by decide)
      · rw [List.mem_singleton.mp last]
        exact printed_entry _ (by decide)

theorem ordinary_entries {line : ConsoleLine} (ordinary : Ordinary line) :
    ∀ entry ∈ line.printed, PrintedEntry entry := by
  intro entry member
  cases ordinary with
  | rule => cases member
  | profile profile =>
      have shown : (ConsoleLine.banner ("Profile: " ++ profile.name)).printed =
          [("profile".toList, profile.name.toList)] := by cases profile <;> decide
      rw [shown] at member
      rw [List.mem_singleton.mp member]
      exact printed_entry _ (by decide)
  | @server ip port plain =>
      rw [server_printed] at member
      cases member
  | wifi plain =>
      rw [wifi_printed plain] at member
      exact address_entries _ entry member
  | keyed keyed plainKey plainValue fine =>
      rw [printed_keyed keyed] at member
      rw [List.mem_singleton.mp member]
      exact fine
  | note known plain =>
      rw [printed_note known plain] at member
      cases member
  | error plain other =>
      rcases List.mem_cons.mp member with rfl | last
      · exact printed_entry _ (by decide)
      · rw [List.mem_singleton.mp last]
        exact ⟨by decide, fun measured => absurd measured (by decide), fun _ => by decide⟩

/-! ## The lines of `main` -/

theorem keyed_ordinary {tag : Tag} {key value : String} (keyed : tag ∈ keyedTags)
    (plainKey : PlainField key.toList) (plainValue : PlainField value.toList)
    (other : key.toList ∉ derivedKeys ∧ key.toList ∉ measuredKeys ∧ key.toList ≠ "result".toList) :
    Ordinary (.tagged tag [key, value]) :=
  .keyed keyed plainKey plainValue (printed_entry value.toList other)

theorem measured_ordinary {key : String} {value : Nat} (plainKey : PlainField key.toList)
    (small : value < 2 ^ 64) (other : key.toList ∉ derivedKeys ∧ key.toList ≠ "result".toList) :
    Ordinary (.tagged .tebPuf [key, toString value]) := by
  apply Ordinary.keyed (by decide) plainKey (nat_field value)
  constructor
  · exact other.1
  · intro _
    show (toString value).toList.length ≤ 20
    rw [show (toString value).toList = Nat.toDigits 10 value from Nat.toList_repr]
    exact (Nat.length_toDigits_le_iff (by decide) (by decide)).mpr (by omega)
  · exact fun same => absurd same other.2

end BootEntropy.Capsule
