import BootEntropy.Capsule.Collector

/-!
# Where a capture stops

Of all the lines of a boot only its last result begins with a text that stops a capture, so
what is written of a boot is its lines up to a front of that result.
-/

namespace BootEntropy.Capsule

open BootEntropy.Lib
open BootEntropy.BootLog

set_option autoImplicit false

def Ascii (text : Text) : Prop := ∀ c ∈ text, c.toNat < 0x80

theorem ascii_append {front back : Text} (left : Ascii front) (right : Ascii back) :
    Ascii (front ++ back) := List.forall_mem_append.mpr ⟨left, right⟩

/-! ## Ordinary lines -/

theorem PlainField.ascii {field : Text} (plain : PlainField field) : Ascii field :=
  fun c member => (field_char (plain.plain c member)).ascii

theorem tagged_ascii {tag : Tag} {fields : List String} (plain : PlainFields fields) :
    Ascii (ConsoleLine.tagged tag fields).text.toList := by
  rw [tagged_text]
  apply ascii_append (label_text tag).ascii
  intro c member
  rcases List.mem_cons.mp member with rfl | inside
  · decide
  · rcases plain.body.chars c inside with rfl | known
    · decide
    · exact (field_char known).ascii

/-- Only the name of a network may be beyond ASCII. -/
theorem ordinary_ascii {line : ConsoleLine} (ordinary : Ordinary line) :
    Ascii line.text.toList ∨
      ∃ attempt ssid, line = .wifi (.connecting attempt ssid) ∧ PlainLine ssid.toList := by
  cases ordinary with
  | rule => exact .inl (by unfold Ascii; decide)
  | profile profile => cases profile <;> exact .inl (by unfold Ascii; decide)
  | @server ip port plain =>
      left
      show Ascii ("Server: " ++ ip ++ ":" ++ toString port).toList
      rw [server_text]
      apply ascii_append (by unfold Ascii; decide)
      apply ascii_append fun c member => (field_char (plain c member)).ascii
      exact ascii_append (by unfold Ascii; decide) (nat_field port).ascii
  | @wifi line plain =>
      cases line with
      | connecting attempt ssid => exact .inr ⟨attempt, ssid, rfl, plain⟩
      | connectionFailed status =>
          left
          show Ascii (WifiLine.connectionFailed status).text.toList
          rw [connection_failed_text]
          apply ascii_append (by unfold Ascii; decide)
          exact ascii_append (int_field status).ascii (by unfold Ascii; decide)
      | ipv4Ready addr gw =>
          left
          show Ascii (WifiLine.ipv4Ready addr gw).text.toList
          rw [ipv4_ready_text]
          apply ascii_append (by unfold Ascii; decide)
          apply ascii_append plain.1.field.ascii
          exact ascii_append (by unfold Ascii; decide) plain.2.field.ascii
      | noInterface => exact .inl (by unfold Ascii; decide)
      | connected => exact .inl (by unfold Ascii; decide)
      | disconnected => exact .inl (by unfold Ascii; decide)
      | connectionTimeout => exact .inl (by unfold Ascii; decide)
      | ipv4Timeout => exact .inl (by unfold Ascii; decide)
  | keyed keyed plainKey plainValue entry => exact .inl (tagged_ascii (.two plainKey plainValue))
  | note known plain => exact .inl (tagged_ascii plain)
  | error plain other => exact .inl (tagged_ascii plain)

theorem stop_tag_head : ∀ tag ∈ stopTags, tag.head? = some '[' := by decide

theorem untagged_no_stop {line : Text} (head : line.head? ≠ some '[') :
    ∀ tag ∈ stopTags, ¬tag <+: line := by
  rintro tag known ⟨rest, rfl⟩
  apply head
  rw [List.head?_append, stop_tag_head tag known]
  rfl

theorem request_tag_eq : requestTag = Tag.tebErr.label.toList ++ ' ' :: "request_capsule".toList := by
  decide

theorem tagged_no_stop {tag : Tag} (noResult : tag ≠ .tebResult) (noError : tag ≠ .tebErr)
    (fields : List String) : ∀ stop ∈ stopTags, ¬stop <+: (ConsoleLine.tagged tag fields).text.toList := by
  rw [tagged_text]
  intro stop known begins
  simp only [stopTags, List.mem_cons, List.not_mem_nil, or_false] at known
  rcases known with rfl | rfl
  · exact other_label noResult.symm _ begins
  · rw [request_tag_eq] at begins
    exact other_label noError.symm _ ((List.prefix_append _ _).trans begins)

theorem ordinary_no_stop {line : ConsoleLine} (ordinary : Ordinary line) :
    ∀ tag ∈ stopTags, ¬tag <+: line.text.toList := by
  cases ordinary with
  | rule => decide
  | profile profile => cases profile <;> decide
  | @server ip port plain =>
      have head : ("Server: " ++ ip ++ ":" ++ toString port).toList.head? = some 'S' := by
        rw [server_text, List.head?_append]
        rfl
      apply untagged_no_stop
      show ("Server: " ++ ip ++ ":" ++ toString port).toList.head? ≠ some '['
      rw [head]
      decide
  | @wifi line plain =>
      obtain ⟨c, known, head⟩ := wifi_head line
      have other : ∀ c ∈ "CFIW".toList, c ≠ '[' := by decide
      apply untagged_no_stop
      show line.text.toList.head? ≠ some '['
      rw [head]
      exact fun same => other c known (Option.some.inj same)
  | @keyed tag key value keyed plainKey plainValue entry =>
      have apart : ∀ tag ∈ keyedTags, tag ≠ .tebResult ∧ tag ≠ .tebErr := by decide
      exact tagged_no_stop (apart tag keyed).1 (apart tag keyed).2 _
  | note known plain =>
      rcases known with rfl | rfl <;> exact tagged_no_stop (by decide) (by decide) _
  | @error key fields plain other =>
      rw [tagged_text]
      intro stop known begins
      simp only [stopTags, List.mem_cons, List.not_mem_nil, or_false] at known
      rcases known with rfl | rfl
      · have apart : Tag.tebResult ≠ .tebErr := by decide
        exact other_label apart _ begins
      · rw [request_tag_eq, List.prefix_append_right_inj, List.cons_prefix_cons] at begins
        apply other
        obtain ⟨rest, inside⟩ := begins.2
        have head : (fieldsText (key :: fields)).head? = key.toList.head? := by
          cases plain with
          | one plainKey => rw [fields_text_one]
          | two plainKey plainValue =>
              obtain ⟨c, first, _⟩ := plainKey.body.first
              rw [fields_text_two, List.head?_append, first]
              rfl
        rw [← head, ← inside, List.head?_append]
        rfl

/-! ## The last lines -/

/-- The line at which a capture stops: a stop text and the rest of the line, and what the boot
prints behind it. -/
structure LastLines (lines : List Text) (tag body : Text) (others : List Text) : Prop where
  shape : lines = (tag ++ body) :: others
  known : tag ∈ stopTags
  chars : ∀ c ∈ body, c = ' ' ∨ c = ',' ∨ c ∈ fieldChars
  others : others = [] ∨ others = [failedUnseededLine.text.toList]

theorem ending_last_lines {last : List ConsoleLine} {ret : Int} (ends : Ending last ret) :
    last = [] ∨ ∃ tag body others, LastLines (lineTexts last) tag body others := by
  have result {fields : List String} (plain : PlainFields fields) :
      LastLines [(ConsoleLine.tagged .tebResult fields).text.toList] resultTag
        (' ' :: fieldsText fields) [] := by
    refine ⟨by rw [tagged_text]; rfl, by decide, fun c member => ?_, .inl rfl⟩
    rcases List.mem_cons.mp member with space | inside
    · exact .inl space
    · exact .inr (plain.body.chars c inside)
  cases ends with
  | unfinished => exact .inl rfl
  | seeded => exact .inr ⟨_, _, _, result (.one (by decide))⟩
  | failed code => exact .inr ⟨_, _, _, result (.two (by decide) (int_field code))⟩
  | refused code =>
      refine .inr ⟨requestTag, ',' :: (toString code).toList, _, ?_, by decide, fun c member => ?_, .inr rfl⟩
      · have text : (errLine "request_capsule" code).text.toList =
            requestTag ++ ',' :: (toString code).toList := by
          rw [errLine, tagged_text, fields_text_two, request_tag_eq, List.append_assoc]
          rfl
        rw [← text]
        rfl
      · rcases List.mem_cons.mp member with comma | inside
        · exact .inr (.inl comma)
        · exact .inr (.inr ((int_field code).plain c inside))

theorem line_end_ascii {ending : Text} (ends : LineEnd ending) : Ascii ending := by
  unfold Ascii
  rcases ends with rfl | rfl <;> decide

theorem stop_tag_text : ∀ tag ∈ stopTags, PlainLine tag ∧ Ascii tag ∧ tag ≠ [] := by
  unfold Ascii
  decide

theorem stop_tag_unique {stop tag : Text} (knownStop : stop ∈ stopTags) (known : tag ∈ stopTags)
    {rest : Text} (begins : stop <+: tag ++ rest) : stop = tag := by
  have apart : ∀ stop ∈ stopTags, ∀ tag ∈ stopTags, stop = tag ∨ ¬stop <+: tag ∧ ¬tag <+: stop := by
    decide
  rcases apart stop knownStop tag known with same | different
  · exact same
  · exact absurd begins (other_tag different rest)

namespace LastLines

variable {lines others : List Text} {tag body : Text} (last : LastLines lines tag body others)
include last

/-- What no character behind the stop text is. -/
theorem char {c : Char} (member : c ∈ body) : c.toNat < 0x80 ∧ isLineBreak c = false ∧ c ≠ '[' := by
  rcases last.chars c member with rfl | rfl | known
  · decide
  · decide
  · exact ⟨(field_char known).ascii, (field_char known).noBreak, (field_char known).noBracket⟩

theorem plain : ∀ line ∈ lines, PlainLine line := by
  rw [last.shape]
  refine List.forall_mem_cons.mpr ⟨?_, ?_⟩
  · exact plain_line_append (stop_tag_text tag last.known).1 fun c member => (last.char member).2.1
  · rcases last.others with rfl | rfl
    · exact List.forall_mem_nil _
    · exact List.forall_mem_singleton.mpr (by decide)

theorem ascii : ∀ line ∈ lines, Ascii line := by
  rw [last.shape]
  refine List.forall_mem_cons.mpr ⟨?_, ?_⟩
  · exact ascii_append (stop_tag_text tag last.known).2.1 fun c member => (last.char member).1
  · rcases last.others with rfl | rfl
    · exact List.forall_mem_nil _
    · exact List.forall_mem_singleton.mpr (by unfold Ascii; decide)

theorem rest_ascii {ending : Text} (ends : LineEnd ending) :
    Ascii (body ++ (ending ++ joinLines ending others)) := by
  have known := last.ascii
  rw [last.shape, List.forall_mem_cons] at known
  apply ascii_append fun c member => known.1 c (List.mem_append_right tag member)
  apply ascii_append (line_end_ascii ends)
  intro c member
  obtain ⟨line, inside, here⟩ := List.mem_flatMap.mp member
  exact ascii_append (known.2 line inside) (line_end_ascii ends) c here

end LastLines

/-! ## Blurred lines -/

theorem blurred_line {line : ConsoleLine} (ordinary : Ordinary line) {read : Text}
    (blurs : Blurs line.text.toList read) : ∃ seen, Ordinary seen ∧ read = seen.text.toList := by
  rcases ordinary_ascii ordinary with ascii | ⟨attempt, ssid, rfl, plain⟩
  · exact ⟨line, ordinary, blurs.ascii ascii⟩
  · have text : (ConsoleLine.wifi (.connecting attempt ssid)).text.toList = _ :=
      connecting_text attempt ssid
    rw [text] at blurs
    obtain ⟨_, _, rfl, first, later⟩ := blurs.split
    obtain ⟨_, _, rfl, second, later⟩ := later.split
    obtain ⟨_, _, rfl, third, later⟩ := later.split
    obtain ⟨name, _, rfl, blurred, fourth⟩ := later.split
    have seenPlain : PlainLine name := by
      intro c member
      rcases blurred.chars c member with own | rfl
      · exact plain c own
      · decide
    refine ⟨.wifi (.connecting attempt (String.ofList name)), .wifi ?_, ?_⟩
    · show PlainLine (String.ofList name).toList
      rw [String.toList_ofList]
      exact seenPlain
    · show _ = (WifiLine.connecting attempt (String.ofList name)).text.toList
      rw [connecting_text, @String.toList_ofList name, first.ascii (by decide),
        second.ascii (nat_field attempt).ascii, third.ascii (by decide), fourth.ascii (by decide)]

theorem blurred_lines {ending : Text} (ends : LineEnd ending) {lines : List ConsoleLine}
    (ordinary : ∀ line ∈ lines, Ordinary line) :
    ∀ {read : Text}, Blurs (consoleText ending lines) read →
      ∃ seen : List ConsoleLine, (∀ line ∈ seen, Ordinary line) ∧ read = consoleText ending seen := by
  induction lines with
  | nil =>
      intro read blurs
      cases blurs
      exact ⟨[], List.forall_mem_nil _, rfl⟩
  | cons line lines ih =>
      intro read blurs
      rw [List.forall_mem_cons] at ordinary
      have text : consoleText ending (line :: lines) =
          line.text.toList ++ (ending ++ consoleText ending lines) := List.append_assoc ..
      rw [text] at blurs
      obtain ⟨_, _, rfl, first, later⟩ := blurs.split
      obtain ⟨_, _, rfl, second, rest⟩ := later.split
      obtain ⟨seen, ordinarySeen, rfl⟩ := blurred_line ordinary.1 first
      obtain ⟨more, ordinaryMore, rfl⟩ := ih ordinary.2 rest
      refine ⟨seen :: more, List.forall_mem_cons.mpr ⟨ordinarySeen, ordinaryMore⟩, ?_⟩
      rw [second.ascii (line_end_ascii ends)]
      exact (List.append_assoc ..).symm

/-! ## What a capture holds -/

/-- A capture of the boot: what was left of the boot before it, the lines as they were read,
and a front of the line that stops it. -/
structure Captured {ending : Text} (shot : Shot ending) (before after : Text)
    (front blurred last : List ConsoleLine) (tag body : Text) (others : List Text) (read : Text) : Prop where
  console : (clientMain shot.boot.env shot.boot.retained).1.console = bannerLines ++ (front ++ last)
  ordinary : ∀ line ∈ front, Ordinary line
  ends : Ending last (clientMain shot.boot.env shot.boot.retained).2
  lines : LastLines (lineTexts last) tag body others
  seen : ∀ line ∈ blurred, Ordinary line
  printed : shot.boot.text = consoleText ending (bannerLines ++ front) ++ (tag ++ (read ++ after))
  cut : read ++ after <+: body ++ (ending ++ joinLines ending others)
  stopRead : read <+: body ++ ending
  written : (captureLoop shot.capture.reads).1 =
    before ++ (consoleText ending (bannerLines ++ blurred) ++ (tag ++ read))
  last : shot.capture.reads.getLast? = some (textBytes (tag ++ read))

theorem console_text_append (ending : Text) (front back : List ConsoleLine) :
    consoleText ending (front ++ back) = consoleText ending front ++ consoleText ending back := by
  rw [consoleText, line_texts_append]
  exact List.flatMap_append

theorem decoded_at_line {bytes : Bytes} (feed : ∀ byte ∈ bytes.getLast?, byte = 0x0A) :
    AtLineStart (decodeUtf8 bytes) := by
  rcases List.eq_nil_or_concat bytes with rfl | ⟨front, byte, rfl⟩
  · exact fun c none => absurd none (Option.not_mem_none c)
  · rw [List.concat_eq_append] at feed ⊢
    have last : byte = 0x0A := feed byte List.getLast?_concat
    have decoded := @decode_from_ascii front 0x0A (by decide) [] none sound_none
    intro c member
    rw [last, decodeUtf8, decoded] at member
    rw [List.getLast?_append_of_ne_nil _ (by decide)] at member
    exact Option.some.inj (member.symm.trans (by decide))

section Shot

variable {ending : Text} (ends : LineEnd ending) {front last : List ConsoleLine} {ret : Int}
  (ordinary : ∀ line ∈ front, Ordinary line) (ending_ : Ending last ret)
include ends ordinary ending_

/-- In a boot, behind anything without a stop text, the first line that begins with one is the
last result. -/
theorem stop_text_place {before found more tag : Text} (known : tag ∈ stopTags)
    (quiet : ¬tag <:+: before) (start : AtLineStart found)
    (place : found ++ (tag ++ more) =
      before ++ (consoleText ending (bannerLines ++ front) ++ consoleText ending last)) :
    ∃ body others, LastLines (lineTexts last) tag body others ∧
      found = before ++ consoleText ending (bannerLines ++ front) ∧
      more = body ++ (ending ++ joinLines ending others) := by
  obtain ⟨solid, _, filled⟩ := stop_tag_text tag known
  have opens : consoleText ending (bannerLines ++ front) ++ consoleText ending last =
      ending ++ (consoleText ending (bannerLines.tail ++ front) ++ consoleText ending last) :=
    List.append_assoc ..
  rw [opens] at place
  obtain ⟨inBoot, rfl, startBoot, placeBoot⟩ := found_behind_text solid ends quiet start place
  have plain : ∀ line ∈ lineTexts (bannerLines ++ front), PlainLine line := by
    rw [line_texts_append]
    exact List.forall_mem_append.mpr ⟨by decide, ordinary_plain ordinary⟩
  have apart : ∀ line ∈ lineTexts (bannerLines ++ front), ¬tag <+: line := by
    have banner : ∀ tag ∈ stopTags, ∀ line ∈ lineTexts bannerLines, ¬tag <+: line := by decide
    rw [line_texts_append]
    refine List.forall_mem_append.mpr ⟨banner tag known, ?_⟩
    exact List.forall_mem_map.mpr fun line member => ordinary_no_stop (ordinary line member) tag known
  rw [← opens] at placeBoot
  obtain ⟨inLast, rfl, startLast, placeLast⟩ := found_behind_lines solid ends plain apart startBoot placeBoot
  rcases ending_last_lines ending_ with rfl | ⟨own, body, others, lines⟩
  · have none : tag ++ more = [] := (List.append_eq_nil_iff.mp placeLast).2
    exact absurd (List.append_eq_nil_iff.mp none).1 filled
  · have split : consoleText ending last = own ++ body ++ (ending ++ joinLines ending others) := by
      rw [consoleText, lines.shape]
      exact List.append_assoc ..
    have plainLast := lines.plain
    rw [lines.shape, List.forall_mem_cons] at plainLast
    rw [split] at placeLast
    rcases found_behind_line solid ends plainLast.1 startLast placeLast with
      ⟨rfl, begins⟩ | ⟨behind, _, startBehind, placeBehind⟩
    · have same := stop_tag_unique known lines.known begins
      subst same
      rw [List.nil_append, List.append_assoc, List.append_cancel_left_eq] at placeLast
      exact ⟨body, others, lines, by rw [List.append_nil]; rfl, placeLast⟩
    · -- the only line behind the last result does not begin with a stop text
      exfalso
      have noStop : ∀ line ∈ others, ¬tag <+: line := by
        rcases lines.others with rfl | rfl
        · exact List.forall_mem_nil _
        · exact List.forall_mem_singleton.mpr (tagged_no_stop (by decide) (by decide) _ tag known)
      rw [← List.append_nil (joinLines ending others)] at placeBehind
      obtain ⟨end_, _, _, none⟩ :=
        found_behind_lines solid ends plainLast.2 noStop startBehind placeBehind
      have noText : tag ++ more = [] := (List.append_eq_nil_iff.mp none).2
      exact absurd (List.append_eq_nil_iff.mp noText).1 filled

end Shot

theorem text_bytes_split {text : Text} {left right : Bytes} (same : textBytes text = left ++ right) :
    ∃ front back, text = front ++ back ∧ left = textBytes front ∧ right = textBytes back := by
  obtain ⟨front, back, rfl, rfl, rfl⟩ := List.map_eq_append_iff.mp same
  exact ⟨front, back, rfl, rfl, rfl⟩

/-- One read ends at its first newline, so the read that stops the capture does not go beyond
its line. -/
theorem stop_read_in_line {ending : Text} (ends : LineEnd ending) {tag body read rest : Text}
    (unbroken : Unbroken 0x0A (textBytes (tag ++ read)))
    (reads : read <+: body ++ (ending ++ rest)) : read <+: body ++ ending := by
  have feed : (body ++ ending).getLast? = some '\n' := by
    rcases ends with rfl | rfl <;> rw [List.getLast?_append_of_ne_nil _ (List.cons_ne_nil _ _)] <;> rfl
  have whole : Unbroken '\n' (tag ++ read) := by
    intro member
    apply unbroken
    rw [textBytes, ← List.map_dropLast]
    exact List.mem_map.mpr ⟨'\n', member, rfl⟩
  rw [← List.append_assoc] at reads
  exact ends_in_record feed whole.behind reads

/-- What one capture leaves to the next one, and what it writes. -/
theorem captured_shot {ending : Text} (ends : LineEnd ending) {shot : Shot ending} {before : Text}
    (ascii : Ascii before) (quiet : ∀ tag ∈ stopTags, ¬tag <:+: before)
    (stopped : shot.capture.Stopped) (atLine : shot.capture.StopsAtLine) {left : Bytes}
    (fed : textBytes before ++ shot.boot.output = shot.capture.reads.flatten ++ left) :
    ∃ after front blurred last tag body others read, left = textBytes after ∧
      Captured shot before after front blurred last tag body others read := by
  obtain ⟨reads, final, shape, stop, written⟩ := capture_loop_stopped stopped.stopped
  obtain ⟨tag, known, behind, decoded⟩ := stops_iff.mp stop
  obtain ⟨_, asciiTag, filled⟩ := stop_tag_text tag known
  obtain ⟨octets, finalShape, _⟩ := decode_utf8_front asciiTag decoded.symm
  obtain ⟨front, last, console, ordinary, ending_⟩ := boot_console shot.boot.plain shot.boot.retained
  obtain ⟨more, whole⟩ := shot.boot.cut
  rw [shape, List.flatten_append, List.flatten_singleton, finalShape, List.append_assoc,
    List.append_assoc] at fed
  have place : decodeUtf8 reads.flatten ++ (tag ++ decodeUtf8 (octets ++ left)) =
      before ++ shot.boot.text := by
    have both := congrArg decodeUtf8 fed
    rw [decode_utf8_text_append ascii, shot.boot.decoded,
      decode_utf8_append_ascii reads.flatten asciiTag _ filled, decode_utf8_text_append asciiTag] at both
    exact both.symm
  have start : AtLineStart (decodeUtf8 reads.flatten) := by
    apply decoded_at_line
    have line := atLine
    rw [Capture.StopsAtLine, shape, List.dropLast_concat] at line
    exact line
  have placeBoot : decodeUtf8 reads.flatten ++ (tag ++ (decodeUtf8 (octets ++ left) ++ more)) =
      before ++ (consoleText ending (bannerLines ++ front) ++ consoleText ending last) := by
    rw [← List.append_assoc tag, ← List.append_assoc, place, List.append_assoc, whole, console,
      ← List.append_assoc bannerLines, console_text_append]
  obtain ⟨body, others, lines, found, rest⟩ :=
    stop_text_place ends ordinary ending_ known (quiet tag known) start placeBoot
  have printed : shot.boot.text =
      consoleText ending (bannerLines ++ front) ++ (tag ++ decodeUtf8 (octets ++ left)) := by
    rw [found, List.append_assoc] at place
    exact (List.append_cancel_left place).symm
  have cut : decodeUtf8 (octets ++ left) <+: body ++ (ending ++ joinLines ending others) := ⟨more, rest⟩
  have asciiRest : Ascii (decodeUtf8 (octets ++ left)) := fun c member =>
    lines.rest_ascii ends c (cut.subset member)
  obtain ⟨read, after, split, rfl, rfl⟩ := text_bytes_split (decode_utf8_eq asciiRest rfl).symm
  rw [split] at printed cut asciiRest
  have finalText : final = textBytes (tag ++ read) := by rw [finalShape, text_bytes_append]
  have asciiFinal : Ascii (tag ++ read) :=
    ascii_append asciiTag fun c member => asciiRest c (List.mem_append_left _ member)
  have blurs := decode_reads reads
  rw [found] at blurs
  obtain ⟨_, _, writtenReads, first, later⟩ := blurs.split
  rw [console_text_append] at later
  obtain ⟨_, _, rfl, second, third⟩ := later.split
  obtain ⟨blurred, seen, rfl⟩ := blurred_lines ends ordinary third
  have asciiBanner : Ascii (consoleText ending bannerLines) := by
    unfold Ascii
    rcases ends with rfl | rfl <;> decide
  refine ⟨after, front, blurred, last, tag, body, others, read, rfl, console, ordinary, ending_, lines,
    seen, printed, cut, ?_, ?_, ?_⟩
  · have unbroken := stopped.unbroken final (shape ▸ List.mem_append_right _ List.mem_cons_self)
    exact stop_read_in_line ends (finalText ▸ unbroken) ((List.prefix_append read after).trans cut)
  · rw [written, writtenReads, first.ascii ascii, second.ascii asciiBanner, finalText,
      decode_utf8_text_bytes asciiFinal, console_text_append, List.append_assoc]
  · rw [shape, List.getLast?_concat, finalText]

end BootEntropy.Capsule
