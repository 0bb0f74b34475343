import BootEntropy.Capsule.Verdicts

/-!
# Outcomes of collected boots

The markers of the host cost a boot its outcome exactly when the read that stops its capture
ends in the word that would have told it.
-/

namespace BootEntropy.Capsule

open BootEntropy.Lib
open BootEntropy.BootLog

set_option autoImplicit false

/-! ## Markers -/

theorem decimal_field (value : Nat) : PlainField (decimal value) := by
  have printed : (toString value).toList = decimal value := Nat.toList_repr
  exact printed ▸ nat_field value

theorem fixed_point_field (value : ℚ) : PlainField (fixedPoint 3 value) := by
  have padded (count : Nat) : ∀ c ∈ paddedDecimal 3 count, c ∈ fieldChars := by
    intro c member
    rcases List.mem_append.mp member with zero | printed
    · rw [List.eq_of_mem_replicate zero]
      decide
    · exact (decimal_field count).plain c printed
  have sign : ∀ c ∈ (if value < 0 then ['-'] else []), c ∈ fieldChars := by
    split_ifs
    · decide
    · exact List.forall_mem_nil _
  constructor
  · intro c member
    rcases List.mem_append.mp member with whole | fraction
    · rcases List.mem_append.mp whole with minus | digits
      · exact sign c minus
      · exact (decimal_field _).plain c digits
    · rcases List.mem_cons.mp fraction with rfl | digits
      · decide
      · exact padded _ c digits
  · exact List.append_ne_nil_of_right_ne_nil _ (List.cons_ne_nil _ _)

theorem start_marker_plain (run : Nat) (capture : Capture) : PlainLine (startMarker run capture) := by
  have mode : PlainLine capture.reset.text := by cases capture.reset <;> decide
  have number : PlainLine (" start,".toList ++ decimal run) :=
    plain_line_append (by decide) (decimal_field run).line
  have comma {text : Text} (plain : PlainLine text) : PlainLine (',' :: text) :=
    List.forall_mem_cons.mpr ⟨by decide, plain⟩
  apply plain_line_append (by decide)
  apply plain_line_append number
  exact comma (plain_line_append mode (comma (fixed_point_field _).line))

theorem end_marker_plain (run : Nat) (sawResult : Bool) (capture : Capture) :
    PlainLine (endMarker run sawResult capture) := by
  have number : PlainLine (" end,".toList ++ decimal run) :=
    plain_line_append (by decide) (decimal_field run).line
  have comma {text : Text} (plain : PlainLine text) : PlainLine (',' :: text) :=
    List.forall_mem_cons.mpr ⟨by decide, plain⟩
  have digit : isLineBreak (if sawResult then '1' else '0') = false := by cases sawResult <;> decide
  apply plain_line_append (by decide)
  apply plain_line_append number
  exact comma (List.forall_mem_cons.mpr ⟨digit, comma (fixed_point_field _).line⟩)

theorem stop_tag_apart : ∀ tag ∈ stopTags, ∀ key ∈ keyTags, ¬key.toList <+: tag ∧ ¬tag <+: key.toList := by
  decide

theorem host_harmless (rest : Text) : Harmless (hostTag ++ rest) := by
  have word : Word hostTag := by decide
  have keys : ∀ key ∈ keyTags, ¬key.toList <+: hostTag ∧ ¬hostTag <+: key.toList := by decide
  have apart : ¬hostTag <+: resultTag ∧ ¬resultTag <+: hostTag := by decide
  have begins := word_prefix_strip word rest
  obtain ⟨behind, whole⟩ := begins
  have reads : strip (hostTag ++ rest) <+: hostTag ++ behind := by
    rw [whole]
  have unseeded (blank : Text) (_ : ∀ c ∈ blank, isSpace c = true) :
      strip (hostTag ++ rest) ≠ resultTag ++ (blank ++ "seeded".toList) := by
    intro same
    rw [same] at whole
    exact other_tag apart _ ⟨behind, whole⟩
  exact mild_labelled reads (by decide) keys unseeded

/-- A front of the last result that the host has written its marker behind seeds no run. -/
theorem glued_harmless {tag : Text} (known : tag ∈ stopTags) (read : Text) (run : Nat)
    (sawResult : Bool) (capture : Capture) :
    Harmless (tag ++ (read ++ endMarker run sawResult capture)) := by
  have time := fixed_point_field capture.ended
  have filled : endMarker run sawResult capture ≠ [] :=
    List.append_ne_nil_of_left_ne_nil (by decide) _
  have trimmed : Trimmed (tag ++ (read ++ endMarker run sawResult capture)) := by
    constructor
    · intro c first
      rw [List.head?_append, stop_tag_head tag known] at first
      cases first
      decide
    · apply last_append _ (List.append_ne_nil_of_right_ne_nil read filled)
      apply last_append _ filled
      apply last_append _ (List.append_ne_nil_of_right_ne_nil _ (List.cons_ne_nil _ _))
      apply last_append _ (List.cons_ne_nil _ _)
      exact last_append [',', if sawResult then '1' else '0', ','] time.filled time.body.last
  rw [Harmless, trimmed.strip]
  refine mild_labelled (List.prefix_refl _) (stop_tag_head tag known) (stop_tag_apart tag known)
    fun blank spaces same => ?_
  have own : resultTag = tag := stop_tag_unique (by decide) known ⟨_, same.symm⟩
  rw [← own, List.append_cancel_left_eq] at same
  have bracket : '[' ∈ blank ++ "seeded".toList := by
    rw [← same]
    exact List.mem_append_right read List.mem_cons_self
  rcases List.mem_append.mp bracket with space | word
  · have solid := spaces '[' space
    cases solid
  · exact absurd word (by decide)

/-! ## Cut lines -/

theorem seeded_front_harmless : ∀ raw ∈ seededText.inits, raw ≠ seededText → Harmless raw := by
  decide +kernel

theorem failed_front_harmless : ∀ raw ∈ failedUnseededLine.text.toList.inits, Harmless raw := by
  decide +kernel

section Last

variable {last : List ConsoleLine} {ret : Int} (ending_ : Ending last ret) {tag body : Text}
  {others : List Text} (lines : LastLines (lineTexts last) tag body others)
include ending_ lines

theorem seeded_last_lines (zero : ret = 0) : tag ++ body = seededText ∧ others = [] := by
  have shape := lines.shape
  cases ending_ with
  | seeded =>
      obtain ⟨text, none⟩ := List.cons.inj shape
      exact ⟨text.symm, none.symm⟩
  | unfinished => cases zero
  | failed code => cases zero
  | refused code => cases zero

theorem failed_last_lines (failed : ret ≠ 0) {blank : Text} (spaces : ∀ c ∈ blank, isSpace c = true) :
    ¬resultTag ++ (blank ++ "seeded".toList) <+: tag ++ body := by
  have shape := lines.shape
  intro begins
  have own : resultTag = tag :=
    stop_tag_unique (by decide) lines.known ((List.prefix_append _ _).trans begins)
  cases ending_ with
  | unfinished => cases shape
  | seeded => exact failed rfl
  | failed code =>
      have text : tag ++ body = resultTag ++ ' ' :: ("failed".toList ++ ',' :: (toString code).toList) := by
        rw [← (List.cons.inj shape).1]
        show (ConsoleLine.tagged .tebResult ["failed", toString code]).text.toList = _
        rw [tagged_text, fields_text_two]
        rfl
      rw [text, List.prefix_append_right_inj] at begins
      cases blank with
      | nil =>
          have same := (List.cons_prefix_cons.mp begins).1
          cases same
      | cons c blank =>
          have rest := (List.cons_prefix_cons.mp begins).2
          cases blank with
          | nil =>
              have same := (List.cons_prefix_cons.mp rest).1
              cases same
          | cons d blank =>
              have same := (List.cons_prefix_cons.mp rest).1
              have space := spaces d (List.mem_cons_of_mem c List.mem_cons_self)
              rw [same] at space
              cases space
  | refused code =>
      have text : tag ++ body = requestTag ++ ',' :: (toString code).toList := by
        rw [← (List.cons.inj shape).1]
        show (errLine "request_capsule" code).text.toList = _
        rw [errLine, tagged_text, fields_text_two, request_tag_eq, List.append_assoc]
        rfl
      have apart : resultTag ≠ requestTag := by decide
      have whole := (List.prefix_append resultTag _).trans begins
      rw [text] at whole
      exact apart (stop_tag_unique (by decide) (by decide) whole)

theorem last_front_harmless (failed : ret ≠ 0) {raw : Text} (reads : raw <+: tag ++ body) :
    Harmless raw := by
  have filled : tag ++ body ≠ [] :=
    List.append_ne_nil_of_left_ne_nil (stop_tag_text tag lines.known).2.2 _
  have first : ∀ c ∈ (tag ++ body).head?, isSpace c = false := by
    intro c head
    rw [List.head?_append, stop_tag_head tag lines.known] at head
    cases head
    decide
  have whole : raw <+: tag ++ body ++ [] := by
    rw [List.append_nil]
    exact reads
  have stripped := strip_prefix whole first filled (List.forall_mem_nil _)
  refine mild_labelled stripped (stop_tag_head tag lines.known) (stop_tag_apart tag lines.known)
    fun blank spaces same => ?_
  exact failed_last_lines ending_ lines failed spaces (same ▸ stripped)

end Last

/-! ## What is left unread -/

/-- What a capture may leave to the next one. -/
structure Leftover (text : Text) : Prop where
  ascii : Ascii text
  quiet : ∀ tag ∈ stopTags, ¬tag <:+: text
  harmless : ∀ raw ∈ splitLines text, Harmless raw

theorem leftover_nil : Leftover [] where
  ascii := List.forall_mem_nil _
  quiet := by decide
  harmless := List.forall_mem_nil _

theorem piece_harmless {piece raw : Text} (chars : ∀ c ∈ piece, c = ' ' ∨ c = ',' ∨ c ∈ fieldChars)
    (reads : raw <+: piece) : Harmless raw := by
  have other : ∀ c ∈ fieldChars, c ≠ '[' ∧ c ≠ 'A' ∧ c ≠ 'P' := by decide
  have head : ∀ c ∈ (strip raw).head?, c ≠ '[' ∧ c ≠ 'A' ∧ c ≠ 'P' := by
    intro c first
    have member : c ∈ strip raw := List.mem_of_head? first
    rcases chars c (reads.subset (strip_subset raw member)) with rfl | rfl | known
    · decide
    · decide
    · exact other c known
  rw [Harmless, read_untagged head]
  exact mild_address _

theorem cut_harmless {ending : Text} (ends : LineEnd ending) {lines : List Text}
    (plain : ∀ line ∈ lines, PlainLine line)
    (fronts : ∀ line ∈ lines, ∀ raw, raw <+: line → Harmless raw) {cut : Text}
    (reads : cut <+: joinLines ending lines) : ∀ raw ∈ splitLines cut, Harmless raw := by
  intro raw member
  rcases split_cut_lines plain ends reads raw member with none | ⟨line, known, front⟩
  · exact none ▸ blank_harmless
  · exact fronts line known raw front

namespace LastLines

variable {lines others : List Text} {tag body : Text} (last : LastLines lines tag body others)
include last

theorem others_fronts : ∀ other ∈ others, ∀ raw, raw <+: other → Harmless raw := by
  intro other known raw reads
  rcases last.others with rfl | rfl
  · cases known
  · rw [List.mem_singleton.mp known] at reads
    exact failed_front_harmless raw ((List.mem_inits raw _).mpr reads)

theorem others_plain : ∀ other ∈ others, PlainLine other := by
  have plain := last.plain
  rw [last.shape, List.forall_mem_cons] at plain
  exact plain.2

variable {ending : Text} (ends : LineEnd ending)
include ends

theorem others_quiet : ∀ stop ∈ stopTags, ¬stop <:+: joinLines ending others := by
  rcases last.others with rfl | rfl <;> rcases ends with rfl | rfl <;> decide

theorem left_behind {read after : Text} (stopRead : read <+: body ++ ending)
    (cut : read ++ after <+: body ++ (ending ++ joinLines ending others)) : Leftover after := by
  obtain ⟨piece, split⟩ := stopRead
  have reads : after <+: piece ++ joinLines ending others := by
    rw [← List.append_assoc, ← split, List.append_assoc, List.prefix_append_right_inj] at cut
    exact cut
  have noBracket : '[' ∉ piece := by
    intro member
    have whole : '[' ∈ body ++ ending := split ▸ List.mem_append_right read member
    rcases List.mem_append.mp whole with inBody | inEnd
    · exact (last.char inBody).2.2 rfl
    · rcases ends with rfl | rfl
      · exact absurd inEnd (by decide)
      · exact absurd inEnd (by decide)
  constructor
  · exact fun c member => last.rest_ascii ends c (cut.subset (List.mem_append_right read member))
  · intro stop known inside
    exact last.others_quiet ends stop known
      (infix_behind (stop_tag_head stop known) noBracket (inside.trans reads.isInfix))
  · have whole (part : Text) (chars : ∀ c ∈ part, c ∈ body)
        (reads : after <+: joinLines ending (part :: others)) : ∀ raw ∈ splitLines after, Harmless raw := by
      apply cut_harmless ends _ _ reads
      · exact List.forall_mem_cons.mpr
          ⟨fun c member => (last.char (chars c member)).2.1, last.others_plain⟩
      · exact List.forall_mem_cons.mpr
          ⟨fun raw front => piece_harmless (fun c member => last.chars c (chars c member)) front,
            last.others_fronts⟩
    have join (part : Text) : joinLines ending (part :: others) =
        part ++ ending ++ joinLines ending others := rfl
    rcases List.append_eq_append_iff.mp split with ⟨part, inBody, inPiece⟩ | ⟨part, inRead, inEnd⟩
    · rw [inPiece, ← join] at reads
      exact whole part (fun c member => inBody ▸ List.mem_append_right read member) reads
    · -- the read goes beyond the line, and may end within its end
      have cases : piece = ending ∨ piece = [] ∨ piece = ['\n'] := by
        rcases ends with rfl | rfl
        · cases part with
          | nil => exact .inl inEnd.symm
          | cons c part => exact .inr (.inl (List.append_eq_nil_iff.mp (List.cons.inj inEnd).2.symm).2)
        · cases part with
          | nil => exact .inl inEnd.symm
          | cons c part =>
              have rest := (List.cons.inj inEnd).2
              cases part with
              | nil => exact .inr (.inr rest.symm)
              | cons d part => exact .inr (.inl (List.append_eq_nil_iff.mp (List.cons.inj rest).2.symm).2)
      rcases cases with rfl | rfl | rfl
      · exact whole [] (List.forall_mem_nil _) reads
      · exact cut_harmless ends last.others_plain last.others_fronts reads
      · cases after with
        | nil => exact List.forall_mem_nil _
        | cons c after =>
            obtain ⟨rfl, behind⟩ := List.cons_prefix_cons.mp reads
            rw [split_lines_break (by decide) fun _ same => by cases same]
            exact List.forall_mem_cons.mpr ⟨blank_harmless,
              cut_harmless ends last.others_plain last.others_fronts behind⟩

end LastLines

/-! ## Two verdicts on a boot -/

/-- The boot was seeded, and its output lacks at most a part of the last line end. -/
def SerialBoot.ShowsSeeded {ending : Text} (boot : SerialBoot ending) : Prop :=
  (clientMain boot.env boot.retained).2 = 0 ∧ ∃ rest, rest <:+ ending ∧
    boot.text ++ rest = consoleText ending (clientMain boot.env boot.retained).1.console

/-- The read that stops the capture does not end in the word. -/
def Capture.ReadsOn (capture : Capture) : Prop :=
  ∀ read ∈ capture.reads.getLast?, seededText.length < read.length

namespace Captured

variable {ending : Text} {shot : Shot ending} {before after : Text}
  {front blurred last : List ConsoleLine} {tag body : Text} {others : List Text} {read : Text}
  (captured : Captured shot before after front blurred last tag body others read)
include captured

theorem leftover (ends : LineEnd ending) : Leftover after :=
  captured.lines.left_behind ends captured.stopRead captured.cut

theorem tail_cut : tag ++ (read ++ after) <+: joinLines ending (lineTexts last) := by
  have split : joinLines ending (lineTexts last) =
      tag ++ (body ++ (ending ++ joinLines ending others)) := by
    rw [captured.lines.shape, ← List.append_assoc tag]
    exact List.append_assoc ..
  rw [split, List.prefix_append_right_inj]
  exact captured.cut

theorem seeded_line (zero : (clientMain shot.boot.env shot.boot.retained).2 = 0) :
    tag ++ body = seededText ∧ joinLines ending (lineTexts last) = seededText ++ ending := by
  obtain ⟨line, none⟩ := seeded_last_lines captured.ends captured.lines zero
  refine ⟨line, ?_⟩
  rw [captured.lines.shape, line, none]
  exact List.append_nil _

theorem shows_seeded_iff :
    shot.boot.ShowsSeeded ↔ (clientMain shot.boot.env shot.boot.retained).2 = 0 ∧
      seededText <+: tag ++ (read ++ after) := by
  have console : consoleText ending (clientMain shot.boot.env shot.boot.retained).1.console =
      consoleText ending (bannerLines ++ front) ++ joinLines ending (lineTexts last) := by
    rw [captured.console, ← List.append_assoc, console_text_append]
    rfl
  refine and_congr_right fun zero => ?_
  have line := (captured.seeded_line zero).2
  rw [console, captured.printed, line]
  constructor
  · rintro ⟨rest, ⟨gone, same⟩, whole⟩
    rw [List.append_assoc, List.append_cancel_left_eq, ← same, ← List.append_assoc seededText] at whole
    exact ⟨gone, (List.append_cancel_right whole).symm⟩
  · rintro ⟨more, whole⟩
    have reads := captured.tail_cut
    rw [line, ← whole, List.prefix_append_right_inj] at reads
    obtain ⟨rest, same⟩ := reads
    refine ⟨rest, ⟨more, same⟩, ?_⟩
    rw [List.append_assoc, ← whole, List.append_assoc, same]

variable (ends : LineEnd ending)
include ends

theorem device_verdict :
    ∃ verdict, LastVerdict (splitLines (tag ++ (read ++ after))) verdict ∧
      (verdict = true ↔ shot.boot.ShowsSeeded) := by
  rw [captured.shows_seeded_iff]
  by_cases zero : (clientMain shot.boot.env shot.boot.retained).2 = 0
  · obtain ⟨line, joined⟩ := captured.seeded_line zero
    have plainText : PlainLine seededText := by decide
    have reads := captured.tail_cut
    rw [joined] at reads
    by_cases shown : seededText <+: tag ++ (read ++ after)
    · obtain ⟨more, whole⟩ := shown
      rw [← whole, List.prefix_append_right_inj] at reads
      obtain ⟨blank, empty, split⟩ := split_cut_end ends reads seededText
      refine ⟨true, ?_, iff_of_true rfl ⟨zero, ⟨more, whole⟩⟩⟩
      rw [← whole, split, split_open_line plainText (by decide)]
      exact .seeded fun raw none => empty raw none ▸ blank_harmless
    · refine ⟨false, .other fun raw member => ?_, iff_of_false Bool.false_ne_true fun both => shown both.2⟩
      have inside : tag ++ (read ++ after) <+: seededText := by
        rcases prefix_of_append reads with inside | ⟨rest, whole, _⟩
        · exact inside
        · exact absurd ⟨rest, whole.symm⟩ shown
      have plainTail : PlainLine (tag ++ (read ++ after)) := fun c known => plainText c (inside.subset known)
      rw [split_plain_line plainTail raw member]
      refine seeded_front_harmless _ ((List.mem_inits _ _).mpr inside) fun same => shown ?_
      exact same ▸ List.prefix_refl _
  · refine ⟨false, .other ?_, iff_of_false Bool.false_ne_true fun both => zero both.1⟩
    apply cut_harmless ends captured.lines.plain _ captured.tail_cut
    rw [captured.lines.shape]
    exact List.forall_mem_cons.mpr ⟨fun raw reads => last_front_harmless captured.ends captured.lines zero reads,
      captured.lines.others_fronts⟩

/-- What the file says, with the marker of the host behind the read that stops the capture. -/
theorem file_verdict (run : Nat) (rest : Text) :
    ∃ lines verdict, splitLines (tag ++ (read ++ (endMarker run true shot.capture ++ (['\n'] ++ rest)))) =
        lines ++ splitLines rest ∧ LastVerdict lines verdict ∧
      (verdict = true ↔ shot.boot.ShowsSeeded ∧ shot.capture.ReadsOn) := by
  have known := captured.lines.known
  have marker := end_marker_plain run true shot.capture
  have plainLine : PlainLine (tag ++ body) := by
    have plain := captured.lines.plain
    rw [captured.lines.shape, List.forall_mem_cons] at plain
    exact plain.1
  have readsOn : shot.capture.ReadsOn ↔ seededText.length < (tag ++ read).length := by
    rw [Capture.ReadsOn, captured.last]
    simp [textBytes]
  rw [captured.shows_seeded_iff, readsOn]
  by_cases within : read <+: body
  · obtain ⟨part, inBody⟩ := within
    have plainRead : PlainLine (tag ++ read) := by
      intro c member
      apply plainLine c
      rw [← inBody, ← List.append_assoc]
      exact List.mem_append_left part member
    have one : splitLines (tag ++ (read ++ (endMarker run true shot.capture ++ (['\n'] ++ rest)))) =
        (tag ++ (read ++ endMarker run true shot.capture)) :: splitLines rest := by
      have glued : PlainLine (tag ++ read ++ endMarker run true shot.capture) :=
        plain_line_append plainRead marker
      have line := split_lines_line glued (.inl rfl) rest
      rw [List.append_assoc, List.append_assoc, List.append_assoc] at line
      exact line
    refine ⟨[_], false, one, .other (List.forall_mem_singleton.mpr (glued_harmless known read run true _)),
      iff_of_false Bool.false_ne_true ?_⟩
    rintro ⟨⟨zero, _⟩, longer⟩
    have length := congrArg List.length (captured.seeded_line zero).1
    rw [← inBody, ← List.append_assoc, List.length_append] at length
    omega
  · obtain ⟨part, rfl, inEnd, filled⟩ : ∃ part, read = body ++ part ∧ part <+: ending ∧ part ≠ [] := by
      rcases prefix_of_append captured.stopRead with inside | ⟨part, same, inEnd⟩
      · exact absurd inside within
      · refine ⟨part, same, inEnd, ?_⟩
        rintro rfl
        rw [List.append_nil] at same
        exact within (same ▸ List.prefix_refl _)
    have opens : (endMarker run true shot.capture ++ (['\n'] ++ rest)).head? ≠ some '\n' := by
      rw [List.head?_append]
      intro same
      cases same
    have whole : splitLines (tag ++ (body ++ part ++ (endMarker run true shot.capture ++ (['\n'] ++ rest)))) =
        (tag ++ body) :: [endMarker run true shot.capture] ++ splitLines rest := by
      rw [List.append_assoc body, ← List.append_assoc tag,
        split_part_end plainLine ends inEnd filled opens, split_lines_line marker (.inl rfl) rest]
      rfl
    have behind : ∀ raw ∈ [endMarker run true shot.capture], Harmless raw :=
      List.forall_mem_singleton.mpr (host_harmless _)
    refine ⟨_, decide ((clientMain shot.boot.env shot.boot.retained).2 = 0), whole, ?_, ?_⟩
    · by_cases zero : (clientMain shot.boot.env shot.boot.retained).2 = 0
      · rw [decide_eq_true zero, (captured.seeded_line zero).1]
        exact .seeded behind
      · rw [decide_eq_false zero]
        exact .other (List.forall_mem_cons.mpr
          ⟨last_front_harmless captured.ends captured.lines zero (List.prefix_refl _), behind⟩)
    · rw [decide_eq_true_iff]
      constructor
      · intro zero
        have line := (captured.seeded_line zero).1
        have some := List.length_pos_of_ne_nil filled
        rw [List.append_assoc body, ← List.append_assoc tag, ← List.append_assoc tag, line]
        refine ⟨⟨zero, List.prefix_append _ _⟩, ?_⟩
        rw [List.length_append]
        omega
      · exact fun both => both.1.1

end Captured

/-! ## Sessions -/

section Session

variable {ending : Text} (ends : LineEnd ending)

/-- The verdicts of the device's own log and those of the file. -/
structure SessionVerdicts (shots : List (Shot ending)) (before : Text) (run : Nat)
    (device file : List Bool) : Prop where
  deviceBytes : ∀ front : Bytes, decodeUtf8 (front ++ shots.flatMap fun shot => shot.boot.output) =
    decodeUtf8 front ++ shots.flatMap fun shot => shot.boot.text
  deviceLines : ∀ front : Text, ∃ lines,
    splitLines (front ++ shots.flatMap fun shot => shot.boot.text) = splitLines front ++ lines ∧
      Verdicts lines device
  fileLines : Verdicts (splitLines (captureRuns run (shots.map Shot.capture))) file
  deviceShows : List.Forall₂ (fun shot verdict => verdict = true ↔ shot.boot.ShowsSeeded) shots device
  fileShows : List.Forall₂ (fun shot verdict =>
    verdict = true ↔ shot.boot.ShowsSeeded ∧ shot.capture.ReadsOn) shots file

include ends

theorem session_verdicts (shots : List (Shot ending)) (stopped : ∀ shot ∈ shots, shot.capture.Stopped)
    (atLine : ∀ shot ∈ shots, shot.capture.StopsAtLine) :
    ∀ {before : Text}, Leftover before → Fed (textBytes before) shots → ∀ run,
      ∃ device file, SessionVerdicts shots before run device file := by
  induction shots with
  | nil =>
      intro before leftover fed run
      have none : ∀ raw ∈ splitLines [], Harmless raw := List.forall_mem_nil _
      refine ⟨[], [], fun front => ?_, fun front => ⟨[], ?_, .rest none⟩, .rest none, .nil, .nil⟩
      · rw [List.flatMap_nil, List.flatMap_nil, List.append_nil, List.append_nil]
      · rw [List.flatMap_nil, List.append_nil, List.append_nil]
  | cons shot shots ih =>
      intro before leftover fed run
      rw [List.forall_mem_cons] at stopped atLine
      obtain ⟨left, reads, fedRest⟩ := fed
      obtain ⟨after, front, blurred, last, tag, body, others, read, rfl, captured⟩ :=
        captured_shot ends leftover.ascii leftover.quiet stopped.1 atLine.1 reads
      obtain ⟨device, file, rest⟩ := ih stopped.2 atLine.2 (captured.leftover ends) fedRest (run + 1)
      obtain ⟨deviceVerdict, deviceLast, deviceShows⟩ := captured.device_verdict ends
      obtain ⟨lines, fileVerdict, split, fileLast, fileShows⟩ :=
        captured.file_verdict ends run (captureRuns (run + 1) (shots.map Shot.capture))
      refine ⟨deviceVerdict :: device, fileVerdict :: file, ?_, ?_, ?_, .cons deviceShows rest.deviceShows,
        .cons fileShows rest.fileShows⟩
      · intro front
        have opens : decodeUtf8 shot.boot.output = ending ++ (consoleText ending (bannerLines.tail ++ _) ++ _) :=
          shot.boot.decoded.trans (captured.printed.trans (List.append_assoc ..))
        obtain ⟨more, output, _⟩ := decode_utf8_front (line_end_ascii ends) opens
        have filled : ending ≠ [] := by
          obtain ⟨c, others, same, _⟩ := line_end_cons ends
          exact same ▸ List.cons_ne_nil c others
        have cut := decode_utf8_append_ascii front (line_end_ascii ends)
          (more ++ shots.flatMap fun shot => shot.boot.output) filled
        rw [← List.append_assoc (textBytes ending), ← output, rest.deviceBytes, shot.boot.decoded] at cut
        exact cut
      · intro front'
        obtain ⟨more, tail, verdicts⟩ := rest.deviceLines (tag ++ (read ++ after))
        obtain ⟨quiet, silent, boot⟩ := split_boot ends (ordinary_plain captured.ordinary) front'
          (tag ++ (read ++ after) ++ shots.flatMap fun shot => shot.boot.text)
        refine ⟨quiet ++ bannerText :: (lineTexts front ++ (splitLines (tag ++ (read ++ after)) ++ more)), ?_,
          .boot (fun raw member => silent_harmless (silent raw member)) captured.ordinary deviceLast verdicts⟩
        rw [List.flatMap_cons, captured.printed, List.append_assoc (consoleText ..), boot, tail,
          List.append_assoc]
      · obtain ⟨quiet, silent, boot⟩ := split_boot ends (ordinary_plain captured.seen) before
          (tag ++ (read ++ (endMarker run true shot.capture ++ (['\n'] ++
            captureRuns (run + 1) (shots.map Shot.capture)))))
        have saw : (captureLoop shot.capture.reads).2.1 = true := by rw [stopped.1.stopped]
        have text : captureRuns run ((shot :: shots).map Shot.capture) =
            startMarker run shot.capture ++ (['\n'] ++ (before ++
              (consoleText ending (bannerLines ++ blurred) ++ (tag ++ (read ++
                (endMarker run true shot.capture ++ (['\n'] ++
                  captureRuns (run + 1) (shots.map Shot.capture)))))))) := by
          show startMarker run shot.capture ++ ['\n'] ++ (captureLoop shot.capture.reads).1 ++
            (endMarker run (captureLoop shot.capture.reads).2.1 shot.capture ++ ['\n']) ++ _ = _
          rw [saw, captured.written]
          simp only [List.append_assoc]
        have shape : splitLines (captureRuns run ((shot :: shots).map Shot.capture)) =
            (startMarker run shot.capture :: (splitLines before ++ quiet)) ++
              bannerText :: (lineTexts blurred ++
                (lines ++ splitLines (captureRuns (run + 1) (shots.map Shot.capture)))) := by
          rw [text, split_lines_line (start_marker_plain run shot.capture) (.inl rfl), boot, split]
          rfl
        rw [shape]
        refine .boot ?_ captured.seen fileLast rest.fileLines
        exact List.forall_mem_cons.mpr ⟨host_harmless _, List.forall_mem_append.mpr
          ⟨leftover.harmless, fun raw member => silent_harmless (silent raw member)⟩⟩

end Session

theorem verdicts_eq_iff {α : Type} {shows readsOn : α → Prop} {shots : List α} {device : List Bool}
    (deviceShows : List.Forall₂ (fun shot verdict => verdict = true ↔ shows shot) shots device) :
    ∀ {file : List Bool},
      List.Forall₂ (fun shot verdict => verdict = true ↔ shows shot ∧ readsOn shot) shots file →
        (file = device ↔ ∀ shot ∈ shots, shows shot → readsOn shot) := by
  induction deviceShows with
  | nil =>
      rintro file ⟨⟩
      exact iff_of_true rfl (List.forall_mem_nil _)
  | @cons shot verdict shots device first rest ih =>
      rintro file (_ | ⟨own, later⟩)
      rw [List.cons.injEq, ih later, List.forall_mem_cons, Bool.eq_iff_iff, own, first]
      exact and_congr_left' and_iff_left_iff_imp

theorem session_outcomes {ending : Text} (ends : LineEnd ending) (shots : List (Shot ending))
    (fed : Fed [] shots) (stopped : ∀ shot ∈ shots, shot.capture.Stopped)
    (atLine : ∀ shot ∈ shots, shot.capture.StopsAtLine) :
    ∃ device file, outcomes (decodeUtf8 (shots.flatMap fun shot => shot.boot.output)) = some device ∧
      outcomes (captureRuns 1 (shots.map Shot.capture)) = some file ∧
      (file = device ↔ ∀ shot ∈ shots, shot.boot.ShowsSeeded → shot.capture.ReadsOn) := by
  obtain ⟨device, file, verdicts⟩ := session_verdicts ends shots stopped atLine leftover_nil fed 1
  obtain ⟨lines, split, row⟩ := verdicts.deviceLines []
  have bytes := verdicts.deviceBytes []
  rw [List.nil_append] at bytes
  refine ⟨device, file, outcomes_of_verdicts ?_, outcomes_of_verdicts verdicts.fileLines,
    verdicts_eq_iff verdicts.deviceShows verdicts.fileShows⟩
  rw [bytes]
  exact split ▸ row

/-- When no capture times out and each stops at the start of a line, the file tells the
outcomes of the devices' own log if and only if no capture of a boot that shows itself seeded
stops with a read that ends in the word. -/
theorem collected_outcomes_iff {ending : Text} (ends : LineEnd ending) (shots : List (Shot ending))
    (fed : Fed [] shots) (stopped : ∀ shot ∈ shots, shot.capture.Stopped)
    (atLine : ∀ shot ∈ shots, shot.capture.StopsAtLine) :
    outcomes (captureRuns 1 (shots.map Shot.capture)) =
        outcomes (decodeUtf8 (shots.flatMap fun shot => shot.boot.output)) ↔
      ∀ shot ∈ shots, shot.boot.ShowsSeeded → shot.capture.ReadsOn := by
  obtain ⟨device, file, deviceTold, fileTold, same⟩ := session_outcomes ends shots fed stopped atLine
  rw [deviceTold, fileTold, Option.some.injEq]
  exact same

/-! ## A read that ends in the word -/

def wholeOutput {profile : Profile} (env : Environment profile) (retained : RetainedCounter)
    (plain : env.Plain) {ending : Text} {output : Bytes}
    (decoded : decodeUtf8 output = consoleText ending (clientMain env retained).1.console) :
    SerialBoot ending where
  profile := profile
  env := env
  retained := retained
  plain := plain
  text := consoleText ending (clientMain env retained).1.console
  cut := List.prefix_refl _
  output := output
  decoded := decoded

theorem whole_output_shows {profile : Profile} {env : Environment profile}
    {retained : RetainedCounter} (zero : (clientMain env retained).2 = 0) (plain : env.Plain)
    {ending : Text} {output : Bytes}
    (decoded : decodeUtf8 output = consoleText ending (clientMain env retained).1.console) :
    (wholeOutput env retained plain decoded).ShowsSeeded :=
  ⟨zero, [], List.nil_suffix, List.append_nil _⟩

theorem whole_output_fed {profile : Profile} {env : Environment profile}
    {retained : RetainedCounter} (plain : env.Plain) {ending : Text} {output : Bytes}
    (decoded : decodeUtf8 output = consoleText ending (clientMain env retained).1.console)
    {capture : Capture} {left : Bytes} (reads : output = capture.reads.flatten ++ left) :
    Fed [] [⟨wholeOutput env retained plain decoded, capture⟩] :=
  ⟨left, reads, trivial⟩

def calmConsole : List ConsoleLine := (clientMain calmEnvironment ⟨0, 0, 0⟩).1.console

def pausedCapture : Capture where
  reset := .rts
  started := 1700000000
  ended := 1700000012
  reads := (lineTexts calmConsole).dropLast.map (fun line => textBytes (line ++ ['\n'])) ++
    [textBytes "[TEB_RESULT] see".toList]

/-- In one evaluation, so that the console is rendered once. -/
theorem paused_capture_evaluated :
    (∀ char ∈ consoleText ['\n'] calmConsole, char.toNat < 0x80) ∧
      textBytes (consoleText ['\n'] calmConsole) =
        pausedCapture.reads.flatten ++ textBytes "ded\n".toList ∧
      (∀ raw ∈ pausedCapture.reads, 0x0A ∉ raw.dropLast) ∧
      (captureLoop pausedCapture.reads).2 = (true, []) ∧
      pausedCapture.reads.dropLast.flatten.getLast? = some 0x0A := by
  decide +kernel

theorem calm_output_decoded :
    decodeUtf8 (textBytes (consoleText ['\n'] calmConsole)) = consoleText ['\n'] calmConsole :=
  decode_utf8_text_bytes paused_capture_evaluated.1

def calmOutput : SerialBoot ['\n'] :=
  wholeOutput calmEnvironment ⟨0, 0, 0⟩ calm_environment_plain calm_output_decoded

def pausedShot : Shot ['\n'] := ⟨calmOutput, pausedCapture⟩

theorem paused_shot_fed : Fed [] [pausedShot] :=
  whole_output_fed calm_environment_plain calm_output_decoded paused_capture_evaluated.2.1

theorem paused_capture_stopped : pausedCapture.Stopped where
  unbroken := paused_capture_evaluated.2.2.1
  stopped := paused_capture_evaluated.2.2.2.1

theorem paused_capture_at_line : pausedCapture.StopsAtLine := by
  intro byte last
  exact Option.some.inj (last.symm.trans paused_capture_evaluated.2.2.2.2)

theorem paused_session_stopped : ∀ shot ∈ [pausedShot], shot.capture.Stopped := by
  intro shot member
  rw [List.mem_singleton.mp member]
  exact paused_capture_stopped

theorem paused_session_at_line : ∀ shot ∈ [pausedShot], shot.capture.StopsAtLine := by
  intro shot member
  rw [List.mem_singleton.mp member]
  exact paused_capture_at_line

theorem calm_output_shows : calmOutput.ShowsSeeded :=
  whole_output_shows calm_boot_seeded calm_environment_plain calm_output_decoded

theorem paused_capture_ends : ¬pausedCapture.ReadsOn := by
  have last : pausedCapture.reads.getLast? = some (textBytes "[TEB_RESULT] see".toList) :=
    List.getLast?_concat
  intro readsOn
  have longer := readsOn _ last
  exact absurd longer (by decide)

theorem collected_outcomes_paused :
    outcomes (captureRuns 1 ([pausedShot].map Shot.capture)) =
        outcomes (decodeUtf8 ([pausedShot].flatMap fun shot => shot.boot.output)) ↔
      ∀ shot ∈ [pausedShot], shot.boot.ShowsSeeded → shot.capture.ReadsOn :=
  collected_outcomes_iff (.inl rfl) [pausedShot] paused_shot_fed paused_session_stopped
    paused_session_at_line

/-- The device says that it is seeded, and the file does not. -/
theorem paused_capture_loses_outcome :
    ¬∀ (ending : Text) (shots : List (Shot ending)), LineEnd ending → Fed [] shots →
      (∀ shot ∈ shots, shot.capture.Stopped) →
        outcomes (captureRuns 1 (shots.map Shot.capture)) =
          outcomes (decodeUtf8 (shots.flatMap fun shot => shot.boot.output)) := by
  intro faithful
  have agree := faithful _ [pausedShot] (.inl rfl) paused_shot_fed paused_session_stopped
  obtain ⟨device, file, deviceTold, fileTold, same⟩ := session_outcomes (.inl rfl) [pausedShot]
    paused_shot_fed paused_session_stopped paused_session_at_line
  rw [deviceTold, fileTold, Option.some.injEq] at agree
  exact paused_capture_ends (same.mp agree pausedShot List.mem_cons_self calm_output_shows)

end BootEntropy.Capsule
