import BootEntropy.Sram.Arming

/-!
# What waits at the port

Dumps of several starts of the board may wait in a row, each from its BEGIN line on. A
reader that has taken a BEGIN line meets only lines of that dump up to the next BEGIN
line, so what `read_capture` returns is one dump.
-/

namespace BootEntropy.Sram

open BootEntropy.Lib

set_option autoImplicit false

/-! ## Lines and their parts -/

structure Bracketed (text : Text) : Prop where
  printed : Printed text
  once : ∃ rest, text = '[' :: rest ∧ '[' ∉ rest

theorem dump_line_bracketed {text : Text} (dump : DumpLine text) : Bracketed text := by
  obtain ⟨rest, same, inner⟩ := dump.bracket
  exact ⟨dump.printed, rest, same, fun member => (inner _ member).noBracket rfl⟩

theorem begin_line_bracketed (capture : Capture) : Bracketed (beginLine capture) :=
  dump_line_bracketed (begin_line_dump capture)

theorem dump_rest_bracketed {capture : Capture} {text : Text} (member : text ∈ dumpRest capture) :
    Bracketed text := by
  rw [dumpRest, List.mem_append, List.mem_singleton] at member
  rcases member with dump | rfl
  · exact dump_line_bracketed (print_capture_dump capture text (List.mem_cons_of_mem _ dump))
  · exact ⟨ready_line_printed, readyLine.tail, by decide, by decide⟩

theorem invalid_line_bracketed : Bracketed invalidCommandLine :=
  ⟨⟨by decide, by decide, by decide, by decide⟩, invalidCommandLine.tail, by decide, by decide⟩

theorem armed_line_bracketed (pattern : UInt8) : Bracketed (armedLine pattern true) := by
  have front : "[SRAM_ARMED] pattern=".toList = '[' :: "SRAM_ARMED] pattern=".toList := by decide
  refine ⟨armed_line_printed pattern,
    "SRAM_ARMED] pattern=".toList ++ (hexText [pattern] ++ " verify=ok".toList), ?_, ?_⟩
  · rw [armed_line_eq, front]
    rfl
  · have tag : '[' ∉ "SRAM_ARMED] pattern=".toList := by decide
    have verify : '[' ∉ " verify=ok".toList := by decide
    intro member
    rw [List.mem_append, List.mem_append] at member
    rcases member with inside | inside | inside
    · exact tag inside
    · exact (hex_text_inner [pattern] _ inside).noBracket rfl
    · exact verify inside

theorem Bracketed.tail_plain {lineEnd : LineEnd} {text : Text} (line : Bracketed text) :
    '[' ∉ decodeAscii (lineEnd.printk text).tail := by
  obtain ⟨rest, rfl, plain⟩ := line.once
  have ascii : ∀ c ∈ rest ++ lineEnd.text, c.toNat < 0x80 := by
    intro c inside
    rcases List.mem_append.mp inside with front | blank
    · exact line.printed.ascii c (List.mem_cons_of_mem _ front)
    · exact line_end_ascii lineEnd c blank
  have tail : (lineEnd.printk ('[' :: rest)).tail = textBytes (rest ++ lineEnd.text) := rfl
  rw [tail, decode_text_bytes ascii, List.mem_append, not_or]
  refine ⟨plain, ?_⟩
  cases lineEnd with
  | lf => decide
  | crLf => decide

theorem foreign_of_plain {raw : Bytes} (plain : '[' ∉ decodeAscii raw) : isSramLine raw = false := by
  apply decide_eq_false
  intro tagged
  exact plain (mem_of_tag tagged (by decide))

section Reads

variable {lineEnd : LineEnd} {boot : Boot} {text : Text} {size : Nat}

/-- What `readline` hands over is a front of the line. -/
theorem read_line_front : ((Waiting.line boot text).read lineEnd size).1 <+: lineEnd.printk text := by
  rw [Waiting.read]
  split_ifs
  · exact List.take_prefix _ _
  · exact List.prefix_rfl

theorem read_line_rest (line : Bracketed text) :
    ∀ item ∈ ((Waiting.line boot text).read lineEnd size).2,
      ∃ raw, item = .other raw ∧ isSramLine raw = false := by
  rw [Waiting.read]
  split_ifs with cut
  · intro item member
    rw [List.mem_singleton.mp member]
    refine ⟨_, rfl, foreign_of_plain ?_⟩
    intro bracket
    apply @Bracketed.tail_plain lineEnd _ line
    have part : (lineEnd.printk text).drop size <:+ (lineEnd.printk text).tail := by
      rw [← List.drop_one]
      exact List.drop_suffix_drop_left _ cut.1
    exact (part.map _).subset bracket
  · intro item member
    cases member

theorem read_line_whole (none : ((Waiting.line boot text).read lineEnd size).2 = []) :
    ((Waiting.line boot text).read lineEnd size).1 = lineEnd.printk text := by
  rw [Waiting.read] at none ⊢
  split_ifs at none with cut
  rw [if_neg cut]

end Reads

/-! ## Dumps in a row -/

def Waiting.Plain : Waiting → Prop
  | .other raw => isSramLine raw = false
  | .line boot text =>
      text = beginLine boot.capture ∨ text ∈ dumpRest boot.capture ∨ text = invalidCommandLine

/-- The start whose dump is open. -/
def opens (opened : Option Boot) : Waiting → Option Boot
  | .other _ => opened
  | .line boot text => if text = beginLine boot.capture then some boot else opened

/-- A dump that opens is of a start that fits, and a line behind a BEGIN line is of the
dump that is open. -/
def Accepts (fits : Boot → Prop) (opened : Option Boot) : Waiting → Prop
  | .other raw => isSramLine raw = false
  | .line boot text =>
      (text = beginLine boot.capture ∧ fits boot) ∨
        (text ∈ dumpRest boot.capture ∧ ∀ own ∈ opened, own = boot) ∨ text = invalidCommandLine

def Flows (fits : Boot → Prop) : Option Boot → List Waiting → Prop
  | _, [] => True
  | opened, item :: rest => Accepts fits opened item ∧ Flows fits (opens opened item) rest

theorem begin_line_not_mem_rest (capture : Capture) : beginLine capture ∉ dumpRest capture := by
  intro member
  have part : InDump .lf capture (LineEnd.lf.printk (beginLine capture)) :=
    .inr ⟨_, member, List.prefix_rfl⟩
  apply in_dump_not_begin part
  rw [decode_printk .lf (begin_line_bracketed capture).printed]
  exact begin_line_tag capture

theorem invalid_line_not_begin (capture : Capture) : invalidCommandLine ≠ beginLine capture := by
  intro same
  have tag := begin_line_tag capture
  rw [← same] at tag
  exact absurd tag (by decide)

theorem opens_begin (opened : Option Boot) (boot : Boot) :
    opens opened (.line boot (beginLine boot.capture)) = some boot := if_pos rfl

theorem opens_rest (opened : Option Boot) {boot : Boot} {text : Text}
    (member : text ∈ dumpRest boot.capture) : opens opened (.line boot text) = opened := by
  have other : text ≠ beginLine boot.capture := by
    intro same
    rw [same] at member
    exact begin_line_not_mem_rest boot.capture member
  rw [opens, if_neg other]

theorem opens_invalid (opened : Option Boot) (boot : Boot) :
    opens opened (.line boot invalidCommandLine) = opened := by
  rw [opens, if_neg (invalid_line_not_begin boot.capture)]

section Flows

variable {fits other : Boot → Prop} {items rest : List Waiting}

theorem flows_append {opened : Option Boot} :
    Flows fits opened (items ++ rest) ↔
      Flows fits opened items ∧ Flows fits (items.foldl opens opened) rest := by
  induction items generalizing opened with
  | nil => simp [Flows]
  | cons item items ih => simp [Flows, ih, and_assoc]

theorem Accepts.mono {opened : Option Boot} {item : Waiting} (accepts : Accepts fits opened item)
    (wider : ∀ boot, fits boot → other boot) : Accepts other opened item := by
  cases item with
  | other raw => exact accepts
  | line boot text => exact accepts.imp_left (And.imp_right (wider boot))

theorem Flows.mono {opened : Option Boot} (flows : Flows fits opened items)
    (wider : ∀ boot, fits boot → other boot) : Flows other opened items := by
  induction items generalizing opened with
  | nil => trivial
  | cons item items ih => exact ⟨flows.1.mono wider, ih flows.2⟩

theorem Accepts.plain {opened : Option Boot} {item : Waiting} (accepts : Accepts fits opened item) :
    item.Plain := by
  cases item with
  | other raw => exact accepts
  | line boot text => exact accepts.imp And.left (Or.imp_left And.left)

theorem Flows.plain {opened : Option Boot} (flows : Flows fits opened items) :
    ∀ item ∈ items, item.Plain := by
  induction items generalizing opened with
  | nil => simp
  | cons item items ih =>
      rw [List.forall_mem_cons]
      exact ⟨flows.1.plain, ih flows.2⟩

/-- A dump whose BEGIN line has not been seen may be anyone's. -/
theorem Flows.unopened {opened : Option Boot} (flows : Flows fits opened items) :
    Flows fits none items := by
  induction items generalizing opened with
  | nil => trivial
  | cons item items ih =>
      have behind := ih flows.2
      cases item with
      | other raw => exact ⟨flows.1, behind⟩
      | line boot text =>
          have first : Accepts fits none (.line boot text) :=
            flows.1.imp_right (Or.imp_left (And.imp_right (by simp)))
          refine ⟨first, ?_⟩
          by_cases begins : text = beginLine boot.capture
          · have rest := flows.2
            rwa [begins, opens_begin] at rest ⊢
          · rw [opens, if_neg begins]
            exact behind

theorem Flows.front {opened : Option Boot} (flows : Flows fits opened (items ++ rest)) :
    Flows fits opened items := (flows_append.mp flows).1

theorem Flows.back {opened : Option Boot} (flows : Flows fits opened (items ++ rest)) :
    Flows fits none rest := (flows_append.mp flows).2.unopened

theorem Flows.append {opened : Option Boot} (flows : Flows fits opened items)
    (always : ∀ opened, Flows fits opened rest) : Flows fits opened (items ++ rest) :=
  flows_append.mpr ⟨flows, always _⟩

theorem Flows.insert {opened : Option Boot} {raw : Bytes} (foreign : isSramLine raw = false)
    (flows : Flows fits opened (items ++ rest)) :
    Flows fits opened (items ++ .other raw :: rest) :=
  flows_append.mpr ⟨flows.front, foreign, (flows_append.mp flows).2⟩

theorem flows_foreign {opened : Option Boot} {front : List Waiting}
    (foreign : ∀ item ∈ front, ∃ raw, item = .other raw ∧ isSramLine raw = false)
    (flows : Flows fits opened rest) : Flows fits opened (front ++ rest) := by
  induction front with
  | nil => exact flows
  | cons item front ih =>
      rw [List.forall_mem_cons] at foreign
      obtain ⟨⟨raw, rfl, other⟩, behind⟩ := foreign
      exact ⟨other, ih behind⟩

theorem flows_dump_rest {boot : Boot} {texts : List Text} (part : texts ⊆ dumpRest boot.capture) :
    Flows fits (some boot) (texts.map (Waiting.line boot)) := by
  induction texts with
  | nil => trivial
  | cons text texts ih =>
      rw [List.cons_subset] at part
      rw [List.map_cons, Flows, opens_rest _ part.1]
      exact ⟨.inr (.inl ⟨part.1, by simp⟩), ih part.2⟩

theorem flows_capture_output {boot : Boot} (fit : fits boot) (opened : Option Boot) :
    Flows fits opened ((captureOutput boot.capture).map (Waiting.line boot)) := by
  have shape : captureOutput boot.capture = beginLine boot.capture :: dumpRest boot.capture := rfl
  rw [shape, List.map_cons, Flows, opens_begin]
  exact ⟨.inl ⟨rfl, fit⟩, flows_dump_rest (List.Subset.refl _)⟩

theorem flows_invalid {boot : Boot} {texts : List Text}
    (invalid : ∀ text ∈ texts, text = invalidCommandLine) (opened : Option Boot) :
    Flows fits opened (texts.map (Waiting.line boot)) := by
  induction texts with
  | nil => trivial
  | cons text texts ih =>
      rw [List.forall_mem_cons] at invalid
      obtain ⟨rfl, others⟩ := invalid
      rw [List.map_cons, Flows, opens_invalid]
      exact ⟨.inr (.inr rfl), ih others⟩

end Flows

/-! ## A reader and what waits for it -/

/-- The reader has seen no BEGIN line, or holds a part of the dump that is open. -/
def Follows (fits : Boot → Prop) (reader : CaptureReader) (items : List Waiting) : Prop :=
  (Closed reader ∧ reader.captured.length = regionBytes ∧ Flows fits none items) ∨
    ∃ boot, fits boot ∧ Sound boot.capture reader ∧ Flows fits (some boot) items

def Yields (fits : Boot → Prop) (outcome : Outcome) : Prop :=
  ∀ data address, outcome = .ok (data, address) →
    ∃ boot, fits boot ∧ data = boot.capture.region.val ∧ address = boot.capture.address

theorem Raised.yields {fits : Boot → Prop} {outcome : Outcome} (raised : Raised outcome) :
    Yields fits outcome := by
  obtain ⟨error, rfl⟩ := raised
  intro data address returned
  cases returned

theorem Right.yields {fits : Boot → Prop} {boot : Boot} {outcome : Outcome} (fit : fits boot)
    (right : Right boot.capture outcome) : Yields fits outcome :=
  fun data address returned => ⟨boot, fit, right data address returned⟩

section Reading

variable {lineEnd : LineEnd} {fits : Boot → Prop} {reader : CaptureReader} {items : List Waiting}

theorem handle_read_invalid {raw : Bytes} (front : raw <+: lineEnd.printk invalidCommandLine) :
    handleRead reader raw = .go reader := by
  have part := strip_read_cut invalid_line_bracketed.printed front
  have unlike : ∀ tag ∈ [beginTag, dataTag, endTag, readyTag], ¬tag <+: invalidCommandLine := by
    decide
  exact handle_read_untagged (fun tag member tagged => unlike tag member (tagged.trans part)) reader

theorem handle_read_begin (capture : Capture) (size : reader.captured.length = regionBytes) :
    ∃ after, handleRead reader (lineEnd.printk (beginLine capture)) = .go after ∧
      Sound capture after := by
  refine ⟨_, (handle_read_printed lineEnd (begin_line_bracketed capture).printed reader).trans
    (handle_begin (begin_line_tag capture) (begin_fields_line capture)), ?_, rfl⟩
  exact ⟨size, Finset.empty_subset _, fun index none => absurd none (Finset.notMem_empty index)⟩

theorem Follows.size (follows : Follows fits reader items) :
    reader.captured.length = regionBytes := by
  rcases follows with ⟨_, size, _⟩ | ⟨boot, _, sound, _⟩
  · exact size
  · exact sound.faithful.size

theorem Follows.plain (follows : Follows fits reader items) : ∀ item ∈ items, item.Plain := by
  rcases follows with ⟨_, _, flows⟩ | ⟨_, _, _, flows⟩
  · exact flows.plain
  · exact flows.plain

theorem Follows.idle {item : Waiting} {rest : List Waiting}
    (follows : Follows fits reader (item :: items))
    (foreign : ∀ other ∈ rest, ∃ raw, other = .other raw ∧ isSramLine raw = false)
    (same : ∀ opened, opens opened item = opened) : Follows fits reader (rest ++ items) := by
  rcases follows with ⟨closed, size, flows⟩ | ⟨boot, fit, sound, flows⟩
  · rw [Flows, same] at flows
    exact .inl ⟨closed, size, flows_foreign foreign flows.2⟩
  · rw [Flows, same] at flows
    exact .inr ⟨boot, fit, sound, flows_foreign foreign flows.2⟩

theorem Follows.read {item : Waiting} {size : Nat} (follows : Follows fits reader (item :: items))
    (whole : ∀ boot, item = .line boot (beginLine boot.capture) → (item.read lineEnd size).2 = []) :
    (handleRead reader (item.read lineEnd size).1).Keeps
      (fun after => Follows fits after ((item.read lineEnd size).2 ++ items)) (Yields fits) := by
  have long := follows.size
  cases item with
  | other raw =>
      have foreign : isSramLine raw = false := by
        rcases follows with ⟨_, _, flows⟩ | ⟨_, _, _, flows⟩
        · exact flows.1
        · exact flows.1
      have taken : handleRead reader raw = .go reader := handle_read_other foreign reader
      rw [show ((Waiting.other raw).read lineEnd size).1 = raw from rfl, taken]
      exact follows.idle (by simp [Waiting.read]) fun _ => rfl
  | line boot text =>
      have front := @read_line_front lineEnd boot text size
      have accepts : Accepts fits none (.line boot text) := by
        rcases follows with ⟨_, _, flows⟩ | ⟨_, _, _, flows⟩
        · exact flows.1
        · exact flows.unopened.1
      rcases accepts with ⟨rfl, fit⟩ | ⟨member, _⟩ | rfl
      · have none := whole boot rfl
        obtain ⟨after, taken, sound⟩ := @handle_read_begin lineEnd reader boot.capture long
        rw [read_line_whole none, none, taken]
        refine .inr ⟨boot, fit, sound, ?_⟩
        rcases follows with ⟨_, _, flows⟩ | ⟨_, _, _, flows⟩
        · rw [Flows, opens_begin] at flows
          exact flows.2
        · rw [Flows, opens_begin] at flows
          exact flows.2
      · have line := dump_rest_bracketed member
        have rest := @read_line_rest lineEnd boot text size line
        have part : InDump lineEnd boot.capture ((Waiting.line boot text).read lineEnd size).1 :=
          .inr ⟨text, member, front⟩
        rcases follows with ⟨closed, _, flows⟩ | ⟨own, fit, sound, flows⟩
        · rw [Flows, opens_rest _ member] at flows
          have kept := @Next.Keeps.and_state _ _ _
            (fun after => after.captured.length = regionBytes) _ _
            (handle_read_closed closed (in_dump_not_begin part)) (handle_read_size _ long)
          exact kept.mono (fun after both => .inl ⟨both.1, both.2, flows_foreign rest flows.2⟩)
            fun _ raised => raised.yields
        · rw [Flows, opens_rest _ member] at flows
          obtain same | ⟨_, same⟩ | same := flows.1
          · exact absurd member (same.1 ▸ begin_line_not_mem_rest boot.capture)
          · obtain rfl := same own rfl
            exact (handle_read_sound sound part).mono
              (fun after kept => .inr ⟨own, fit, kept, flows_foreign rest flows.2⟩)
              fun _ right => right.yields fit
          · rw [same] at front ⊢
            rw [same] at rest
            rw [handle_read_invalid front]
            exact .inr ⟨own, fit, sound, flows_foreign rest flows.2⟩
      · rw [handle_read_invalid front]
        exact follows.idle (read_line_rest invalid_line_bracketed) fun opened => opens_invalid opened boot

end Reading

end BootEntropy.Sram
