import BootEntropy.Lib.Fragments
import BootEntropy.Lib.Text

/-!
# Lines of a text

`str.splitlines`. A text whose last line is closed can be split on its own: whatever
follows makes lines of its own.
-/

namespace BootEntropy.Lib

set_option autoImplicit false

/-- The characters that `splitlines` breaks at. -/
def isLineBreak (c : Char) : Bool :=
  let n := c.toNat
  (10 ≤ n && n ≤ 13) || (28 ≤ n && n ≤ 30) || n = 0x85 || n = 0x2028 || n = 0x2029

/-- `text.splitlines()`. The universal newlines of a text file make no other breaks. -/
def splitLines : Text → List Text
  | [] => []
  | '\r' :: '\n' :: rest => [] :: splitLines rest
  | c :: rest =>
      if isLineBreak c then [] :: splitLines rest
      else
        match splitLines rest with
        | [] => [[c]]
        | line :: lines => (c :: line) :: lines

def WholeLines (text : Text) : Prop := ∀ c ∈ text.getLast?, isLineBreak c = true

instance (text : Text) : Decidable (WholeLines text) :=
  inferInstanceAs (Decidable (∀ c ∈ text.getLast?, isLineBreak c = true))

theorem split_lines_ne_nil {text : Text} (some : text ≠ []) : splitLines text ≠ [] := by
  fun_cases splitLines text with
  | case1 => exact absurd rfl some
  | case2 rest => exact List.cons_ne_nil _ _
  | case3 c rest other breaks => exact List.cons_ne_nil _ _
  | case4 c rest other goes none => exact List.cons_ne_nil _ _
  | case5 c rest other goes line lines split => exact List.cons_ne_nil _ _

theorem split_lines_break {c : Char} {rest : Text} (breaks : isLineBreak c = true)
    (other : ∀ tail, c = '\r' → rest = '\n' :: tail → False) :
    splitLines (c :: rest) = [] :: splitLines rest := by
  rw [splitLines, if_pos breaks]
  exact other

theorem split_lines_go {c : Char} {rest line : Text} {lines : List Text}
    (goes : isLineBreak c = false) (split : splitLines rest = line :: lines) :
    splitLines (c :: rest) = (c :: line) :: lines := by
  rw [splitLines, if_neg (by simp [goes]), split]
  rintro tail rfl
  cases goes

theorem last_of_rest {P : Char → Prop} {c : Char} {rest : Text} (last : ∀ d ∈ (c :: rest).getLast?, P d) :
    ∀ d ∈ rest.getLast?, P d := by
  cases rest with
  | nil => exact fun _ member => absurd member (Option.not_mem_none _)
  | cons next rest => exact last

theorem split_lines_append {left right : Text} (whole : WholeLines left)
    (apart : left.getLast? = some '\r' → right.head? ≠ some '\n') :
    splitLines (left ++ right) = splitLines left ++ splitLines right := by
  induction left using splitLines.induct with
  | case1 => rfl
  | case2 rest ih =>
      have wholeRest : WholeLines rest := last_of_rest (last_of_rest whole)
      have apartRest : rest.getLast? = some '\r' → right.head? ≠ some '\n' := by
        intro last
        cases rest with
        | nil => cases last
        | cons next rest => exact apart last
      exact congrArg ([] :: ·) (ih wholeRest apartRest)
  | case3 c rest other breaks ih =>
      have wholeRest : WholeLines rest := last_of_rest whole
      cases rest with
      | nil =>
          have alone : splitLines [c] = [[]] := split_lines_break breaks fun _ _ tail => by cases tail
          rw [alone, List.cons_append, List.nil_append, split_lines_break breaks]
          · rfl
          · rintro tail rfl rfl
            exact apart rfl rfl
      | cons next rest =>
          rw [List.cons_append, split_lines_break breaks, ih wholeRest apart,
            split_lines_break breaks other]
          · rfl
          · intro tail same split
            exact other rest same (congrArg (· :: rest) (List.cons.inj split).1)
  | case4 c rest other goes none ih =>
      cases rest with
      | nil => exact absurd (whole c rfl) goes
      | cons next rest => exact absurd none (split_lines_ne_nil (List.cons_ne_nil _ _))
  | case5 c rest other goes line lines split ih =>
      have still : isLineBreak c = false := Bool.not_eq_true _ ▸ goes
      cases rest with
      | nil => cases split
      | cons next rest =>
          have later : splitLines (next :: rest ++ right) = line :: (lines ++ splitLines right) := by
            rw [ih (last_of_rest whole) apart, split]
            rfl
          rw [List.cons_append, split_lines_go still later, split_lines_go still split]
          rfl

/-- What printers put behind a line. -/
def LineEnd (ending : Text) : Prop := ending = ['\n'] ∨ ending = ['\r', '\n']

variable {ending : Text}

theorem split_lines_end (ends : LineEnd ending) (after : Text) :
    splitLines (ending ++ after) = [] :: splitLines after := by
  rcases ends with rfl | rfl
  · exact split_lines_break (by decide) fun _ same => by cases same
  · rfl

def Blank (lines : List Text) : Prop := ∀ line ∈ lines, line = []

/-- A break closes an open line, and makes an empty one behind a closed one. -/
theorem split_lines_behind {c : Char} {after : Text} (breaks : isLineBreak c = true)
    (apart : c = '\r' → after.head? ≠ some '\n') (before : Text) :
    ∃ blank, Blank blank ∧
      splitLines (before ++ c :: after) = splitLines before ++ blank ++ splitLines after := by
  have closes : splitLines (c :: after) = [] :: splitLines after := by
    apply split_lines_break breaks
    rintro tail rfl rfl
    exact apart rfl rfl
  have one : Blank [[]] := fun line member => List.mem_singleton.mp member
  have no : Blank [] := List.forall_mem_nil _
  induction before using splitLines.induct with
  | case1 => exact ⟨[[]], one, closes⟩
  | case2 rest ih =>
      obtain ⟨blank, shape, split⟩ := ih
      exact ⟨blank, shape, congrArg ([] :: ·) split⟩
  | case3 d rest other breaksToo ih =>
      cases rest with
      | nil =>
          have alone : splitLines [d] = [[]] := split_lines_break breaksToo fun _ _ tail => by cases tail
          by_cases half : d = '\r' ∧ c = '\n'
          · rw [half.1] at alone ⊢
            exact ⟨[], no, by rw [alone, half.2]; rfl⟩
          · refine ⟨[[]], one, ?_⟩
            rw [alone, List.cons_append, List.nil_append, split_lines_break breaksToo, closes]
            · rfl
            · intro tail carriage feed
              exact half ⟨carriage, (List.cons.inj feed).1⟩
      | cons next rest =>
          obtain ⟨blank, shape, split⟩ := ih
          refine ⟨blank, shape, ?_⟩
          rw [List.cons_append, split_lines_break breaksToo, split, split_lines_break breaksToo other]
          · rfl
          · intro tail same split
            exact other rest same (congrArg (· :: rest) (List.cons.inj split).1)
  | case4 d rest other goes none ih =>
      have still : isLineBreak d = false := Bool.not_eq_true _ ▸ goes
      cases rest with
      | nil =>
          refine ⟨[], no, ?_⟩
          rw [List.cons_append, List.nil_append, split_lines_go still closes]
          rw [splitLines, if_neg goes]
          · rfl
          · exact fun _ _ tail => by cases tail
      | cons next rest => exact absurd none (split_lines_ne_nil (List.cons_ne_nil _ _))
  | case5 d rest other goes line lines split ih =>
      have still : isLineBreak d = false := Bool.not_eq_true _ ▸ goes
      obtain ⟨blank, shape, later⟩ := ih
      rw [split] at later
      refine ⟨blank, shape, ?_⟩
      rw [List.cons_append, split_lines_go still later, split_lines_go still split]
      rfl

theorem split_lines_feed (ends : LineEnd ending) (before after : Text) :
    ∃ blank, Blank blank ∧
      splitLines (before ++ (ending ++ after)) = splitLines before ++ blank ++ splitLines after := by
  rcases ends with rfl | rfl
  · exact split_lines_behind (by decide) (fun same => by cases same) before
  · obtain ⟨first, blank, closed⟩ := @split_lines_behind '\r' [] (by decide)
      (fun _ same => by cases same) before
    obtain ⟨second, blankToo, split⟩ := @split_lines_behind '\n' after (by decide)
      (fun same => by cases same) (before ++ ['\r'])
    refine ⟨first ++ second, List.forall_mem_append.mpr ⟨blank, blankToo⟩, ?_⟩
    rw [closed, splitLines, List.append_nil, List.append_assoc before] at split
    rw [← List.append_assoc (splitLines before)]
    exact split

def PlainLine (line : Text) : Prop := ∀ c ∈ line, isLineBreak c = false

instance (line : Text) : Decidable (PlainLine line) :=
  inferInstanceAs (Decidable (∀ c ∈ line, isLineBreak c = false))

theorem split_lines_line {line : Text} (plain : PlainLine line) (ends : LineEnd ending)
    (after : Text) : splitLines (line ++ (ending ++ after)) = line :: splitLines after := by
  induction line with
  | nil => exact split_lines_end ends after
  | cons c rest ih =>
      exact split_lines_go (plain c List.mem_cons_self)
        (ih fun d member => plain d (List.mem_cons_of_mem c member))

theorem split_part_end {line part after : Text} (plain : PlainLine line) (ends : LineEnd ending)
    (inEnd : part <+: ending) (filled : part ≠ []) (apart : after.head? ≠ some '\n') :
    splitLines (line ++ (part ++ after)) = line :: splitLines after := by
  by_cases whole : part = ending
  · rw [whole]
    exact split_lines_line plain ends after
  · have half : part = ['\r'] := by
      rcases ends with rfl | rfl
      · cases part with
        | nil => exact absurd rfl filled
        | cons c part => exact absurd (inEnd.eq_of_length_le (by simp)) whole
      · cases part with
        | nil => exact absurd rfl filled
        | cons c part =>
            obtain ⟨rfl, rest⟩ := List.cons_prefix_cons.mp inEnd
            cases part with
            | nil => rfl
            | cons d part => exact absurd (inEnd.eq_of_length_le (by simp)) whole
    rw [half]
    induction line with
    | nil =>
        apply split_lines_break (by decide)
        rintro tail _ rfl
        exact apart rfl
    | cons c rest ih =>
        exact split_lines_go (plain c List.mem_cons_self)
          (ih fun d member => plain d (List.mem_cons_of_mem c member))

def joinLines (ending : Text) (lines : List Text) : Text := lines.flatMap (· ++ ending)

theorem split_join_lines {lines : List Text} (plain : ∀ line ∈ lines, PlainLine line)
    (ends : LineEnd ending) (after : Text) :
    splitLines (joinLines ending lines ++ after) = lines ++ splitLines after := by
  induction lines with
  | nil => rfl
  | cons line lines ih =>
      have first : PlainLine line := plain line List.mem_cons_self
      have later := ih fun other member => plain other (List.mem_cons_of_mem line member)
      rw [joinLines, List.flatMap_cons, List.append_assoc, List.append_assoc,
        split_lines_line first ends]
      exact congrArg (line :: ·) later

/-! ## Cut texts -/

theorem split_open_line {line : Text} (plain : PlainLine line) (filled : line ≠ []) :
    splitLines line = [line] := by
  induction line with
  | nil => exact absurd rfl filled
  | cons c rest ih =>
      have goes : isLineBreak c = false := plain c List.mem_cons_self
      cases rest with
      | nil =>
          rw [splitLines, if_neg (by simp [goes])]
          · rfl
          · exact fun _ _ none => by cases none
      | cons next rest =>
          exact split_lines_go goes
            (ih (fun d member => plain d (List.mem_cons_of_mem c member)) (List.cons_ne_nil _ _))

theorem split_plain_line {line : Text} (plain : PlainLine line) : ∀ raw ∈ splitLines line, raw = line := by
  by_cases none : line = []
  · rw [none]
    exact List.forall_mem_nil _
  · rw [split_open_line plain none]
    exact fun raw member => List.mem_singleton.mp member

theorem split_cut_end (ends : LineEnd ending) {cut : Text} (reads : cut <+: ending) (before : Text) :
    ∃ blank, Blank blank ∧ splitLines (before ++ cut) = splitLines before ++ blank := by
  have one {c : Char} (breaks : isLineBreak c = true) :
      ∃ blank, Blank blank ∧ splitLines (before ++ [c]) = splitLines before ++ blank := by
    obtain ⟨blank, empty, split⟩ := @split_lines_behind c [] breaks (fun _ none => by cases none) before
    exact ⟨blank, empty, split.trans (List.append_nil _)⟩
  cases cut with
  | nil => exact ⟨[], List.forall_mem_nil _, by simp⟩
  | cons c rest =>
      by_cases whole : c :: rest = ending
      · obtain ⟨blank, empty, split⟩ := split_lines_feed ends before []
        rw [List.append_nil] at split
        exact ⟨blank, empty, whole ▸ split.trans (List.append_nil _)⟩
      · rcases ends with rfl | rfl
        · exact absurd (reads.eq_of_length_le (by simp)) whole
        · have first := List.cons_prefix_cons.mp reads
          cases rest with
          | nil => exact first.1 ▸ one (by decide)
          | cons d rest => exact absurd (reads.eq_of_length_le (by simp)) whole

/-- Every line of a cut text is one of its lines, or the front of one. -/
theorem split_cut_lines {lines : List Text} (plain : ∀ line ∈ lines, PlainLine line)
    (ends : LineEnd ending) {cut : Text} (reads : cut <+: joinLines ending lines) :
    ∀ raw ∈ splitLines cut, raw = [] ∨ ∃ line ∈ lines, raw <+: line := by
  induction lines generalizing cut with
  | nil =>
      rw [List.prefix_nil.mp reads]
      exact List.forall_mem_nil _
  | cons line lines ih =>
      have first : PlainLine line := plain line List.mem_cons_self
      have later : ∀ other ∈ lines, PlainLine other :=
        fun other member => plain other (List.mem_cons_of_mem line member)
      rw [joinLines, List.flatMap_cons, List.append_assoc] at reads
      rcases prefix_of_append reads with inside | ⟨rest, rfl, behind⟩
      · have plainCut : PlainLine cut := fun c member => first c (inside.subset member)
        intro raw member
        rw [split_plain_line plainCut raw member]
        exact .inr ⟨line, List.mem_cons_self, inside⟩
      · rcases prefix_of_append behind with inEnd | ⟨rest, rfl, following⟩
        · obtain ⟨blank, empty, split⟩ := split_cut_end ends inEnd line
          rw [split]
          intro raw member
          rcases List.mem_append.mp member with here | none
          · rw [split_plain_line first raw here]
            exact .inr ⟨line, List.mem_cons_self, List.prefix_refl line⟩
          · exact .inl (empty raw none)
        · rw [split_lines_line first ends]
          intro raw member
          rcases List.mem_cons.mp member with rfl | after
          · exact .inr ⟨raw, List.mem_cons_self, List.prefix_refl raw⟩
          · rcases ih later following raw after with none | ⟨other, known, front⟩
            · exact .inl none
            · exact .inr ⟨other, List.mem_cons_of_mem line known, front⟩

/-! ## Where a text is found -/

def AtLineStart (before : Text) : Prop := ∀ c ∈ before.getLast?, c = '\n'

theorem AtLineStart.behind {front rest : Text} (start : AtLineStart (front ++ rest)) :
    AtLineStart rest := by
  intro c last
  cases rest with
  | nil => cases last
  | cons d rest =>
      apply start
      rw [List.getLast?_append_of_ne_nil _ (List.cons_ne_nil d rest)]
      exact last

theorem line_end_cons (ends : LineEnd ending) : ∃ c rest, ending = c :: rest ∧ isLineBreak c = true := by
  rcases ends with rfl | rfl
  · exact ⟨'\n', [], rfl, by decide⟩
  · exact ⟨'\r', ['\n'], rfl, by decide⟩

section Found

variable {needle before after : Text} (solid : PlainLine needle) (ends : LineEnd ending)
include solid ends

theorem prefix_of_line {line rest : Text} (begins : needle <+: line ++ (ending ++ rest)) :
    needle <+: line := by
  rcases prefix_of_append begins with inside | ⟨extra, rfl, behind⟩
  · exact inside
  · cases extra with
    | nil =>
        rw [List.append_nil]
    | cons c extra =>
        obtain ⟨first, others, rfl, breaks⟩ := line_end_cons ends
        have same : c = first := (List.cons_prefix_cons.mp behind).1
        have goes := solid c (List.mem_append_right line List.mem_cons_self)
        rw [same, breaks] at goes
        cases goes

theorem found_behind_line {line rest : Text} (plain : PlainLine line) (start : AtLineStart before)
    (found : before ++ (needle ++ after) = line ++ (ending ++ rest)) :
    before = [] ∧ needle <+: line ∨
      ∃ behind, before = line ++ ending ++ behind ∧ AtLineStart behind ∧
        behind ++ (needle ++ after) = rest := by
  by_cases empty : before = []
  · rw [empty, List.nil_append] at found
    exact .inl ⟨empty, prefix_of_line solid ends ⟨after, found⟩⟩
  · right
    have reads : before <+: line ++ ending ++ rest := by
      rw [List.append_assoc]
      exact ⟨_, found⟩
    rw [← List.append_assoc line] at found
    rcases prefix_of_append reads with inside | ⟨behind, rfl, _⟩
    · -- the last character of `before` is the only `\n` of the first line
      obtain ⟨z, whole⟩ := inside
      have last : '\n' ∈ before := by
        have final := List.getLast?_eq_some_getLast empty
        have feed := start _ final
        exact feed ▸ List.getLast_mem empty
      have noFeed : '\n' ∉ line := fun member => by
        have goes := plain '\n' member
        cases goes
      cases z with
      | nil =>
          rw [List.append_nil] at whole
          refine ⟨[], by rw [whole, List.append_nil], fun c none => absurd none (Option.not_mem_none c), ?_⟩
          rw [whole] at found
          exact List.append_cancel_left found
      | cons c z =>
          exfalso
          have front : '\n' ∈ (line ++ ending).dropLast := by
            rw [← whole, List.dropLast_append_of_ne_nil (List.cons_ne_nil c z)]
            exact List.mem_append_left _ last
          rcases ends with rfl | rfl
          · rw [List.dropLast_append_of_ne_nil (List.cons_ne_nil _ _)] at front
            rcases List.mem_append.mp front with here | there
            · exact noFeed here
            · cases there
          · rw [List.dropLast_append_of_ne_nil (List.cons_ne_nil _ _)] at front
            rcases List.mem_append.mp front with here | there
            · exact noFeed here
            · cases List.mem_singleton.mp there
    · refine ⟨behind, rfl, start.behind, ?_⟩
      rw [List.append_assoc] at found
      exact List.append_cancel_left found

theorem found_behind_lines {lines : List Text} {rest : Text}
    (plain : ∀ line ∈ lines, PlainLine line) (apart : ∀ line ∈ lines, ¬needle <+: line)
    (start : AtLineStart before)
    (found : before ++ (needle ++ after) = joinLines ending lines ++ rest) :
    ∃ behind, before = joinLines ending lines ++ behind ∧ AtLineStart behind ∧
      behind ++ (needle ++ after) = rest := by
  induction lines generalizing before with
  | nil => exact ⟨before, rfl, start, found⟩
  | cons line lines ih =>
      rw [List.forall_mem_cons] at plain apart
      rw [joinLines, List.flatMap_cons, List.append_assoc, List.append_assoc] at found
      rcases found_behind_line solid ends plain.1 start found with ⟨_, begins⟩ | ⟨later, rfl, startLater, foundLater⟩
      · exact absurd begins apart.1
      · obtain ⟨behind, rfl, startBehind, foundBehind⟩ := ih plain.2 apart.2 startLater foundLater
        exact ⟨behind, (List.append_assoc ..).symm, startBehind, foundBehind⟩

theorem found_behind_text {text rest : Text} (absent : ¬needle <:+: text)
    (start : AtLineStart before)
    (found : before ++ (needle ++ after) = text ++ (ending ++ rest)) :
    ∃ behind, before = text ++ behind ∧ AtLineStart behind ∧
      behind ++ (needle ++ after) = ending ++ rest := by
  rcases prefix_of_append ⟨_, found⟩ with inside | ⟨behind, rfl, _⟩
  · exfalso
    obtain ⟨back, rfl⟩ := inside
    rw [List.append_assoc] at found
    have begins : needle <+: back := prefix_of_line solid ends ⟨after, List.append_cancel_left found⟩
    exact absent (begins.isInfix.trans (List.suffix_append before back).isInfix)
  · refine ⟨behind, rfl, start.behind, ?_⟩
    rw [List.append_assoc] at found
    exact List.append_cancel_left found

end Found

theorem infix_behind {α : Type} {needle front back : List α} {first : α}
    (head : needle.head? = some first) (absent : first ∉ front)
    (inside : needle <:+: front ++ back) : needle <:+: back := by
  induction front with
  | nil => exact inside
  | cons c front ih =>
      rw [List.mem_cons, not_or] at absent
      rcases List.infix_cons_iff.mp inside with here | later
      · cases needle with
        | nil => cases head
        | cons d needle =>
            cases head
            exact absurd (List.cons_prefix_cons.mp here).1 absent.1
      · exact ih absent.2 later

end BootEntropy.Lib
