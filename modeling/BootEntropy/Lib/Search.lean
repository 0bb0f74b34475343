import Mathlib.Data.List.Basic

/-!
# Searching a stream for its first marker

`findSub` is `bytes.find`. A scanner that keeps only the end of what it has read
finds the first marker of the whole stream as long as it never drops the
beginning of a marker that may still be completed. A reader that starts too early or
too late still reads the right symbols where the text repeats what it misplaced.
-/

namespace BootEntropy.Lib

set_option autoImplicit false

variable {α : Type}

def OccursAt (needle text : List α) (index : Nat) : Prop := needle <+: text.drop index

theorem OccursAt.fits {needle text : List α} {index : Nat} (occurs : OccursAt needle text index)
    (solid : needle ≠ []) : index + needle.length ≤ text.length := by
  have bound : needle.length ≤ (text.drop index).length := List.IsPrefix.length_le occurs
  have positive := List.length_pos_of_ne_nil solid
  rw [List.length_drop] at bound
  omega

theorem OccursAt.append {needle text : List α} {index : Nat} (occurs : OccursAt needle text index)
    (solid : needle ≠ []) (more : List α) : OccursAt needle (text ++ more) index := by
  have inside := occurs.fits solid
  rw [OccursAt, List.drop_append_of_le_length (by omega)]
  exact List.IsPrefix.trans occurs (List.prefix_append _ _)

theorem OccursAt.of_append {needle text more : List α} {index : Nat}
    (occurs : OccursAt needle (text ++ more) index) (inside : index + needle.length ≤ text.length) :
    OccursAt needle text index := by
  rw [OccursAt, List.drop_append_of_le_length (by omega)] at occurs
  apply List.prefix_of_prefix_length_le occurs (List.prefix_append _ _)
  rw [List.length_drop]
  omega

variable [DecidableEq α]

instance (needle text : List α) (index : Nat) : Decidable (OccursAt needle text index) :=
  inferInstanceAs (Decidable (needle <+: text.drop index))

def findSub (needle : List α) : List α → Option Nat
  | [] => if needle = [] then some 0 else none
  | c :: rest => if needle <+: c :: rest then some 0 else (findSub needle rest).map (· + 1)

theorem find_sub_none {needle text : List α} (absent : findSub needle text = none) (index : Nat) :
    ¬OccursAt needle text index := by
  induction text generalizing index with
  | nil =>
      intro occurs
      have empty : needle = [] := by simpa [OccursAt] using occurs
      simp [findSub, empty] at absent
  | cons c rest ih =>
      by_cases here : needle <+: c :: rest
      · simp [findSub, here] at absent
      · cases index with
        | zero => exact here
        | succ index =>
            apply ih
            simpa [findSub, here] using absent

theorem find_sub_absent {needle text : List α} {c : α} (head : needle.head? = some c)
    (absent : c ∉ text) : findSub needle text = none := by
  obtain ⟨rest, rfl⟩ := List.head?_eq_some_iff.mp head
  induction text with
  | nil => rfl
  | cons d text ih =>
      rw [List.mem_cons, not_or] at absent
      have other : ¬c :: rest <+: d :: text := fun same => absent.1 (List.cons_prefix_cons.mp same).1
      rw [findSub, if_neg other, ih absent.2]
      rfl

theorem find_sub_start (needle text : List α) : findSub needle (needle ++ text) = some 0 := by
  cases needle with
  | nil => cases text <;> rfl
  | cons c needle => exact if_pos (List.prefix_append (c :: needle) text)

theorem find_sub_some {needle text : List α} {index : Nat}
    (found : findSub needle text = some index) :
    OccursAt needle text index ∧ ∀ earlier < index, ¬OccursAt needle text earlier := by
  induction text generalizing index with
  | nil =>
      by_cases empty : needle = []
      · have zero : 0 = index := by simpa [findSub, empty] using found
        rw [← zero, empty]
        exact ⟨List.nil_prefix, fun _ before => absurd before (Nat.not_lt_zero _)⟩
      · simp [findSub, empty] at found
  | cons c rest ih =>
      by_cases here : needle <+: c :: rest
      · have zero : 0 = index := by simpa [findSub, here] using found
        rw [← zero]
        exact ⟨here, fun _ before => absurd before (Nat.not_lt_zero _)⟩
      · simp only [findSub, here, if_false, Option.map_eq_some_iff] at found
        obtain ⟨tailIndex, tailFound, rfl⟩ := found
        obtain ⟨occurs, first⟩ := ih tailFound
        refine ⟨occurs, ?_⟩
        intro earlier before
        cases earlier with
        | zero => exact here
        | succ earlier => exact first earlier (by omega)

theorem find_sub_of_first {needle text : List α} {index : Nat} (occurs : OccursAt needle text index)
    (first : ∀ earlier < index, ¬OccursAt needle text earlier) :
    findSub needle text = some index := by
  cases found : findSub needle text with
  | none => exact absurd occurs (find_sub_none found index)
  | some other =>
      obtain ⟨otherOccurs, otherFirst⟩ := find_sub_some found
      have notBefore : ¬other < index := fun before => first other before otherOccurs
      have notAfter : ¬index < other := fun after => otherFirst index after occurs
      rw [show other = index by omega]

theorem find_sub_append {needle text : List α} {index : Nat} (solid : needle ≠ [])
    (found : findSub needle text = some index) (more : List α) :
    findSub needle (text ++ more) = some index := by
  obtain ⟨occurs, first⟩ := find_sub_some found
  have inside := occurs.fits solid
  apply find_sub_of_first (occurs.append solid more)
  intro earlier before grown
  exact first earlier before (grown.of_append (by omega))

theorem find_sub_append_needle {head : α} {tail text : List α} (once : head ∉ tail)
    (absent : findSub (head :: tail) text = none) (more : List α) :
    findSub (head :: tail) (text ++ (head :: tail ++ more)) = some text.length := by
  apply find_sub_of_first
  · rw [OccursAt, List.drop_left]
    exact List.prefix_append _ _
  · intro earlier before occurs
    by_cases inside : earlier + (head :: tail).length ≤ text.length
    · exact find_sub_none absent earlier (occurs.of_append inside)
    · obtain ⟨rest, split⟩ := occurs
      rw [List.length_cons] at inside
      have place : text.length = earlier + ((text.length - earlier - 1) + 1) := by omega
      have symbol := congrArg (fun all => all[(text.length - earlier - 1) + 1]?) split
      rw [List.getElem?_drop, ← place, List.getElem?_append_right (Nat.le_refl _), Nat.sub_self,
        List.cons_append, List.cons_append, List.getElem?_cons_succ, List.getElem?_cons_zero,
        List.getElem?_append_left (by omega)] at symbol
      exact once (List.mem_of_getElem? symbol)

/-! ## Repeated parts -/

/-- `text` is made of `unit` again and again, the last time perhaps cut. -/
def Repeats (unit text : List α) : Prop :=
  ∀ index < text.length, text[index]? = unit[index % unit.length]?

instance (unit text : List α) : Decidable (Repeats unit text) :=
  inferInstanceAs (Decidable (∀ index < text.length, text[index]? = unit[index % unit.length]?))

omit [DecidableEq α] in
/-- Such a text is the head of itself behind one more `unit`. -/
theorem repeats_iff_front {unit : List α} (solid : unit ≠ []) (text : List α) :
    Repeats unit text ↔ text <+: unit ++ text := by
  have some := List.length_pos_of_ne_nil solid
  have early {index : Nat} (inside : index < unit.length) :
      (unit ++ text)[index]? = unit[index % unit.length]? := by
    rw [List.getElem?_append_left inside, Nat.mod_eq_of_lt inside]
  rw [List.prefix_iff_getElem?]
  constructor
  · intro repeats index inside
    rw [← List.getElem?_eq_getElem inside, repeats index inside]
    rcases Nat.lt_or_ge index unit.length with first | later
    · exact early first
    · rw [List.getElem?_append_right later, repeats _ (by omega), ← Nat.mod_eq_sub_mod later]
  · intro moved index
    induction index using Nat.strongRecOn with
    | ind index ih =>
        intro inside
        have here := moved index inside
        rw [← List.getElem?_eq_getElem inside] at here
        rw [← here]
        rcases Nat.lt_or_ge index unit.length with first | later
        · exact early first
        · rw [List.getElem?_append_right later, ih _ (by omega) (by omega),
            ← Nat.mod_eq_sub_mod later]

omit [DecidableEq α] in
theorem repeats_append_iff {unit : List α} (solid : unit ≠ []) (text : List α) :
    Repeats unit (unit ++ text) ↔ Repeats unit text := by
  rw [repeats_iff_front solid, repeats_iff_front solid, List.prefix_append_right_inj]

omit [DecidableEq α] in
/-- The head of a text is its head behind `unit` exactly when it repeats it. -/
theorem take_append_eq_iff {unit text : List α} {count : Nat} (solid : unit ≠ [])
    (fits : count ≤ text.length) :
    (unit ++ text).take count = text.take count ↔ Repeats unit (text.take count) := by
  have length : (text.take count).length = count := List.length_take_of_le fits
  have same : (unit ++ text.take count).take count = (unit ++ text).take count := by
    rw [List.take_append, List.take_append, List.take_take, Nat.min_eq_left (Nat.sub_le _ _)]
  rw [repeats_iff_front solid, List.prefix_iff_eq_take, length, same]
  exact eq_comm

/-! ## A window on what has been read -/

/-- `window` is the end of `consumed`, no marker is in `consumed`, and the window
still holds every end of `consumed` that begins a marker. -/
structure Retains (needle consumed window : List α) : Prop where
  ending : window <:+ consumed
  absent : findSub needle consumed = none
  pending : ∀ index ≤ consumed.length, consumed.drop index <+: needle →
    consumed.length ≤ window.length + index

namespace Retains

variable {needle consumed window : List α}

theorem start (solid : needle ≠ []) : Retains needle [] [] := by
  constructor
  · exact List.suffix_refl []
  · rw [findSub, if_neg solid]
  · intro index bound _
    exact Nat.zero_le _

theorem occurs_inside (gate : Retains needle consumed window) {chunk : List α} {index : Nat}
    (occurs : OccursAt needle (consumed ++ chunk) index) :
    consumed.length ≤ window.length + index := by
  by_cases beyond : consumed.length ≤ index
  · omega
  · have straddles : ¬index + needle.length ≤ consumed.length := by
      intro fits
      exact find_sub_none gate.absent index (occurs.of_append fits)
    apply gate.pending index (by omega)
    rw [OccursAt, List.drop_append_of_le_length (by omega)] at occurs
    apply List.prefix_of_prefix_length_le (List.prefix_append _ chunk) occurs
    rw [List.length_drop]
    omega

private theorem window_occurs (gate : Retains needle consumed window) (chunk : List α)
    (index : Nat) :
    OccursAt needle (consumed ++ chunk) (consumed.length - window.length + index) ↔
      OccursAt needle (window ++ chunk) index := by
  obtain ⟨gone, split⟩ := gate.ending
  have offset : consumed.length - window.length = gone.length := by
    rw [← split, List.length_append]
    omega
  rw [offset, ← split, OccursAt, OccursAt, List.append_assoc, ← List.drop_drop, List.drop_left]

/-- Searching the window is searching everything read so far. -/
theorem find_sub_window (gate : Retains needle consumed window) (chunk : List α) :
    findSub needle (consumed ++ chunk) =
      (findSub needle (window ++ chunk)).map (consumed.length - window.length + ·) := by
  have shorter := gate.ending.length_le
  cases found : findSub needle (window ++ chunk) with
  | none =>
      cases whole : findSub needle (consumed ++ chunk) with
      | none => rfl
      | some index =>
          have occurs := (find_sub_some whole).1
          have inside := gate.occurs_inside occurs
          have split : consumed.length - window.length +
              (index - (consumed.length - window.length)) = index := by omega
          rw [← split, gate.window_occurs] at occurs
          exact absurd occurs (find_sub_none found _)
  | some index =>
      obtain ⟨occurs, first⟩ := find_sub_some found
      apply find_sub_of_first ((gate.window_occurs chunk index).mpr occurs)
      intro earlier before grown
      have inside := gate.occurs_inside grown
      have split : consumed.length - window.length +
          (earlier - (consumed.length - window.length)) = earlier := by omega
      rw [← split, gate.window_occurs] at grown
      exact first _ (by omega) grown

theorem extend (gate : Retains needle consumed window) {chunk : List α}
    (missing : findSub needle (window ++ chunk) = none) :
    Retains needle (consumed ++ chunk) (window ++ chunk) where
  ending := by
    obtain ⟨gone, split⟩ := gate.ending
    exact ⟨gone, by rw [← split, List.append_assoc]⟩
  absent := by rw [gate.find_sub_window, missing, Option.map_none]
  pending := by
    intro index bound begins
    rw [List.length_append, List.length_append]
    by_cases beyond : consumed.length ≤ index
    · omega
    · rw [List.drop_append_of_le_length (by omega)] at begins
      have inside := gate.pending index (by omega) ((List.prefix_append _ chunk).trans begins)
      omega

theorem shrink (gate : Retains needle consumed window) {kept : List α} (ending : kept <:+ window)
    (keeps : ∀ index ≤ window.length, window.drop index <+: needle →
      window.length ≤ kept.length + index) :
    Retains needle consumed kept where
  ending := ending.trans gate.ending
  absent := gate.absent
  pending := by
    intro index bound begins
    have inside := gate.pending index bound begins
    obtain ⟨gone, split⟩ := gate.ending
    have total : gone.length + window.length = consumed.length := by
      rw [← split, List.length_append]
    have reach := keeps (index - gone.length) (by omega) (by
      rw [← split, show index = gone.length + (index - gone.length) by omega, ← List.drop_drop,
        List.drop_left] at begins
      exact begins)
    omega

theorem drop_line (gate : Retains needle consumed window) {line rest : List α} {sep : α}
    (split : window = line ++ sep :: rest) (outside : sep ∉ needle) :
    Retains needle consumed rest := by
  apply gate.shrink
  · exact ⟨line ++ [sep], by rw [split, List.append_assoc]; rfl⟩
  · intro index bound begins
    rw [split] at begins ⊢
    by_cases before : index ≤ line.length
    · rw [List.drop_append_of_le_length before] at begins
      exact absurd (begins.subset (by simp)) outside
    · rw [List.length_append, List.length_cons]
      omega

theorem trim (gate : Retains needle consumed window) :
    Retains needle consumed (window.drop (window.length - needle.length)) := by
  apply gate.shrink (List.drop_suffix _ _)
  intro index bound begins
  have short := begins.length_le
  rw [List.length_drop] at short ⊢
  omega

end Retains

end BootEntropy.Lib
