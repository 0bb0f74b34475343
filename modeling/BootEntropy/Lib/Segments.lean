import Mathlib.Data.List.Basic
import Mathlib.Data.List.DropRight

/-!
# Segments of a stream

A stream cut at its stop symbols. A segment is closed once its stop symbol has
come; the last one stays open.
-/

namespace BootEntropy.Lib

set_option autoImplicit false

variable {α : Type} (stop : α → Bool)

def closedSegments (stream : List α) : List (List α) := (stream.splitOnP stop).dropLast

def openSegment (stream : List α) : List α := (stream.splitOnP stop).getLastD []

theorem closed_append_open (stream : List α) :
    closedSegments stop stream ++ [openSegment stop stream] = stream.splitOnP stop := by
  have nonempty := List.splitOnP_ne_nil stop stream
  rw [closedSegments, openSegment, List.getLastD_eq_getLast?, List.getLast?_eq_some_getLast nonempty,
    Option.getD_some, List.dropLast_concat_getLast]

variable {stop}

theorem segments_of_split {stream : List α} {closed : List (List α)} {rest : List α}
    (split : stream.splitOnP stop = closed ++ [rest]) :
    closedSegments stop stream = closed ∧ openSegment stop stream = rest := by
  rw [closedSegments, openSegment, split]
  exact ⟨List.dropLast_concat, by simp⟩

theorem split_snoc_stop (stream : List α) {symbol : α} (stops : stop symbol = true) :
    (stream ++ [symbol]).splitOnP stop =
      (closedSegments stop stream ++ [openSegment stop stream]) ++ [[]] := by
  rw [List.splitOnP_append_cons stream [] stops, closed_append_open]
  rfl

theorem split_snoc (stream : List α) {symbol : α} (goes : stop symbol = false) :
    (stream ++ [symbol]).splitOnP stop =
      closedSegments stop stream ++ [openSegment stop stream ++ [symbol]] := by
  induction stream with
  | nil => exact List.splitOnP_eq_singleton (by simpa using goes)
  | cons first rest ih =>
      rw [List.cons_append, List.splitOnP_cons_eq_if_modifyHead, ih]
      have whole := closed_append_open stop rest
      have wholeCons : (first :: rest).splitOnP stop = _ :=
        List.splitOnP_cons_eq_if_modifyHead first rest
      rw [← whole] at wholeCons
      by_cases stops : stop first = true
      · rw [if_pos stops] at wholeCons ⊢
        rw [← List.cons_append] at wholeCons
        obtain ⟨closed, opened⟩ := segments_of_split wholeCons
        rw [closed, opened]
        rfl
      · rw [if_neg stops] at wholeCons ⊢
        cases segments : closedSegments stop rest with
        | nil =>
            rw [segments] at wholeCons
            obtain ⟨closed, opened⟩ := @segments_of_split _ _ _ [] _ wholeCons
            rw [closed, opened]
            rfl
        | cons head others =>
            rw [segments] at wholeCons
            obtain ⟨closed, opened⟩ :=
              @segments_of_split _ _ _ ((first :: head) :: others) _ wholeCons
            rw [closed, opened]
            rfl

theorem closed_segments_stop (stream : List α) {symbol : α} (stops : stop symbol = true) :
    closedSegments stop (stream ++ [symbol]) =
      closedSegments stop stream ++ [openSegment stop stream] :=
  (segments_of_split (split_snoc_stop stream stops)).1

theorem open_segment_stop (stream : List α) {symbol : α} (stops : stop symbol = true) :
    openSegment stop (stream ++ [symbol]) = [] :=
  (segments_of_split (split_snoc_stop stream stops)).2

theorem closed_segments_snoc (stream : List α) {symbol : α} (goes : stop symbol = false) :
    closedSegments stop (stream ++ [symbol]) = closedSegments stop stream :=
  (segments_of_split (split_snoc stream goes)).1

theorem open_segment_snoc (stream : List α) {symbol : α} (goes : stop symbol = false) :
    openSegment stop (stream ++ [symbol]) = openSegment stop stream ++ [symbol] :=
  (segments_of_split (split_snoc stream goes)).2

/-- A reader that finds everything a second one finds finds no more than it exactly
if it never finds something where the other finds nothing. -/
theorem filter_map_eq_iff {β : Type} {find wanted : α → Option β}
    (finds : ∀ item result, wanted item = some result → find item = some result) (items : List α) :
    items.filterMap find = items.filterMap wanted ↔
      ∀ item ∈ items, wanted item = none → find item = none := by
  have shorter (rest : List α) :
      (rest.filterMap wanted).length ≤ (rest.filterMap find).length := by
    induction rest with
    | nil => exact Nat.le_refl 0
    | cons item rest ih =>
        cases asked : wanted item with
        | none =>
            rw [List.filterMap_cons_none asked]
            apply Nat.le_trans ih
            cases found : find item with
            | none => rw [List.filterMap_cons_none found]
            | some result =>
                rw [List.filterMap_cons_some found]
                exact Nat.le_succ _
        | some result =>
            rw [List.filterMap_cons_some asked, List.filterMap_cons_some (finds item result asked)]
            exact Nat.succ_le_succ ih
  induction items with
  | nil => exact iff_of_true rfl fun _ member => nomatch member
  | cons item rest ih =>
      rw [List.forall_mem_cons]
      refine Iff.trans ?_ (and_congr_right fun _ => ih)
      cases asked : wanted item with
      | some result =>
          rw [List.filterMap_cons_some asked, List.filterMap_cons_some (finds item result asked),
            List.cons_inj_right]
          exact (and_iff_right fun none => nomatch none).symm
      | none =>
          rw [List.filterMap_cons_none asked]
          cases found : find item with
          | none =>
              rw [List.filterMap_cons_none found]
              exact (and_iff_right fun _ => rfl).symm
          | some result =>
              rw [List.filterMap_cons_some found]
              apply iff_of_false
              · intro same
                have lengths := congrArg List.length same
                have least := shorter rest
                rw [List.length_cons] at lengths
                omega
              · intro both
                exact nomatch both.1 rfl

end BootEntropy.Lib
