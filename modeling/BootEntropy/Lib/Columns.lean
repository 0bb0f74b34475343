import Mathlib.Data.List.Nodup
import Mathlib.Data.List.Zip
import Mathlib.Data.Prod.Basic

/-!
# Columns joined by position

A table has rows, and a row need not have a value in every column. Each column is
filtered on its own, and two filtered columns are joined by position. The join takes
both values of a pair from one row only under conditions on which rows lack what.
-/

namespace BootEntropy.Lib

set_option autoImplicit false

variable {α β τ : Type}

/-- Two columns over one list of rows, joined by position. -/
def joined (left right : α → Bool) (rows : List α) : List (α × α) :=
  (rows.filter left).zip (rows.filter right)

def matched (left right : α → Bool) (rows : List α) : List (α × α) :=
  (rows.filter fun row => left row && right row).map fun row => (row, row)

/-! ## All pairs -/

/-- A later row has no value in a column that an earlier row lacks alone. -/
def Followed (left right : α → Bool) (earlier later : α) : Prop :=
  (left earlier = true → right earlier = false → right later = false) ∧
    (right earlier = true → left earlier = false → left later = false)

theorem mem_of_mem_matched {left right : α → Bool} {rows : List α} {pair : α × α}
    (member : pair ∈ matched left right rows) : pair.1 ∈ rows := by
  obtain ⟨own, inside, rfl⟩ := List.mem_map.mp member
  exact List.mem_of_mem_filter inside

theorem joined_swap (left right : α → Bool) (rows : List α) :
    (joined left right rows).map Prod.swap = joined right left rows := by
  rw [joined, joined, List.zip_swap]

theorem matched_swap (left right : α → Bool) (rows : List α) :
    (matched left right rows).map Prod.swap = matched right left rows := by
  rw [matched, matched, List.map_map]
  simp only [Bool.and_comm (left _)]
  rfl

theorem joined_eq_matched_comm (left right : α → Bool) (rows : List α) :
    joined right left rows = matched right left rows ↔
      joined left right rows = matched left right rows := by
  rw [← joined_swap left right, ← matched_swap left right]
  exact (List.map_injective_iff.mpr Prod.swap_injective).eq_iff

theorem joined_cons_alone_iff {left right : α → Bool} {row : α} {rest : List α}
    (absent : row ∉ rest) (has : left row = true) (lacks : right row = false) :
    joined left right (row :: rest) = matched left right (row :: rest) ↔
      (∀ later ∈ rest, right later = false) ∧
        joined left right rest = matched left right rest := by
  have taken : joined left right (row :: rest) =
      (row :: rest.filter left).zip (rest.filter right) := by
    simp [joined, has, lacks]
  have skipped : matched left right (row :: rest) = matched left right rest := by
    simp [matched, lacks]
  rw [taken, skipped]
  cases values : rest.filter right with
  | nil =>
      have none : ∀ later ∈ rest, right later = false := by simpa using values
      have empty : joined left right rest = [] := by rw [joined, values, List.zip_nil_right]
      rw [List.zip_nil_right, empty]
      exact (and_iff_right none).symm
  | cons other others =>
      have later : other ∈ rest ∧ right other = true :=
        List.mem_filter.mp (values ▸ List.mem_cons_self ..)
      apply iff_of_false
      · intro same
        rw [List.zip_cons_cons] at same
        exact absent (mem_of_mem_matched (same ▸ List.mem_cons_self ..))
      · intro both
        exact absurd (both.1 other later.1) (by simp [later.2])

/-- The filtered columns are joined row by row exactly when no row that has one value
is followed by a row with the one it lacks. -/
theorem joined_eq_matched_iff (left right : α → Bool) {rows : List α} (distinct : rows.Nodup) :
    joined left right rows = matched left right rows ↔ rows.Pairwise (Followed left right) := by
  induction rows with
  | nil => exact iff_of_true rfl List.Pairwise.nil
  | cons row rest ih =>
      rw [List.nodup_cons] at distinct
      rw [List.pairwise_cons, ← ih distinct.2]
      cases hasLeft : left row <;> cases hasRight : right row
      · have same : joined left right (row :: rest) = joined left right rest := by
          simp [joined, hasLeft, hasRight]
        have other : matched left right (row :: rest) = matched left right rest := by
          simp [matched, hasLeft]
        rw [same, other]
        exact (and_iff_right fun later _ => by simp [Followed, hasLeft, hasRight]).symm
      · rw [← joined_eq_matched_comm, joined_cons_alone_iff distinct.1 hasRight hasLeft,
          joined_eq_matched_comm]
        simp [Followed, hasLeft, hasRight]
      · rw [joined_cons_alone_iff distinct.1 hasLeft hasRight]
        simp [Followed, hasLeft, hasRight]
      · have same : joined left right (row :: rest) = (row, row) :: joined left right rest := by
          simp [joined, hasLeft, hasRight]
        have other : matched left right (row :: rest) = (row, row) :: matched left right rest := by
          simp [matched, hasLeft, hasRight]
        rw [same, other, List.cons_inj_right]
        exact (and_iff_right fun later _ => by simp [Followed, hasLeft, hasRight]).symm

/-! ## Pairs that are kept -/

/-- Readers whose results tell what they read agree on a list without repetition
exactly when they agree on each of its elements. -/
theorem filter_map_eq_iff_of_tag {find wanted : α → Option β} {name : α → τ} {tag : β → τ}
    (finds : ∀ item result, find item = some result → tag result = name item)
    (wants : ∀ item result, wanted item = some result → tag result = name item)
    {items : List α} (distinct : (items.map name).Nodup) :
    items.filterMap find = items.filterMap wanted ↔ ∀ item ∈ items, find item = wanted item := by
  have outside {other : α → Option β} {rest : List α} {result : β}
      (names : ∀ item result, other item = some result → tag result = name item)
      (member : result ∈ rest.filterMap other) : tag result ∈ rest.map name := by
    obtain ⟨item, inside, found⟩ := List.mem_filterMap.mp member
    exact names item result found ▸ List.mem_map_of_mem inside
  induction items with
  | nil => exact iff_of_true rfl fun _ member => nomatch member
  | cons item rest ih =>
      rw [List.map_cons, List.nodup_cons] at distinct
      have inner : rest.filterMap find = rest.filterMap wanted ↔
          ∀ other ∈ rest, find other = wanted other := ih distinct.2
      rw [List.forall_mem_cons, ← inner]
      cases found : find item with
      | none =>
          cases asked : wanted item with
          | none =>
              rw [List.filterMap_cons_none found, List.filterMap_cons_none asked]
              exact (and_iff_right rfl).symm
          | some result =>
              rw [List.filterMap_cons_none found, List.filterMap_cons_some asked]
              apply iff_of_false
              · intro same
                apply distinct.1
                rw [← wants item result asked]
                exact outside finds (same ▸ List.mem_cons_self ..)
              · exact fun both => nomatch both.1
      | some result =>
          cases asked : wanted item with
          | none =>
              rw [List.filterMap_cons_some found, List.filterMap_cons_none asked]
              apply iff_of_false
              · intro same
                apply distinct.1
                rw [← finds item result found]
                exact outside wants (same ▸ List.mem_cons_self ..)
              · exact fun both => nomatch both.1
          | some other =>
              rw [List.filterMap_cons_some found, List.filterMap_cons_some asked, List.cons_eq_cons,
                Option.some.injEq]

theorem zip_eq_filter_map (lefts : List α) (rights : List β) : ∀ start,
    (lefts.drop start).zip rights =
      (rights.zipIdx start).filterMap fun entry => lefts[entry.2]?.map fun other => (other, entry.1) := by
  induction rights with
  | nil => exact fun _ => List.zip_nil_right
  | cons value rights ih =>
      intro start
      rw [List.zipIdx_cons]
      cases found : lefts[start]? with
      | none =>
          have short : lefts.length ≤ start := List.getElem?_eq_none_iff.mp found
          rw [List.filterMap_cons_none (by rw [found]; rfl), ← ih (start + 1),
            List.drop_of_length_le short, List.drop_of_length_le (by omega), List.zip_nil_left,
            List.zip_nil_left]
      | some other =>
          rw [List.filterMap_cons_some (by rw [found]; rfl), ← ih (start + 1),
            List.drop_eq_getElem?_toList_append, found]
          rfl

/-- Each value of a filtered column has its row, and its rank is the number of values
in front. -/
theorem filter_get_iff (has : α → Bool) (rows : List α) (rank : Nat) (row : α) :
    (rows.filter has)[rank]? = some row ↔
      ∃ before after, rows = before ++ row :: after ∧ has row = true ∧
        before.countP has = rank := by
  constructor
  · intro found
    obtain ⟨inside, value⟩ := List.getElem?_eq_some_iff.mp found
    have whole := List.take_append_drop rank (rows.filter has)
    rw [List.drop_eq_getElem_cons inside, value] at whole
    obtain ⟨front, back, rfl, own, rest⟩ := List.filter_eq_append_iff.mp whole.symm
    obtain ⟨skipped, after, rfl, none, here, _⟩ := List.filter_eq_cons_iff.mp rest
    refine ⟨front ++ skipped, after, (List.append_assoc ..).symm, here, ?_⟩
    rw [List.countP_append, List.countP_eq_length_filter, own, List.countP_eq_zero.mpr none,
      List.length_take]
    omega
  · rintro ⟨before, after, rfl, here, rank⟩
    rw [List.filter_append, List.filter_cons_of_pos here, ← rank, List.countP_eq_length_filter,
      List.getElem?_append_right (Nat.le_refl _), Nat.sub_self]
    rfl

theorem filter_get_rank_iff {has : α → Bool} {rows before after : List α} {row : α}
    (distinct : rows.Nodup) (whole : rows = before ++ row :: after) (here : has row = true)
    (rank : Nat) : (rows.filter has)[rank]? = some row ↔ before.countP has = rank := by
  have own : (rows.filter has)[before.countP has]? = some row :=
    (filter_get_iff has rows _ row).mpr ⟨before, after, whole, here, rfl⟩
  constructor
  · intro found
    have inside := (List.getElem?_eq_some_iff.mp own).1
    exact (List.getElem?_inj inside (distinct.filter has)).mp (own.trans found.symm)
  · rintro rfl
    exact own

section Kept

variable (left right keep : α → Bool)

/-- The rows whose pairs are kept have equally many rows of both columns in front. A
row without the left value has no left value for its rank. -/
def Ranked (rows : List α) : Prop :=
  ∀ before row after, rows = before ++ row :: after → right row = true → keep row = true →
    (left row = true ∧ before.countP left = before.countP right) ∨
      (left row = false ∧ rows.countP left ≤ before.countP right)

variable {left right keep} in
theorem ranked_map {name : β → α} {rows : List β} :
    Ranked left right keep (rows.map name) ↔
      Ranked (left ∘ name) (right ∘ name) (keep ∘ name) rows := by
  constructor
  · intro ranked before row after whole here kept
    have named := ranked (before.map name) (name row) (after.map name)
      (by rw [whole, List.map_append, List.map_cons]) here kept
    rwa [List.countP_map, List.countP_map, List.countP_map] at named
  · intro ranked before row after whole here kept
    obtain ⟨front, back, rfl, rfl, behind⟩ := List.map_eq_append_iff.mp whole
    obtain ⟨own, rest, rfl, rfl, rfl⟩ := List.map_eq_cons_iff.mp behind
    rw [List.countP_map, List.countP_map, List.countP_map]
    exact ranked front own rest rfl here kept

theorem joined_kept_eq (rows : List α) :
    (joined left right rows).filter (fun pair => keep pair.2) =
      (rows.filter right).zipIdx.filterMap fun entry =>
        if keep entry.1 then (rows.filter left)[entry.2]?.map fun other => (other, entry.1)
        else none := by
  have along := zip_eq_filter_map (rows.filter left) (rows.filter right) 0
  rw [List.drop_zero] at along
  rw [joined, along, List.filter_filterMap]
  apply List.filterMap_congr
  intro entry _
  cases (rows.filter left)[entry.2]? with
  | none => simp
  | some other =>
      by_cases kept : keep entry.1 = true
      · simp [kept]
      · simp [kept]

theorem matched_eq (rows : List α) :
    matched left right rows =
      (rows.filter right).zipIdx.filterMap fun entry =>
        if left entry.1 then some (entry.1, entry.1) else none := by
  have own : rows.filter right = (rows.filter right).zipIdx.map Prod.fst :=
    (List.zipIdx_map_fst 0 _).symm
  have both : (rows.filter fun row => left row && right row) = (rows.filter right).filter left := by
    rw [List.filter_filter]
  have along := @List.filterMap_map _ _ _ Prod.fst
    (fun row => if left row then some (row, row) else none) (rows.filter right).zipIdx
  rw [← own] at along
  rw [matched, both]
  refine Eq.trans ?_ along
  rw [← List.filterMap_eq_map, ← List.filterMap_eq_filter, List.filterMap_filterMap]
  apply List.filterMap_congr
  intro row _
  by_cases has : left row = true
  · simp [has]
  · simp [has]

/-- The kept pairs are row by row exactly when no row with both values is dropped and
the rows that are kept are ranked alike. -/
theorem joined_kept_eq_matched_iff {rows : List α} (distinct : rows.Nodup) :
    (joined left right rows).filter (fun pair => keep pair.2) = matched left right rows ↔
      (∀ row ∈ rows, left row = true → right row = true → keep row = true) ∧
        Ranked left right keep rows := by
  have names : ((rows.filter right).zipIdx.map Prod.fst).Nodup := by
    rw [List.zipIdx_map_fst]
    exact distinct.filter right
  have finds : ∀ (entry : α × Nat) (pair : α × α),
      (if keep entry.1 then (rows.filter left)[entry.2]?.map fun other => (other, entry.1)
        else none) = some pair → pair.2 = entry.1 := by
    intro entry pair found
    split_ifs at found
    obtain ⟨other, _, rfl⟩ := Option.map_eq_some_iff.mp found
    rfl
  have wants : ∀ (entry : α × Nat) (pair : α × α),
      (if left entry.1 then some (entry.1, entry.1) else none) = some pair → pair.2 = entry.1 := by
    intro entry pair asked
    split_ifs at asked
    cases asked
    rfl
  rw [joined_kept_eq, matched_eq, filter_map_eq_iff_of_tag finds wants names]
  constructor
  · intro agree
    have each (before : List α) (row : α) (after : List α) (whole : rows = before ++ row :: after)
        (here : right row = true) :
        (if keep row then (rows.filter left)[before.countP right]?.map fun other => (other, row)
          else none) = if left row then some (row, row) else none :=
      agree (row, before.countP right) (List.mk_mem_zipIdx_iff_getElem?.mpr
        ((filter_get_iff right rows _ row).mpr ⟨before, after, whole, here, rfl⟩))
    constructor
    · intro row member has here
      obtain ⟨before, after, whole⟩ := List.append_of_mem member
      have same := each before row after whole here
      by_contra dropped
      rw [if_neg dropped, if_pos has] at same
      cases same
    · intro before row after whole here kept
      have same := each before row after whole here
      rw [if_pos kept] at same
      cases has : left row with
      | true =>
          rw [has, if_pos rfl, Option.map_eq_some_iff] at same
          obtain ⟨other, found, pair⟩ := same
          rw [(Prod.mk.inj pair).1] at found
          exact Or.inl ⟨rfl, (filter_get_rank_iff distinct whole has _).mp found⟩
      | false =>
          rw [has, if_neg Bool.false_ne_true, Option.map_eq_none_iff, List.getElem?_eq_none_iff,
            ← List.countP_eq_length_filter] at same
          exact Or.inr ⟨rfl, same⟩
  · rintro ⟨none, ranked⟩ ⟨row, rank⟩ member
    obtain ⟨before, after, whole, here, rfl⟩ :=
      (filter_get_iff right rows _ row).mp (List.mk_mem_zipIdx_iff_getElem?.mp member)
    have inside : row ∈ rows := whole ▸ List.mem_append_right before (List.mem_cons_self ..)
    by_cases kept : keep row = true
    · rw [if_pos kept]
      rcases ranked before row after whole here kept with ⟨has, rank⟩ | ⟨lacks, short⟩
      · rw [if_pos has, (filter_get_rank_iff distinct whole has _).mpr rank]
        rfl
      · rw [List.countP_eq_length_filter] at short
        rw [lacks, if_neg Bool.false_ne_true, List.getElem?_eq_none short]
        rfl
    · have lacks : ¬left row = true := fun has => kept (none row inside has here)
      rw [if_neg kept, if_neg lacks]

end Kept

end BootEntropy.Lib
