import Mathlib.Algebra.BigOperators.Group.List.Basic
import Mathlib.Algebra.GroupWithZero.Nat
import Mathlib.Data.List.Dedup
import Mathlib.Data.List.Induction
import Mathlib.Data.List.Nodup

/-!
# Rows grouped by a key

A dictionary of lists that is filled row by row. Its keys stand in the order in which
they were first seen, and the list of a key is that of its rows, in order.
-/

namespace BootEntropy.Lib

set_option autoImplicit false

theorem repeated_lengths_sum {α κ : Type} {groups : List (κ × List α)}
    (filled : ∀ group ∈ groups, 1 ≤ group.2.length) :
    groups.length + ((groups.filter fun group => 1 < group.2.length).map
      fun group => group.2.length - 1).sum = (groups.map fun group => group.2.length).sum := by
  induction groups with
  | nil => rfl
  | cons group groups ih =>
      rw [List.forall_mem_cons] at filled
      have rest := ih filled.2
      rw [List.length_cons, List.map_cons, List.sum_cons]
      by_cases repeated : 1 < group.2.length
      · rw [List.filter_cons_of_pos (by simpa using repeated), List.map_cons, List.sum_cons]
        omega
      · rw [List.filter_cons_of_neg (by simpa using repeated)]
        omega

section Groups

variable {α β κ : Type} [DecidableEq κ]

/-- `groups.setdefault(key, []).append(value)` -/
def addToGroup (key : κ) (value : β) : List (κ × List β) → List (κ × List β)
  | [] => [(key, [value])]
  | group :: groups =>
      if group.1 = key then (group.1, group.2 ++ [value]) :: groups
      else group :: addToGroup key value groups

variable (key : α → κ) (value : α → β)

def groupRows (rows : List α) : List (κ × List β) :=
  rows.foldl (fun groups row => addToGroup (key row) (value row) groups) []

theorem group_rows_snoc (rows : List α) (row : α) :
    groupRows key value (rows ++ [row]) =
      addToGroup (key row) (value row) (groupRows key value rows) := by
  rw [groupRows, List.foldl_append]
  rfl

/-! ## What a group holds -/

theorem erase_dups_nodup : ∀ keys : List κ, keys.eraseDups.Nodup
  | [] => by simp
  | first :: rest => by
      rw [List.eraseDups_cons, List.nodup_cons]
      constructor
      · simp
      · exact erase_dups_nodup _
termination_by keys => keys.length
decreasing_by exact Nat.lt_succ_of_le (List.length_filter_le _ _)

theorem erase_dups_length (keys : List κ) : keys.eraseDups.length = keys.dedup.length := by
  apply List.Perm.length_eq
  rw [List.perm_ext_iff_of_nodup (erase_dups_nodup keys) (List.nodup_dedup keys)]
  intro key
  rw [List.mem_eraseDups, List.mem_dedup]

theorem erase_dups_snoc (keys : List κ) (last : κ) :
    (keys ++ [last]).eraseDups =
      if last ∈ keys then keys.eraseDups else keys.eraseDups ++ [last] := by
  rw [List.eraseDups_append, List.removeAll]
  split_ifs with seen
  · simp [seen]
  · simp [seen, List.eraseDups_cons]

theorem add_to_group_known {keys : List κ} (distinct : keys.Nodup) {known : κ}
    (member : known ∈ keys) (last : β) (content : κ → List β) :
    addToGroup known last (keys.map fun key => (key, content key)) =
      keys.map fun key => (key, if key = known then content key ++ [last] else content key) := by
  induction keys with
  | nil => cases member
  | cons first rest ih =>
      obtain ⟨fresh, distinct⟩ := List.nodup_cons.mp distinct
      rw [List.map_cons, List.map_cons, addToGroup]
      dsimp only
      split_ifs with here
      · congr 1
        apply List.map_congr_left
        intro other behind
        have different : other ≠ known := by
          rintro rfl
          exact fresh (here ▸ behind)
        rw [if_neg different]
      · have behind : known ∈ rest := by
          rcases List.mem_cons.mp member with same | later
          · exact absurd same.symm here
          · exact later
        rw [ih distinct behind]

theorem add_to_group_new {keys : List κ} {new : κ} (fresh : new ∉ keys) (last : β)
    (content : κ → List β) :
    addToGroup new last (keys.map fun key => (key, content key)) =
      (keys.map fun key => (key, content key)) ++ [(new, [last])] := by
  induction keys with
  | nil => rfl
  | cons first rest ih =>
      obtain ⟨different, behind⟩ := List.ne_and_not_mem_of_not_mem_cons fresh
      rw [List.map_cons, addToGroup, if_neg (Ne.symm different), ih behind, List.cons_append]

theorem group_rows_eq (rows : List α) :
    groupRows key value rows = (rows.map key).eraseDups.map fun known =>
      (known, (rows.filter fun row => key row = known).map value) := by
  induction rows using List.reverseRecOn with
  | nil => simp [groupRows]
  | append_singleton rows row ih =>
      rw [group_rows_snoc, ih, List.map_append, List.map_singleton, erase_dups_snoc]
      by_cases seen : key row ∈ rows.map key
      · have member : key row ∈ (rows.map key).eraseDups := List.mem_eraseDups.mpr seen
        rw [if_pos seen, add_to_group_known (erase_dups_nodup _) member]
        apply List.map_congr_left
        intro known _
        by_cases same : known = key row
        · simp [same, List.filter_append]
        · simp [same, List.filter_append, Ne.symm same]
      · have fresh : key row ∉ (rows.map key).eraseDups := fun held =>
          seen (List.mem_eraseDups.mp held)
        have alone : rows.filter (fun other => key other = key row) = [] := by
          rw [List.filter_eq_nil_iff]
          intro other member same
          exact seen (List.mem_map.mpr ⟨other, member, of_decide_eq_true same⟩)
        rw [if_neg seen, add_to_group_new fresh, List.map_append, List.map_singleton,
          List.filter_append, alone]
        congr 1
        · apply List.map_congr_left
          intro known held
          have different : key row ≠ known := by
            rintro rfl
            exact fresh held
          simp [List.filter_append, different]
        · simp

theorem group_rows_keys (rows : List α) :
    (groupRows key value rows).map Prod.fst = (rows.map key).eraseDups := by
  rw [group_rows_eq, List.map_map]
  exact List.map_id _

theorem mem_group_rows {rows : List α} {group : κ × List β} :
    group ∈ groupRows key value rows ↔ group.1 ∈ rows.map key ∧
      group.2 = (rows.filter fun row => key row = group.1).map value := by
  rw [group_rows_eq, List.mem_map]
  constructor
  · rintro ⟨known, member, rfl⟩
    exact ⟨List.mem_eraseDups.mp member, rfl⟩
  · intro own
    exact ⟨group.1, List.mem_eraseDups.mpr own.1, Prod.ext rfl own.2.symm⟩

/-! ## All groups together -/

theorem add_to_group_perm (known : κ) (last : β) (groups : List (κ × List β)) :
    ((addToGroup known last groups).flatMap Prod.snd).Perm (groups.flatMap Prod.snd ++ [last]) := by
  induction groups with
  | nil => simp [addToGroup]
  | cons group groups ih =>
      rw [addToGroup, List.flatMap_cons, List.append_assoc]
      split_ifs with here
      · rw [List.flatMap_cons, List.append_assoc]
        exact (List.perm_append_comm).append_left group.2
      · rw [List.flatMap_cons]
        exact ih.append_left group.2

theorem group_rows_perm (rows : List α) :
    ((groupRows key value rows).flatMap Prod.snd).Perm (rows.map value) := by
  induction rows using List.reverseRecOn with
  | nil => simp [groupRows]
  | append_singleton rows row ih =>
      rw [group_rows_snoc, List.map_append]
      exact (add_to_group_perm _ _ _).trans (ih.append_right [value row])

theorem group_rows_sum {M : Type} [AddCommMonoid M] (count : β → M) (rows : List α) :
    ((groupRows key value rows).map fun group => (group.2.map count).sum).sum =
      ((rows.map value).map count).sum := by
  rw [← ((group_rows_perm key value rows).map count).sum_eq]
  induction groupRows key value rows with
  | nil => rfl
  | cons group groups ih =>
      rw [List.map_cons, List.sum_cons, ih, List.flatMap_cons, List.map_append, List.sum_append]

/-- The groups with several rows hold a row for each repetition of a key, and one more. -/
theorem repeated_groups_sum (rows : List α) :
    (rows.map key).dedup.length +
      (((groupRows key value rows).filter fun group => 1 < group.2.length).map
        fun group => group.2.length - 1).sum = rows.length := by
  have filled : ∀ group ∈ groupRows key value rows, 1 ≤ group.2.length := by
    intro group member
    obtain ⟨known, content⟩ := (mem_group_rows key value).mp member
    obtain ⟨row, inside, same⟩ := List.mem_map.mp known
    rw [content, List.length_map]
    exact List.length_pos_of_mem (List.mem_filter.mpr ⟨inside, decide_eq_true same⟩)
  have total := group_rows_sum key value (fun _ => 1) rows
  simp only [List.map_const', List.length_map, List.sum_replicate_nat, mul_one] at total
  rw [← erase_dups_length, ← group_rows_keys key value, List.length_map, repeated_lengths_sum filled, total]

end Groups

end BootEntropy.Lib
