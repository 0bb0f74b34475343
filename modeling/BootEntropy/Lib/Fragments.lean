import Mathlib.Data.List.Infix

/-!
# Reads that may end anywhere

Records end in a stop symbol. A read ends at the first stop symbol or, when time
runs out, anywhere before it.
-/

namespace BootEntropy.Lib

set_option autoImplicit false

section Fragments

variable {α : Type}

/-- Nothing is read behind a stop symbol. -/
def Unbroken (stop : α) (fragment : List α) : Prop := stop ∉ fragment.dropLast

theorem prefix_of_append {cut left right : List α} (whole : cut <+: left ++ right) :
    cut <+: left ∨ ∃ rest, cut = left ++ rest ∧ rest <+: right := by
  rcases List.prefix_or_prefix_of_prefix whole (List.prefix_append left right) with shorter | longer
  · exact .inl shorter
  · obtain ⟨rest, rfl⟩ := longer
    exact .inr ⟨rest, rfl, (List.prefix_append_right_inj left).mp whole⟩

theorem begins_in_front {before fragment front back : List α} {symbol : α}
    (reads : before ++ fragment <+: front ++ back) (member : symbol ∈ fragment)
    (absent : symbol ∉ back) : before <+: front := by
  have start : before <+: front ++ back := (List.prefix_append before fragment).trans reads
  rcases prefix_of_append start with inside | ⟨rest, rfl, _⟩
  · exact inside
  · exfalso
    apply absent
    rw [List.append_assoc, List.prefix_append_right_inj] at reads
    exact reads.subset (List.mem_append_right rest member)

variable {stop : α}

theorem ends_in_record {record rest fragment : List α} (ends : record.getLast? = some stop)
    (unbroken : Unbroken stop fragment) (reads : fragment <+: record ++ rest) :
    fragment <+: record := by
  rcases prefix_of_append reads with inside | ⟨extra, rfl, _⟩
  · exact inside
  · by_cases none : extra = []
    · rw [none, List.append_nil]
    · exfalso
      apply unbroken
      rw [List.dropLast_append_of_ne_nil none]
      exact List.mem_append_left _ (List.mem_of_getLast? ends)

theorem ends_of_suffix {record front rest : List α} (ends : record.getLast? = some stop)
    (split : front ++ rest = record) : rest = [] ∨ rest.getLast? = some stop := by
  by_cases none : rest = []
  · exact .inl none
  · rw [← split, List.getLast?_append_of_ne_nil _ none] at ends
    exact .inr ends

theorem Unbroken.behind {front rest : List α} (unbroken : Unbroken stop (front ++ rest)) :
    Unbroken stop rest := by
  by_cases none : rest = []
  · rw [none]
    exact List.not_mem_nil
  · rw [Unbroken, List.dropLast_append_of_ne_nil none, List.mem_append, not_or] at unbroken
    exact unbroken.2

/-- Every read lies in what is left of the current record, or begins a later record,
or lies behind the first symbol of one. -/
theorem fragments_in_records {fragments : List (List α)} :
    ∀ {current : List α} {records : List (List α)},
      (∀ fragment ∈ fragments, Unbroken stop fragment) →
      (∀ record ∈ records, record.getLast? = some stop) →
      (current = [] ∨ current.getLast? = some stop) →
      fragments.flatten <+: current ++ records.flatten →
      ∀ fragment ∈ fragments, fragment <:+: current ∨
        ∃ record ∈ records, fragment <+: record ∨ fragment <:+: record.tail := by
  induction fragments with
  | nil => exact fun _ _ _ _ fragment none => absurd none List.not_mem_nil
  | cons first fragments ih =>
      intro current records unbroken ends open_ reads
      have unbrokenFirst := unbroken first (List.mem_cons_self ..)
      have unbrokenLater : ∀ fragment ∈ fragments, Unbroken stop fragment :=
        fun fragment member => unbroken fragment (List.mem_cons_of_mem first member)
      have start : first <+: current ++ records.flatten :=
        (List.prefix_append first fragments.flatten).trans reads
      intro fragment member
      rcases open_ with rfl | last
      · cases records with
        | nil =>
            have empty : (first :: fragments).flatten = [] := List.prefix_nil.mp reads
            have gone := (List.flatten_eq_nil_iff.mp empty) fragment member
            rw [gone]
            exact .inl (List.nil_infix)
        | cons record records =>
            have lastRecord := ends record (List.mem_cons_self ..)
            have inside : first <+: record := ends_in_record lastRecord unbrokenFirst start
            rcases List.mem_cons.mp member with rfl | later
            · exact .inr ⟨record, List.mem_cons_self .., .inl inside⟩
            · cases first with
              | nil => exact ih unbrokenLater ends (.inl rfl) reads fragment later
              | cons symbol front =>
                  obtain ⟨rest, split⟩ := inside
                  have readsRest : fragments.flatten <+: rest ++ records.flatten := by
                    rw [List.flatten_cons, List.nil_append, List.flatten_cons, ← split,
                      List.append_assoc, List.prefix_append_right_inj] at reads
                    exact reads
                  have tail : rest <:+ record.tail := by
                    rw [← split]
                    exact List.suffix_append front rest
                  rcases ih unbrokenLater
                    (fun other known => ends other (List.mem_cons_of_mem record known))
                    (ends_of_suffix lastRecord split) readsRest fragment later with
                    here | ⟨other, known, place⟩
                  · exact .inr ⟨record, List.mem_cons_self .., .inr (here.trans tail.isInfix)⟩
                  · exact .inr ⟨other, List.mem_cons_of_mem record known, place⟩
      · have inside : first <+: current := ends_in_record last unbrokenFirst start
        rcases List.mem_cons.mp member with rfl | later
        · exact .inl inside.isInfix
        · obtain ⟨rest, split⟩ := inside
          have readsRest : fragments.flatten <+: rest ++ records.flatten := by
            rw [List.flatten_cons, ← split, List.append_assoc, List.prefix_append_right_inj] at reads
            exact reads
          rcases ih unbrokenLater ends (ends_of_suffix last split) readsRest fragment later with
            here | behind
          · left
            rw [← split]
            exact here.trans (List.suffix_append first rest).isInfix
          · exact .inr behind

end Fragments

end BootEntropy.Lib
