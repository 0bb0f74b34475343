import Mathlib.Data.List.AList
import BootEntropy.Lib.Tokens

/-!
# Records of a log

A record is a line of `key=value` tokens. Records written under two keys make a
dictionary of dictionaries, in which the last write under both keys counts.
-/

namespace BootEntropy.Lib

set_option autoImplicit false

/-! ## Lines of entries -/

abbrev Entries := AList fun _ : Text => Text

/-- The dictionary of the tokens with an `=` in them. -/
def keyValues (trim : Text → Text) (tokens : List Text) : Entries :=
  tokens.foldl (fun fields token =>
    match splitOnce '=' token with
    | none => fields
    | some (key, value) => fields.insert key (trim value)) ∅

/-- The dictionary of a list of entries. A later entry wins. -/
def ofEntries (entries : List (Text × Text)) : Entries :=
  entries.foldl (fun fields entry => fields.insert entry.1 entry.2) ∅

def entryToken (entry : Text × Text) : Text := entry.1 ++ '=' :: entry.2

def entriesText (entries : List (Text × Text)) : Text :=
  entries.flatMap fun entry => ' ' :: entryToken entry

structure PlainEntry (trim : Text → Text) (entry : Text × Text) : Prop where
  key : '=' ∉ entry.1
  keySolid : ∀ c ∈ entry.1, isSpace c = false
  valueSolid : ∀ c ∈ entry.2, isSpace c = false
  trimmed : trim entry.2 = entry.2

theorem PlainEntry.word {trim : Text → Text} {entry : Text × Text} (plain : PlainEntry trim entry) :
    Word (entryToken entry) := by
  constructor
  · intro c member
    rcases List.mem_append.mp member with key | value
    · exact plain.keySolid c key
    · rcases List.mem_cons.mp value with rfl | value
      · decide
      · exact plain.valueSolid c value
  · exact List.append_ne_nil_of_right_ne_nil _ (List.cons_ne_nil _ _)

theorem split_words_spaced {words : List Text} (solid : ∀ word ∈ words, Word word) :
    splitWords (words.flatMap fun word => ' ' :: word) = words := by
  induction words with
  | nil => rfl
  | cons word words ih =>
      have first := solid word (List.mem_cons_self ..)
      have rest := ih fun other member => solid other (List.mem_cons_of_mem word member)
      have blank (text : Text) : splitWords (' ' :: text) = splitWords text :=
        split_words_space [] text (by decide)
      rw [List.flatMap_cons, List.cons_append, blank]
      cases words with
      | nil => rw [List.flatMap_nil, List.append_nil, split_words_word first]
      | cons next words =>
          rw [List.flatMap_cons, List.cons_append, split_words_cons first]
          rw [List.flatMap_cons, List.cons_append, blank] at rest
          rw [rest]

section Entries

variable {trim : Text → Text} {entries : List (Text × Text)}

theorem split_entries_text (plain : ∀ entry ∈ entries, PlainEntry trim entry) {blank : Text}
    (spaces : ∀ c ∈ blank, isSpace c = true) :
    splitWords (strip (entriesText entries ++ blank)) = entries.map entryToken := by
  have words : entriesText entries = (entries.map entryToken).flatMap fun word => ' ' :: word := by
    rw [entriesText, List.flatMap_map]
  rw [split_words_strip, split_words_append_blank _ spaces, words, split_words_spaced]
  intro word member
  obtain ⟨entry, known, rfl⟩ := List.mem_map.mp member
  exact (plain entry known).word

theorem key_values_tokens (plain : ∀ entry ∈ entries, PlainEntry trim entry) :
    keyValues trim (entries.map entryToken) = ofEntries entries := by
  rw [keyValues, List.foldl_map, ofEntries]
  apply List.foldl_ext
  intro fields entry member
  have one := plain entry member
  rw [entryToken, split_once_entry entry.2 one.key]
  dsimp only
  rw [one.trimmed]

theorem lookup_entries_other {key : Text} (other : ∀ entry ∈ entries, entry.1 ≠ key)
    (fields : Entries) :
    (entries.foldl (fun fields entry => fields.insert entry.1 entry.2) fields).lookup key =
      fields.lookup key := by
  induction entries generalizing fields with
  | nil => rfl
  | cons entry entries ih =>
      rw [List.foldl_cons, ih fun later member => other later (List.mem_cons_of_mem entry member)]
      exact AList.lookup_insert_ne (other entry (List.mem_cons_self ..)).symm

theorem lookup_entries (before : List (Text × Text)) {after : List (Text × Text)} {key value : Text}
    (last : ∀ entry ∈ after, entry.1 ≠ key) :
    (ofEntries (before ++ (key, value) :: after)).lookup key = some value := by
  rw [ofEntries, List.foldl_append, List.foldl_cons, lookup_entries_other last]
  exact AList.lookup_insert _

theorem lookup_of_entries (distinct : (entries.map Prod.fst).Nodup) (key : Text) :
    (ofEntries entries).lookup key = entries.lookup key := by
  cases found : entries.lookup key with
  | none =>
      have other : ∀ entry ∈ entries, entry.1 ≠ key := by
        intro entry member same
        have absent := List.lookup_eq_none_iff.mp found entry member
        rw [same] at absent
        exact bne_iff_ne.mp absent rfl
      rw [ofEntries, lookup_entries_other other]
      rfl
  | some value =>
      obtain ⟨before, after, rfl, _⟩ := List.lookup_eq_some_iff.mp found
      apply lookup_entries before
      intro entry member same
      rw [List.map_append, List.map_cons] at distinct
      have later := (List.nodup_cons.mp (List.nodup_append.mp distinct).2.1).1
      exact later (List.mem_map.mpr ⟨entry, member, same⟩)

theorem entries_text_length (entries : List (Text × Text)) :
    (entriesText entries).length =
      (entries.map fun entry => entry.1.length + entry.2.length + 2).sum := by
  induction entries with
  | nil => rfl
  | cons entry entries ih =>
      rw [entriesText, List.flatMap_cons, List.length_append, ← entriesText, ih, List.map_cons,
        List.sum_cons, entryToken, List.length_cons, List.length_append, List.length_cons]
      omega

end Entries

/-! ## The last write -/

section LastWrite

variable {κ ι ν : Type} [DecidableEq κ] [DecidableEq ι]

def lastWrite (writes : List (κ × ν)) (key : κ) : Option ν := writes.reverse.lookup key

theorem last_write_snoc (writes : List (κ × ν)) (written : κ × ν) (key : κ) :
    lastWrite (writes ++ [written]) key =
      if key = written.1 then some written.2 else lastWrite writes key := by
  obtain ⟨own, value⟩ := written
  rw [lastWrite, List.reverse_append, List.reverse_singleton, List.singleton_append, List.lookup_cons]
  by_cases same : key = own
  · rw [if_pos same, beq_iff_eq.mpr same]
  · rw [if_neg same, beq_eq_false_iff_ne.mpr same]
    rfl

theorem mem_of_last_write {writes : List (κ × ν)} {key : κ} {value : ν}
    (written : lastWrite writes key = some value) : (key, value) ∈ writes := by
  induction writes using List.reverseRecOn with
  | nil => cases written
  | append_singleton writes last ih =>
      rw [last_write_snoc] at written
      split_ifs at written with same
      · rw [← Option.some.inj written, same]
        exact List.mem_append_right _ (List.mem_singleton_self last)
      · exact List.mem_append_left _ (ih written)

theorem last_write_ne_none {writes : List (κ × ν)} {key : κ} {value : ν}
    (member : (key, value) ∈ writes) : lastWrite writes key ≠ none := by
  induction writes using List.reverseRecOn with
  | nil => cases member
  | append_singleton writes last ih =>
      rw [last_write_snoc]
      split_ifs with same
      · exact Option.some_ne_none _
      · rcases List.mem_append.mp member with before | here
        · exact ih before
        · exact absurd (congrArg Prod.fst (List.mem_singleton.mp here)) same

theorem last_write_map {μ τ : Type} [DecidableEq μ] {rename : κ → μ}
    (injective : Function.Injective rename) (render : κ → ν → τ) (writes : List (κ × ν)) (key : κ) :
    lastWrite (writes.map fun write => (rename write.1, render write.1 write.2)) (rename key) =
      (lastWrite writes key).map (render key) := by
  induction writes using List.reverseRecOn with
  | nil => rfl
  | append_singleton writes last ih =>
      rw [List.map_append, List.map_singleton, last_write_snoc, last_write_snoc, ih]
      by_cases same : key = last.1
      · rw [if_pos same, if_pos (congrArg rename same), same]
        rfl
      · rw [if_neg same, if_neg fun renamed => same (injective renamed)]

abbrev Nested (κ ι ν : Type) := AList fun _ : κ => AList fun _ : ι => ν

def Nested.write (table : Nested κ ι ν) (written : (κ × ι) × ν) : Nested κ ι ν :=
  table.insert written.1.1
    (((table.lookup written.1.1).getD ∅).insert written.1.2 written.2)

def nest (writes : List ((κ × ι) × ν)) : Nested κ ι ν := writes.foldl Nested.write ∅

theorem nest_snoc (writes : List ((κ × ι) × ν)) (written : (κ × ι) × ν) :
    nest (writes ++ [written]) = (nest writes).write written := by
  rw [nest, List.foldl_append]
  rfl

theorem nest_lookup (writes : List ((κ × ι) × ν)) (key : κ) (inner : ι) :
    (((nest writes).lookup key).getD ∅).lookup inner = lastWrite writes (key, inner) := by
  induction writes using List.reverseRecOn with
  | nil => rfl
  | append_singleton writes written ih =>
      obtain ⟨⟨outer, place⟩, value⟩ := written
      rw [nest_snoc, Nested.write, last_write_snoc]
      by_cases same : key = outer
      · rw [same] at ih ⊢
        rw [AList.lookup_insert, Option.getD_some]
        by_cases here : inner = place
        · rw [here, AList.lookup_insert, if_pos rfl]
        · rw [AList.lookup_insert_ne here, ih, if_neg fun both => here (Prod.mk.inj both).2]
      · rw [AList.lookup_insert_ne same, ih, if_neg fun both => same (Prod.mk.inj both).1]

theorem nest_known (writes : List ((κ × ι) × ν)) (key : κ) :
    (nest writes).lookup key ≠ none ↔ ∃ write ∈ writes, write.1.1 = key := by
  induction writes using List.reverseRecOn with
  | nil => simp [nest]
  | append_singleton writes written ih =>
      rw [nest_snoc, Nested.write]
      by_cases same : key = written.1.1
      · rw [same, AList.lookup_insert]
        exact ⟨fun _ => ⟨written, List.mem_append_right _ (List.mem_singleton_self written), rfl⟩,
          fun _ => Option.some_ne_none _⟩
      · rw [AList.lookup_insert_ne same, ih]
        constructor
        · rintro ⟨write, member, found⟩
          exact ⟨write, List.mem_append_left _ member, found⟩
        · rintro ⟨write, member, found⟩
          rcases List.mem_append.mp member with before | here
          · exact ⟨write, before, found⟩
          · rw [List.mem_singleton.mp here] at found
            exact absurd found.symm same

end LastWrite

end BootEntropy.Lib
