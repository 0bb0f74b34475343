import BootEntropy.Lib.Bytes

/-!
# Checked memory

Arrays whose size is part of their type, with loads and stores that fail outside the
bounds, and arithmetic that fails where the language or the claim at hand gives it no
meaning. A computation that ends in `.ok` has done none of these.
-/

namespace BootEntropy.Lib

set_option autoImplicit false

inductive Fault where
  | outOfBounds
  | divisionByZero
  | wrapped
  deriving DecidableEq, Repr

abbrev Checked := Except Fault

@[simp] theorem ok_bind {ε α β : Type} (value : α) (next : α → Except ε β) :
    (Except.ok value >>= next) = next value := rfl

@[simp] theorem map_error_ok {ε δ α : Type} (value : α) (raise : ε → δ) :
    (Except.ok value : Except ε α).mapError raise = .ok value := rfl

theorem bind_eq_ok {ε α β : Type} {first : Except ε α} {next : α → Except ε β} {value : β}
    (run : (first >>= next) = .ok value) : ∃ middle, first = .ok middle ∧ next middle = .ok value := by
  cases first with
  | error stopped => cases run
  | ok middle => exact ⟨middle, rfl, run⟩

theorem map_error_eq_ok {ε δ α : Type} {first : Except ε α} {raise : ε → δ} {value : α}
    (run : first.mapError raise = .ok value) : first = .ok value := by
  cases first with
  | error stopped => cases run
  | ok middle =>
      cases run
      rfl

section Traversal

variable {ε α β : Type} {next : α → Except ε β} {items : List α}

theorem map_m_ok {value : α → β} (each : ∀ item ∈ items, next item = .ok (value item)) :
    items.mapM next = .ok (items.map value) := by
  induction items with
  | nil => rfl
  | cons item rest ih =>
      rw [List.mapM_cons, each item (List.mem_cons_self ..),
        ih fun other member => each other (List.mem_cons_of_mem _ member)]
      rfl

theorem map_m_error {item : α} (member : item ∈ items)
    (fails : ∃ error, next item = .error error) : ∃ error, items.mapM next = .error error := by
  induction items with
  | nil => cases member
  | cons head rest ih =>
      rw [List.mapM_cons]
      cases first : next head with
      | error error => exact ⟨error, rfl⟩
      | ok value =>
          rcases List.mem_cons.mp member with rfl | later
          · obtain ⟨error, failed⟩ := fails
            rw [first] at failed
            cases failed
          · obtain ⟨error, failed⟩ := ih later
            rw [failed]
            exact ⟨error, rfl⟩

end Traversal

/-- An array. `Block` is one of bytes. -/
abbrev Cells (α : Type) (count : Nat) := { cells : List α // cells.length = count }

/-! ## Arrays -/

section Cells

variable {α : Type} {count : Nat}

def Cells.fill (count : Nat) (value : α) : Cells α count :=
  ⟨List.replicate count value, List.length_replicate⟩

theorem overwrite_length {cells source : List α} {off : Nat}
    (fits : off + source.length ≤ cells.length) :
    (cells.take off ++ (source ++ cells.drop (off + source.length))).length = cells.length := by
  rw [List.length_append, List.length_append, List.length_take, List.length_drop]
  omega

def Cells.written (cells : Cells α count) (off : Nat) (source : List α)
    (fits : off + source.length ≤ count) : Cells α count :=
  ⟨cells.val.take off ++ (source ++ cells.val.drop (off + source.length)),
    (overwrite_length (by rw [cells.property]; exact fits)).trans cells.property⟩

def Cells.write (cells : Cells α count) (off : Nat) (source : List α) : Checked (Cells α count) :=
  if fits : off + source.length ≤ count then .ok (cells.written off source fits)
  else .error .outOfBounds

def Cells.read (cells : Cells α count) (off len : Nat) : Checked (List α) :=
  if off + len ≤ count then .ok ((cells.val.drop off).take len) else .error .outOfBounds

def Cells.load (cells : Cells α count) (place : Nat) : Checked α :=
  match cells.val[place]? with
  | some value => .ok value
  | none => .error .outOfBounds

def Cells.store (cells : Cells α count) (place : Nat) (value : α) : Checked (Cells α count) :=
  cells.write place [value]

variable (cells : Cells α count) {off len : Nat} {source : List α}

theorem Cells.load_ok {place : Nat} {value : α} (here : cells.val[place]? = some value) :
    cells.load place = .ok value := by
  rw [load, here]

theorem Cells.write_ok (fits : off + source.length ≤ count) :
    cells.write off source = .ok (cells.written off source fits) := dif_pos fits

theorem Cells.write_fault (beyond : count < off + source.length) :
    cells.write off source = .error .outOfBounds := dif_neg (Nat.not_le_of_lt beyond)

theorem Cells.read_ok (fits : off + len ≤ count) :
    cells.read off len = .ok ((cells.val.drop off).take len) := if_pos fits

theorem Cells.written_val (fits : off + source.length ≤ count) :
    (cells.written off source fits).val =
      cells.val.take off ++ (source ++ cells.val.drop (off + source.length)) := rfl

/-- A store behind `off` keeps what lies in front and extends it. -/
theorem Cells.take_written (fits : off + source.length ≤ count) :
    (cells.written off source fits).val.take (off + source.length) =
      cells.val.take off ++ source := by
  have front : (cells.val.take off).length = off := by
    rw [List.length_take, cells.property]
    omega
  rw [written_val, ← List.append_assoc, List.take_left']
  rw [List.length_append, front]

theorem Cells.take_written_part (fits : off + source.length ≤ count) {part : Nat}
    (short : part ≤ source.length) :
    (cells.written off source fits).val.take (off + part) =
      cells.val.take off ++ source.take part := by
  have front : (cells.val.take off).length = off := by
    rw [List.length_take, cells.property]
    omega
  rw [written_val, List.take_append, front, Nat.add_sub_cancel_left, List.take_take,
    Nat.min_eq_right (Nat.le_add_right off part), List.take_append_of_le_length short]

theorem Cells.store_ok {front rest : List α} (split : cells.val = front ++ rest)
    (place : front.length = off) (inside : off < count) (value : α) :
    ∃ after, cells.store off value = .ok after ∧ after.val = front ++ value :: rest.drop 1 := by
  refine ⟨_, cells.write_ok inside, ?_⟩
  rw [written_val, split, List.take_left' place, ← place, ← List.drop_drop, List.drop_left]
  rfl

end Cells

/-! ## Arithmetic -/

def checkedDiv (dividend divisor : Nat) : Checked Nat :=
  if divisor = 0 then .error .divisionByZero else .ok (dividend / divisor)

theorem checked_div_ok {dividend divisor : Nat} (positive : 0 < divisor) :
    checkedDiv dividend divisor = .ok (dividend / divisor) := if_neg (Nat.ne_of_gt positive)

/-- Unsigned arithmetic of a width that must not wrap. -/
def checkedAdd (width left right : Nat) : Checked Nat :=
  if left + right < 2 ^ width then .ok (left + right) else .error .wrapped

def checkedSub (left right : Nat) : Checked Nat :=
  if right ≤ left then .ok (left - right) else .error .wrapped

def checkedMul (width left right : Nat) : Checked Nat :=
  if left * right < 2 ^ width then .ok (left * right) else .error .wrapped

/-! ## Early returns -/

/-- How a function ends before its last statement. -/
inductive Halt where
  | fault (fault : Fault)
  | returned (code : Int)
  deriving DecidableEq, Repr

structure Filled (count : Nat) where
  ret : Int
  output : Block count

def Filled.result {count : Nat} (call : Filled count) : Except Halt (Block count) :=
  if call.ret ≠ 0 then .error (.returned call.ret) else .ok call.output

theorem Filled.result_ok {count : Nat} {call : Filled count} (succeeds : call.ret = 0) :
    call.result = .ok call.output := if_neg (not_not_intro succeeds)

end BootEntropy.Lib
