import Mathlib.Algebra.Order.Floor.Ring
import Mathlib.Data.Int.Log
import Mathlib.Data.List.Sort
import Mathlib.Data.Rat.Floor

/-!
# Numbers of Python

Integers have any size. A float is a binary64 number: the nearest one to an exact
result, infinite beyond the largest. Where Python turns an integer or a quotient of
integers into a float that would be infinite, it raises instead. Zeros have no sign
here.
-/

namespace BootEntropy.Lib

set_option autoImplicit false

inductive Raised where
  | valueError
  | overflowError
  | keyError
  | indexError
  deriving DecidableEq, Repr

/-! ## Rounding -/

def roundEven (q : ℚ) : ℤ :=
  let below := ⌊q⌋
  if q - below < 1 / 2 then below
  else if 1 / 2 < q - below then below + 1
  else if below % 2 = 0 then below else below + 1

/-- The exponent of the last of 53 digits, not below that of the least number. -/
def lastPlace (q : ℚ) : ℤ := max (Int.log 2 |q| - 52) (-1074)

def roundDouble (q : ℚ) : ℚ :=
  let unit := (2 : ℚ) ^ lastPlace q
  roundEven (q / unit) * unit

/-- From half a last place above the largest number on, the nearest one is `2^1024`. -/
def FitsDouble (q : ℚ) : Prop := |q| < 2 ^ 1024 - 2 ^ 970

instance (q : ℚ) : Decidable (FitsDouble q) := inferInstanceAs (Decidable (_ < _))

inductive Double where
  | finite (value : ℚ)
  | infinite (negative : Bool)
  | nan
  deriving DecidableEq, Repr

namespace Double

def ofRat (q : ℚ) : Double :=
  if FitsDouble q then .finite (roundDouble q) else .infinite (decide (q < 0))

def add : Double → Double → Double
  | .nan, _ => .nan
  | _, .nan => .nan
  | .infinite first, .infinite second => if first = second then .infinite first else .nan
  | .infinite negative, .finite _ => .infinite negative
  | .finite _, .infinite negative => .infinite negative
  | .finite first, .finite second => ofRat (first + second)

/-- The quotient by a number that is not zero. -/
def div : Double → Double → Double
  | .nan, _ => .nan
  | _, .nan => .nan
  | .infinite _, .infinite _ => .nan
  | .infinite negative, .finite divisor => .infinite (negative != decide (divisor < 0))
  | .finite _, .infinite _ => .finite 0
  | .finite dividend, .finite divisor => ofRat (dividend / divisor)

/-- `if x`: every float but zero. -/
def Truthy (x : Double) : Prop := x ≠ .finite 0

instance (x : Double) : Decidable x.Truthy := inferInstanceAs (Decidable (_ ≠ _))

end Double

/-! ## Results that may be raised -/

section Succeeds

variable {ε α β : Type}

def Succeeds (result : Except ε α) : Prop := ∃ value, result = .ok value

/-- A result that is raised as an overflow unless a condition holds. -/
def unlessOverflow (fits : Prop) [Decidable fits] (value : α) : Except Raised α :=
  if fits then .ok value else .error .overflowError

theorem succeeds_ok (value : α) : Succeeds (.ok value : Except ε α) := ⟨value, rfl⟩

theorem not_succeeds_error (raised : ε) : ¬Succeeds (.error raised : Except ε α) := by
  rintro ⟨value, same⟩
  cases same

theorem unless_overflow_bind (fits : Prop) [Decidable fits] (value : α)
    (next : α → Except Raised β) :
    Succeeds (unlessOverflow fits value >>= next) ↔ fits ∧ Succeeds (next value) := by
  rw [unlessOverflow]
  split_ifs with holds
  · exact (and_iff_right holds).symm
  · exact iff_of_false (not_succeeds_error _) fun both => holds both.1

theorem map_m_unless_overflow (items : List α) (fits : α → Prop) [DecidablePred fits]
    (value : α → β) :
    items.mapM (fun item => unlessOverflow (fits item) (value item)) =
      unlessOverflow (∀ item ∈ items, fits item) (items.map value) := by
  induction items with
  | nil => rfl
  | cons item items ih =>
      rw [List.mapM_cons, ih, unlessOverflow, unlessOverflow, unlessOverflow]
      by_cases here : fits item
      · by_cases rest : ∀ item ∈ items, fits item
        · rw [if_pos here, if_pos rest, if_pos (List.forall_mem_cons.mpr ⟨here, rest⟩)]
          rfl
        · rw [if_pos here, if_neg rest, if_neg fun all => rest (List.forall_mem_cons.mp all).2]
          rfl
      · rw [if_neg here, if_neg fun all => here (List.forall_mem_cons.mp all).1]
        rfl

/-- Where later results do not depend on an earlier one, both have to succeed. -/
theorem succeeds_bind_iff {first : Except ε α} {next : α → Except ε β} {here later : Prop}
    (now : Succeeds first ↔ here) (rest : ∀ value, Succeeds (next value) ↔ later) :
    Succeeds (first >>= next) ↔ here ∧ later := by
  rw [← now]
  cases first with
  | error raised => exact iff_of_false (not_succeeds_error _) fun both => not_succeeds_error _ both.1
  | ok value => exact (rest value).trans (and_iff_right (succeeds_ok value)).symm

theorem succeeds_map_m_iff {α : Type} (items : List α) {next : α → Except ε β} :
    Succeeds (items.mapM next) ↔ ∀ item ∈ items, Succeeds (next item) := by
  induction items with
  | nil => exact iff_of_true (succeeds_ok []) (by simp)
  | cons item items ih =>
      rw [List.mapM_cons, List.forall_mem_cons]
      apply succeeds_bind_iff Iff.rfl
      intro first
      have rest := succeeds_bind_iff ih
        fun others => iff_true_intro (succeeds_ok (ε := ε) (first :: others))
      rw [and_true] at rest
      exact rest

theorem lookup_map_m {κ : Type} [DecidableEq κ] {keys : List κ} {make : κ → Except ε (κ × β)}
    (tagged : ∀ key pair, make key = .ok pair → pair.1 = key) :
    ∀ {table : List (κ × β)}, keys.mapM make = .ok table →
      ∀ key ∈ keys, ∃ value, make key = .ok (key, value) ∧ table.lookup key = some value := by
  induction keys with
  | nil => exact fun _ key member => absurd member List.not_mem_nil
  | cons first keys ih =>
      intro table made key member
      rw [List.mapM_cons] at made
      cases entry : make first with
      | error raised =>
          rw [entry] at made
          cases made
      | ok pair =>
          cases rest : keys.mapM make with
          | error raised =>
              rw [entry, rest] at made
              cases made
          | ok pairs =>
              rw [entry, rest] at made
              cases made
              obtain ⟨name, value⟩ := pair
              have named : name = first := tagged first _ entry
              subst named
              by_cases same : key = name
              · subst same
                exact ⟨value, entry, List.lookup_cons_self⟩
              · obtain ⟨other, made, found⟩ :=
                  ih rest key ((List.mem_cons.mp member).resolve_left same)
                refine ⟨other, made, ?_⟩
                rw [List.lookup_cons, beq_eq_false_iff_ne.mpr same]
                exact found

theorem succeeds_if_iff (wanted : Prop) [Decidable wanted] {result : Except ε α} {here : Prop}
    (inner : Succeeds result ↔ here) (other : α) :
    Succeeds (if wanted then result else .ok other) ↔ (wanted → here) := by
  split_ifs with holds
  · exact inner.trans (imp_iff_right holds).symm
  · exact iff_of_true (succeeds_ok other) fun wanted => absurd wanted holds

end Succeeds

/-! ## Operations that raise -/

/-- `dividend / divisor` of two integers, the second one not zero. With divisor one it
is `float(dividend)`. -/
def divideInts (dividend divisor : ℤ) : Except Raised Double :=
  let quotient : ℚ := dividend / divisor
  unlessOverflow (FitsDouble quotient) (Double.ofRat quotient)

theorem divide_ints_succeeds (dividend divisor : ℤ) :
    Succeeds (divideInts dividend divisor) ↔ FitsDouble (dividend / divisor) := by
  rw [divideInts, unlessOverflow]
  split_ifs with fits
  · exact iff_of_true (succeeds_ok _) fits
  · exact iff_of_false (not_succeeds_error _) fits

/-- A value that `statistics` gives back: an integer where it can. -/
inductive Number where
  | int (value : ℤ)
  | double (value : Double)
  deriving DecidableEq, Repr

def mean (values : List ℤ) : ℚ := values.sum / values.length

/-- `statistics.mean` of integers. -/
def meanInts (values : List ℤ) : Except Raised Number :=
  if (mean values).den = 1 then .ok (.int (mean values).num)
  else do
    let quotient ← unlessOverflow (FitsDouble (mean values)) (Double.ofRat (mean values))
    return .double quotient

/-- The middle two of the sorted values; with an odd number of them both are the same. -/
def middle (values : List ℤ) : ℤ × ℤ :=
  let sorted := values.insertionSort (· ≤ ·)
  (sorted.getD ((values.length - 1) / 2) 0, sorted.getD (values.length / 2) 0)

/-- `statistics.median` of integers. -/
def medianInts (values : List ℤ) : Except Raised Number :=
  if values.length % 2 = 1 then .ok (.int (middle values).2)
  else do
    let half ← divideInts ((middle values).1 + (middle values).2) 2
    return .double half

theorem mean_ints_succeeds (values : List ℤ) :
    Succeeds (meanInts values) ↔ ((mean values).den ≠ 1 → FitsDouble (mean values)) := by
  rw [meanInts]
  split_ifs with whole
  · exact iff_of_true (succeeds_ok _) fun broken => absurd whole broken
  · rw [unless_overflow_bind]
    exact (and_iff_left (succeeds_ok _)).trans (imp_iff_right whole).symm

theorem median_ints_succeeds (values : List ℤ) :
    Succeeds (medianInts values) ↔
      (values.length % 2 ≠ 1 →
        FitsDouble (((middle values).1 + (middle values).2 : ℤ) / (2 : ℤ))) := by
  rw [medianInts]
  split_ifs with odd
  · exact iff_of_true (succeeds_ok _) fun even => absurd odd even
  · rw [divideInts, unless_overflow_bind]
    exact (and_iff_left (succeeds_ok _)).trans (imp_iff_right odd).symm

end BootEntropy.Lib
