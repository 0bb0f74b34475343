import Mathlib.Algebra.Group.Nat.Defs
import Mathlib.Data.List.Basic

/-!
# A counter that wraps

The difference of two readings of a counter is the number of its ticks modulo its
period. Divided down to a coarser unit, it is right exactly for less than a period.
-/

namespace BootEntropy.Lib

set_option autoImplicit false

theorem wrapped_div_eq_iff {period unit ticks : Nat} (positive : 0 < unit)
    (small : unit ≤ period) : ticks % period / unit = ticks / unit ↔ ticks < period := by
  constructor
  · intro same
    by_contra long
    have turns : ticks % period + period ≤ ticks := by
      have whole := Nat.mod_add_div ticks period
      have once : 1 ≤ ticks / period := Nat.div_pos (Nat.le_of_not_lt long) 
          (Nat.lt_of_lt_of_le positive small)
      have full := Nat.mul_le_mul_left period once
      omega
    have behind : ticks % period / unit + 1 ≤ ticks / unit := by
      calc ticks % period / unit + 1
          = (ticks % period + unit) / unit := (Nat.add_div_right _ positive).symm
        _ ≤ ticks / unit := Nat.div_le_div_right (by omega)
    omega
  · intro short
    rw [Nat.mod_eq_of_lt short]

theorem reading_difference {start finish : Nat} (later : start ≤ finish) :
    (UInt32.ofNat finish - UInt32.ofNat start).toNat = (finish - start) % 2 ^ 32 := by
  rw [UInt32.toNat_sub, UInt32.toNat_ofNat', UInt32.toNat_ofNat']
  omega

theorem reading_quotient_eq_iff {start finish : Nat} (later : start ≤ finish) {unit : UInt32}
    (positive : 0 < unit.toNat) :
    ((UInt32.ofNat finish - UInt32.ofNat start) / unit).toNat = (finish - start) / unit.toNat ↔
      finish - start < 2 ^ 32 := by
  rw [UInt32.toNat_div, reading_difference later]
  exact wrapped_div_eq_iff positive (Nat.le_of_lt unit.toNat_lt)

/-! ## Intervals -/

def intervals : Nat → List Nat → List (Nat × Nat)
  | _, [] => []
  | previous, now :: rest => (previous, now) :: intervals now rest

theorem intervals_inside {finish : Nat} (times : List Nat) :
    ∀ start, (start :: times ++ [finish]).Pairwise (· ≤ ·) →
      ∀ interval ∈ intervals start times,
        start ≤ interval.1 ∧ interval.1 ≤ interval.2 ∧ interval.2 ≤ finish := by
  induction times with
  | nil => exact fun _ _ _ member => absurd member List.not_mem_nil
  | cons now rest ih =>
      intro start ordered interval member
      obtain ⟨first, onward⟩ := List.pairwise_cons.mp ordered
      have soon : start ≤ now := first now List.mem_cons_self
      rcases List.mem_cons.mp member with head | later
      · rw [head]
        have last : now ≤ finish :=
          (List.pairwise_cons.mp onward).1 finish (List.mem_append_right rest (List.mem_singleton.mpr rfl))
        exact ⟨Nat.le_refl start, soon, last⟩
      · obtain ⟨behind, forward, before⟩ := ih now onward interval later
        exact ⟨Nat.le_trans soon behind, forward, before⟩

end BootEntropy.Lib
