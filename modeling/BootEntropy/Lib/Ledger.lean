import Mathlib.Data.List.Nodup
import Mathlib.Logic.Function.Basic

/-!
# A ledger of issued numbers

Numbers are issued in order, each to one key, and closed once. A key may be opened
again before its number is closed; the number it held is then lost.
-/

namespace BootEntropy.Lib

set_option autoImplicit false

variable {κ : Type}

structure Ledger (κ : Type) where
  pending : κ → Option Nat
  next : Nat
  closed : List Nat

structure Ledger.Sound (ledger : Ledger κ) : Prop where
  pendingIssued : ∀ key number, ledger.pending key = some number → number < ledger.next
  pendingDistinct : ∀ key other number, ledger.pending key = some number →
    ledger.pending other = some number → key = other
  closedIssued : ∀ number ∈ ledger.closed, number < ledger.next
  closedGone : ∀ number ∈ ledger.closed, ∀ key, ledger.pending key ≠ some number
  closedDistinct : ledger.closed.Nodup

structure Ledger.Balanced (ledger : Ledger κ) : Prop where
  sound : ledger.Sound
  found : ∀ number < ledger.next, number ∈ ledger.closed ∨ ∃ key, ledger.pending key = some number

theorem Ledger.Balanced.issued_iff {ledger : Ledger κ} (balanced : ledger.Balanced) (number : Nat) :
    number < ledger.next ↔
      number ∈ ledger.closed ∨ ∃ key, ledger.pending key = some number := by
  constructor
  · exact balanced.found number
  · rintro (closed | ⟨key, held⟩)
    · exact balanced.sound.closedIssued number closed
    · exact balanced.sound.pendingIssued key number held

theorem Ledger.Balanced.not_skip {ledger : Ledger κ} (balanced : ledger.Balanced) :
    ¬Ledger.Balanced { ledger with next := ledger.next + 1 } := by
  intro after
  exact Nat.lt_irrefl ledger.next
    ((balanced.issued_iff ledger.next).mpr (after.found ledger.next (Nat.lt_succ_self _)))

variable [DecidableEq κ]

inductive Ledger.Step : Ledger κ → Ledger κ → Prop where
  | keep (ledger : Ledger κ) : Step ledger ledger
  | skip (ledger : Ledger κ) : Step ledger { ledger with next := ledger.next + 1 }
  | opening (ledger : Ledger κ) (key : κ) :
      Step ledger ⟨Function.update ledger.pending key (some ledger.next), ledger.next + 1,
        ledger.closed⟩
  | closing (ledger : Ledger κ) {key : κ} {number : Nat} (held : ledger.pending key = some number) :
      Step ledger ⟨Function.update ledger.pending key none, ledger.next, ledger.closed ++ [number]⟩

theorem pending_update {ledger : Ledger κ} {key other : κ} {entry : Option Nat} {number : Nat}
    (held : Function.update ledger.pending key entry other = some number) :
    (other = key ∧ entry = some number) ∨ (other ≠ key ∧ ledger.pending other = some number) := by
  by_cases same : other = key
  · subst same
    rw [Function.update_self] at held
    exact .inl ⟨rfl, held⟩
  · rw [Function.update_of_ne same] at held
    exact .inr ⟨same, held⟩

theorem Ledger.Sound.issue {ledger : Ledger κ} (sound : ledger.Sound) (key : κ) :
    Ledger.Sound ⟨Function.update ledger.pending key (some ledger.next), ledger.next + 1,
      ledger.closed⟩ := by
  constructor
  · intro other number held
    rcases pending_update held with ⟨_, new⟩ | ⟨_, old⟩
    · have := Option.some.inj new
      dsimp only
      omega
    · exact Nat.lt_succ_of_lt (sound.pendingIssued other number old)
  · intro left right number leftHeld rightHeld
    rcases pending_update leftHeld with ⟨leftSame, leftNew⟩ | ⟨_, leftOld⟩
    · rcases pending_update rightHeld with ⟨rightSame, _⟩ | ⟨_, rightOld⟩
      · rw [leftSame, rightSame]
      · have issued := sound.pendingIssued right number rightOld
        have := Option.some.inj leftNew
        omega
    · rcases pending_update rightHeld with ⟨_, rightNew⟩ | ⟨_, rightOld⟩
      · have issued := sound.pendingIssued left number leftOld
        have := Option.some.inj rightNew
        omega
      · exact sound.pendingDistinct left right number leftOld rightOld
  · intro number member
    exact Nat.lt_succ_of_lt (sound.closedIssued number member)
  · intro number member other held
    have issued := sound.closedIssued number member
    rcases pending_update held with ⟨_, new⟩ | ⟨_, old⟩
    · have := Option.some.inj new
      omega
    · exact sound.closedGone number member other old
  · exact sound.closedDistinct

theorem Ledger.Sound.settle {ledger : Ledger κ} (sound : ledger.Sound) {key : κ} {number : Nat}
    (held : ledger.pending key = some number) :
    Ledger.Sound ⟨Function.update ledger.pending key none, ledger.next,
      ledger.closed ++ [number]⟩ := by
  have still {other : κ} {entry : Nat}
      (kept : Function.update ledger.pending key none other = some entry) :
      other ≠ key ∧ ledger.pending other = some entry := by
    rcases pending_update kept with ⟨_, gone⟩ | old
    · cases gone
    · exact old
  constructor
  · intro other entry kept
    exact sound.pendingIssued other entry (still kept).2
  · intro left right entry leftKept rightKept
    exact sound.pendingDistinct left right entry (still leftKept).2 (still rightKept).2
  · intro entry member
    rcases List.mem_append.mp member with old | new
    · exact sound.closedIssued entry old
    · rw [List.mem_singleton.mp new]
      exact sound.pendingIssued key number held
  · intro entry member other kept
    rcases List.mem_append.mp member with old | new
    · exact sound.closedGone entry old other (still kept).2
    · rw [List.mem_singleton.mp new] at kept
      exact (still kept).1 (sound.pendingDistinct other key number (still kept).2 held)
  · apply List.Nodup.append sound.closedDistinct (List.nodup_singleton number)
    rw [List.disjoint_singleton]
    intro member
    exact sound.closedGone number member key held

theorem Ledger.Step.sound {before after : Ledger κ} (step : Ledger.Step before after)
    (sound : before.Sound) : after.Sound := by
  cases step with
  | keep => exact sound
  | skip =>
      constructor
      · intro key number held
        exact Nat.lt_succ_of_lt (sound.pendingIssued key number held)
      · exact sound.pendingDistinct
      · intro number member
        exact Nat.lt_succ_of_lt (sound.closedIssued number member)
      · exact sound.closedGone
      · exact sound.closedDistinct
  | opening key => exact sound.issue key
  | closing held => exact sound.settle held

theorem Ledger.Balanced.opening_iff {ledger : Ledger κ} (balanced : ledger.Balanced) (key : κ) :
    Ledger.Balanced ⟨Function.update ledger.pending key (some ledger.next), ledger.next + 1,
        ledger.closed⟩ ↔ ledger.pending key = none := by
  constructor
  · intro after
    by_contra occupied
    obtain ⟨number, held⟩ := Option.ne_none_iff_exists'.mp occupied
    have issued := balanced.sound.pendingIssued key number held
    rcases after.found number (Nat.lt_succ_of_lt issued) with closed | ⟨other, pending⟩
    · exact balanced.sound.closedGone number closed key held
    · rcases pending_update pending with ⟨_, new⟩ | ⟨different, old⟩
      · exact absurd (Option.some.inj new) (Nat.ne_of_gt issued)
      · exact different (balanced.sound.pendingDistinct other key number old held)
  · intro vacant
    refine ⟨balanced.sound.issue key, ?_⟩
    intro number below
    dsimp only at below ⊢
    by_cases last : number = ledger.next
    · right
      refine ⟨key, ?_⟩
      rw [Function.update_self, last]
    · rcases balanced.found number (by omega) with closed | ⟨other, held⟩
      · exact .inl closed
      · right
        refine ⟨other, ?_⟩
        rw [Function.update_of_ne, held]
        rintro rfl
        rw [vacant] at held
        cases held

theorem Ledger.Balanced.settle {ledger : Ledger κ} (balanced : ledger.Balanced) {key : κ}
    {number : Nat} (held : ledger.pending key = some number) :
    Ledger.Balanced ⟨Function.update ledger.pending key none, ledger.next,
      ledger.closed ++ [number]⟩ := by
  refine ⟨balanced.sound.settle held, ?_⟩
  intro entry below
  rcases balanced.found entry below with closed | ⟨other, kept⟩
  · exact .inl (List.mem_append_left _ closed)
  · by_cases same : other = key
    · left
      rw [same, held] at kept
      rw [Option.some.inj kept]
      exact List.mem_append_right _ (List.mem_singleton_self entry)
    · right
      exact ⟨other, (Function.update_of_ne same _ _).trans kept⟩

end BootEntropy.Lib
