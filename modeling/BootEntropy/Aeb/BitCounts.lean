import BootEntropy.Aeb.Trial
import BootEntropy.Lib.Pairs

/-!
# Counted bits

`bit_count` and `bit_transitions` of the firmware and of `analyze_aeb_sources`. Both
read a byte from its highest bit on and carry the bit before across bytes.
-/

namespace BootEntropy.Aeb

open BootEntropy.Lib

set_option autoImplicit false

/-! ## Firmware -/

/-- `__builtin_popcount` of an `unsigned int`. -/
def builtinPopcount (word : UInt32) : Nat := (List.range 32).countP word.toNat.testBit

/-- The loop `for (int bit = 7; bit >= 0; bit--)`. -/
def bitsDown : List Nat := (List.range 8).reverse

namespace Firmware

def bitCount (buf : Bytes) : UInt64 :=
  buf.foldl (fun ones byte => ones + UInt64.ofNat (builtinPopcount byte.toUInt32)) 0

structure BitScan where
  transitions : UInt64
  previous : Int
  deriving DecidableEq, Repr

def scanBit (byte : UInt8) (scan : BitScan) (bit : Nat) : BitScan :=
  let current : Int := (byte.toNat >>> bit &&& 1 : Nat)
  { transitions :=
      if 0 ≤ scan.previous ∧ current ≠ scan.previous then scan.transitions + 1
      else scan.transitions
    previous := current }

def scanByte (scan : BitScan) (byte : UInt8) : BitScan := bitsDown.foldl (scanBit byte) scan

def bitTransitions (buf : Bytes) : UInt64 := (buf.foldl scanByte ⟨0, -1⟩).transitions

end Firmware

/-! ## Analyzer -/

namespace Sources

def bitCount (data : Bytes) : Nat := (data.map Aeb.bitCount).sum

structure BitScan where
  transitions : Nat
  previous : Option Nat
  deriving DecidableEq, Repr

def scanBit (value : UInt8) (scan : BitScan) (bit : Nat) : BitScan :=
  let current := value.toNat >>> bit &&& 1
  { transitions :=
      if scan.previous ≠ none ∧ some current ≠ scan.previous then scan.transitions + 1
      else scan.transitions
    previous := some current }

def scanByte (scan : BitScan) (value : UInt8) : BitScan := bitsDown.foldl (scanBit value) scan

def bitTransitions (data : Bytes) : Nat := (data.foldl scanByte ⟨0, none⟩).transitions

end Sources

/-! ## One bits -/

theorem builtin_popcount_byte (byte : UInt8) : builtinPopcount byte.toUInt32 = bitCount byte := by
  have table : ∀ value < 256, (List.range 32).countP (Nat.testBit value) =
      (List.range 8).countP (Nat.testBit value) := by
    decide +kernel
  rw [builtinPopcount, bitCount, UInt8.toNat_toUInt32]
  exact table byte.toNat byte.toNat_lt

theorem firmware_bit_count_eq (data : Bytes) :
    Firmware.bitCount data = UInt64.ofNat (Sources.bitCount data) := by
  induction data using List.reverseRecOn with
  | nil => rfl
  | append_singleton front byte ih =>
      have more : Sources.bitCount (front ++ [byte]) = Sources.bitCount front + bitCount byte := by
        simp [Sources.bitCount]
      rw [Firmware.bitCount, List.foldl_concat, builtin_popcount_byte, more, UInt64.ofNat_add, ← ih]
      rfl

/-! ## Changes between neighbouring bits -/

def loopBits (data : Bytes) : List Bool := data.flatMap bitsHighFirst

theorem loop_bits_length (data : Bytes) : (loopBits data).length = 8 * data.length := by
  simp [loopBits, bitsHighFirst, List.length_flatMap, Nat.mul_comm]

theorem foldl_bits_down {σ : Type} (step : UInt8 → σ → Nat → σ) (carry : σ → Bool → σ)
    (same : ∀ byte scan bit, step byte scan bit = carry scan (byte.toNat.testBit bit))
    (data : Bytes) (scan : σ) :
    data.foldl (fun scan byte => bitsDown.foldl (step byte) scan) scan =
      (loopBits data).foldl carry scan := by
  rw [loopBits, List.foldl_flatMap]
  congr 1
  funext scan byte
  rw [bitsHighFirst, List.foldl_map]
  congr 1
  funext scan bit
  exact same byte scan bit

/-- The analyzer carries the bit before. -/
def Sources.carryBit (scan : Sources.BitScan) (bit : Bool) : Sources.BitScan where
  transitions :=
    if scan.previous ≠ none ∧ some bit.toNat ≠ scan.previous then scan.transitions + 1
    else scan.transitions
  previous := some bit.toNat

def Firmware.carryBit (scan : Firmware.BitScan) (bit : Bool) : Firmware.BitScan where
  transitions :=
    if 0 ≤ scan.previous ∧ (bit.toNat : Int) ≠ scan.previous then scan.transitions + 1
    else scan.transitions
  previous := bit.toNat

def Sources.scanOf (scan : Option Bool × Nat) : Sources.BitScan := ⟨scan.2, scan.1.map Bool.toNat⟩

def Firmware.scanOf (scan : Option Bool × Nat) : Firmware.BitScan :=
  ⟨UInt64.ofNat scan.2, match scan.1 with | none => -1 | some bit => bit.toNat⟩

theorem sources_carry (scan : Option Bool × Nat) (bit : Bool) :
    Sources.carryBit (Sources.scanOf scan) bit = Sources.scanOf (countChange scan bit) := by
  obtain ⟨previous, count⟩ := scan
  cases previous with
  | none => rfl
  | some previous => cases previous <;> cases bit <;> rfl

theorem firmware_carry (scan : Option Bool × Nat) (bit : Bool) :
    Firmware.carryBit (Firmware.scanOf scan) bit = Firmware.scanOf (countChange scan bit) := by
  obtain ⟨previous, count⟩ := scan
  have more : UInt64.ofNat count + 1 = UInt64.ofNat (count + 1) := (UInt64.ofNat_add ..).symm
  cases previous with
  | none => rfl
  | some previous =>
      have differ : (0 ≤ (previous.toNat : Int) ∧ (bit.toNat : Int) ≠ previous.toNat) ↔
          ∃ other ∈ some previous, bit ≠ other := by
        cases previous <;> cases bit <;> decide
      rw [Firmware.carryBit, Firmware.scanOf, countChange, Firmware.scanOf]
      dsimp only
      rw [more, if_congr differ rfl rfl]
      split_ifs <;> rfl

theorem sources_bit_transitions_eq (data : Bytes) :
    Sources.bitTransitions data = changes (loopBits data) := by
  have bits := foldl_bits_down Sources.scanBit Sources.carryBit
    (fun byte scan bit => by rw [Sources.scanBit, shifted_bit]; rfl) data ⟨0, none⟩
  have scan : (loopBits data).foldl Sources.carryBit (Sources.scanOf (none, 0)) =
      Sources.scanOf ((loopBits data).foldl countChange (none, 0)) :=
    (List.foldl_hom Sources.scanOf fun scan bit => sources_carry scan bit)
  have whole := bits.trans scan
  rw [foldl_count_change] at whole
  exact congrArg Sources.BitScan.transitions whole

theorem firmware_bit_transitions_eq (data : Bytes) :
    Firmware.bitTransitions data = UInt64.ofNat (Sources.bitTransitions data) := by
  have bits := foldl_bits_down Firmware.scanBit Firmware.carryBit
    (fun byte scan bit => by rw [Firmware.scanBit, shifted_bit]; rfl) data ⟨0, -1⟩
  have scan : (loopBits data).foldl Firmware.carryBit (Firmware.scanOf (none, 0)) =
      Firmware.scanOf ((loopBits data).foldl countChange (none, 0)) :=
    (List.foldl_hom Firmware.scanOf fun scan bit => firmware_carry scan bit)
  have whole := bits.trans scan
  rw [foldl_count_change] at whole
  rw [sources_bit_transitions_eq]
  exact congrArg Firmware.BitScan.transitions whole

theorem transitions_from_some (previous : Bool) (bits : List Bool) :
    transitionsFrom (some previous) bits = changes (previous :: bits) := by
  induction bits generalizing previous with
  | nil => rfl
  | cons bit bits ih =>
      have more : changes ([previous] ++ bit :: bits) =
          changes [previous] + changes (bit :: bits) + if previous ≠ bit then 1 else 0 :=
        changes_append rfl rfl
      have single : changes [previous] = 0 := rfl
      rw [List.singleton_append, single, Nat.zero_add] at more
      rw [transitionsFrom, ih, more, Nat.add_comm]
      simp only [ne_comm]

theorem transitions_from_none (bits : List Bool) : transitionsFrom none bits = changes bits := by
  cases bits with
  | nil => rfl
  | cons bit bits => exact transitions_from_some bit bits

theorem firmware_counts_logged (raw : Bytes) :
    Firmware.bitCount raw = UInt64.ofNat (raw.map bitCount).sum ∧
      Firmware.bitTransitions raw = UInt64.ofNat (bitTransitions raw) := by
  refine ⟨firmware_bit_count_eq raw, ?_⟩
  rw [firmware_bit_transitions_eq, sources_bit_transitions_eq, bitTransitions,
    transitions_from_none]
  rfl

/-! ## Both counts -/

theorem sources_bit_count_le (data : Bytes) : Sources.bitCount data ≤ 8 * data.length := by
  have each : ∀ ones ∈ data.map Aeb.bitCount, ones ≤ 8 := by
    intro ones member
    obtain ⟨byte, _, rfl⟩ := List.mem_map.mp member
    exact List.countP_le_length
  have sum := List.sum_le_card_nsmul _ 8 each
  rw [List.length_map, smul_eq_mul] at sum
  rw [Sources.bitCount]
  omega

theorem sources_bit_transitions_le (data : Bytes) :
    Sources.bitTransitions data ≤ 8 * data.length - 1 := by
  rw [sources_bit_transitions_eq, ← loop_bits_length]
  exact changes_le _

theorem sources_bit_transitions_append {u v : Bytes} (front : u ≠ []) (rest : v ≠ []) :
    Sources.bitTransitions (u ++ v) =
      Sources.bitTransitions u + Sources.bitTransitions v +
        if (u.getLast front).toNat.testBit 0 ≠ (v.head rest).toNat.testBit 7 then 1 else 0 := by
  have last : (loopBits u).getLast? = some ((u.getLast front).toNat.testBit 0) := by
    conv_lhs => rw [← List.dropLast_append_getLast front]
    rw [loopBits, List.flatMap_append, List.getLast?_append]
    rfl
  have first : (loopBits v).head? = some ((v.head rest).toNat.testBit 7) := by
    conv_lhs => rw [← List.cons_head_tail rest]
    rfl
  rw [sources_bit_transitions_eq, sources_bit_transitions_eq, sources_bit_transitions_eq,
    ← changes_append last first, loopBits, loopBits, loopBits, List.flatMap_append]

/-- Modulo the width of its counter the firmware counts what the analyzer counts in
every byte string, so both return one number for every length that a `size_t` of the boards
holds. -/
theorem bit_counts_alike :
    (∀ data : Bytes, Firmware.bitCount data = UInt64.ofNat (Sources.bitCount data) ∧
      Firmware.bitTransitions data = UInt64.ofNat (Sources.bitTransitions data)) ∧
    (∀ (len : UInt32) (buf : Block len.toNat),
      (Firmware.bitCount buf.val).toNat = Sources.bitCount buf.val ∧
      (Firmware.bitTransitions buf.val).toNat = Sources.bitTransitions buf.val) ∧
    (∀ data : Bytes, data ≠ [] → Sources.bitTransitions data ≤ 8 * data.length - 1) ∧
    ∀ (u v : Bytes) (front : u ≠ []) (rest : v ≠ []), Sources.bitTransitions (u ++ v) =
      Sources.bitTransitions u + Sources.bitTransitions v +
        if (u.getLast front).toNat.testBit 0 ≠ (v.head rest).toNat.testBit 7 then 1 else 0 := by
  refine ⟨fun data => ⟨firmware_bit_count_eq data, firmware_bit_transitions_eq data⟩, ?_,
    fun data _ => sources_bit_transitions_le data,
    fun u v front rest => sources_bit_transitions_append front rest⟩
  intro len buf
  have size := len.toNat_lt
  have length := buf.property
  have ones := sources_bit_count_le buf.val
  have transitions := sources_bit_transitions_le buf.val
  rw [firmware_bit_count_eq, firmware_bit_transitions_eq, UInt64.toNat_ofNat', UInt64.toNat_ofNat']
  exact ⟨Nat.mod_eq_of_lt (by omega), Nat.mod_eq_of_lt (by omega)⟩

/-- The last bit of the first byte differs from the first bit of the second one. -/
theorem bit_counts_alike_two :
    Sources.bitTransitions [0x81] ≤ 7 ∧
      Sources.bitTransitions ([0x81] ++ [0x0F]) =
        Sources.bitTransitions [0x81] + Sources.bitTransitions [0x0F] + 1 :=
  ⟨bit_counts_alike.2.2.1 [0x81] (by decide),
    bit_counts_alike.2.2.2 [0x81] [0x0F] (List.cons_ne_nil _ _) (List.cons_ne_nil _ _)⟩

end BootEntropy.Aeb
