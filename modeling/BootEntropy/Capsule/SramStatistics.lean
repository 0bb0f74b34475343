import BootEntropy.Capsule.BootRuns
import BootEntropy.Lib.Pairs
import Mathlib.Algebra.Order.Field.Rat
import Mathlib.Tactic.FieldSimp
import Mathlib.Tactic.NormNum

/-!
# Statistics of the startup region

`capture_sram` counts the one bits of the region and the bit positions in which
neighbouring bytes differ, eight of them for each pair of bytes. The parser divides
both counts by constants of its own.
-/

namespace BootEntropy.Capsule

open BootEntropy.Lib BootEntropy.BootLog

set_option autoImplicit false

/-! ## Counting -/

/-- The loop of `popcount8`. A byte is zero after eight shifts. -/
def popcountFrom : Nat → UInt8 → UInt8 → UInt8
  | 0, c, _ => c
  | turns + 1, c, v => if v ≠ 0 then popcountFrom turns (c + (v &&& 1)) (v >>> 1) else c

def popcount8 (v : UInt8) : UInt8 := popcountFrom 8 0 v

structure SramScan where
  prev : UInt8
  havePrev : Bool
  sramOnes : UInt32
  sramTransitions : UInt32
  deriving DecidableEq, Repr

def scanByte (scan : SramScan) (b : UInt8) : SramScan where
  prev := b
  havePrev := true
  sramOnes := scan.sramOnes + (popcount8 b).toUInt32
  sramTransitions :=
    if scan.havePrev then scan.sramTransitions + (popcount8 (scan.prev ^^^ b)).toUInt32
    else scan.sramTransitions

/-- The counts of `capture_sram`. -/
def captureSram (region : Bytes) : SramScan := region.foldl scanByte ⟨0, false, 0, 0⟩

/-! ## Bits -/

def bits (b : UInt8) : List Bool := (List.range 8).map b.toNat.testBit

def regionBits (region : Bytes) : List Bool := region.flatMap bits

/-- The bit positions that are compared, lane by lane between neighbouring bytes. -/
def comparedBits (region : Bytes) : List (Bool × Bool) :=
  (adjacent region).flatMap fun pair => (bits pair.1).zip (bits pair.2)

def onesOf (region : Bytes) : Nat := (regionBits region).count true

def differences (region : Bytes) : Nat := (comparedBits region).countP fun pair => pair.1 ≠ pair.2

theorem popcount8_eq (v : UInt8) :
    (popcount8 v).toNat = (List.range 8).countP fun lane => v.toNat.testBit lane := by
  have table : ∀ value < 256, (popcount8 (UInt8.ofNat value)).toNat =
      (List.range 8).countP fun lane => value.testBit lane := by
    decide +kernel
  have here := table v.toNat v.toNat_lt
  rwa [UInt8.ofNat_toNat] at here

theorem popcount8_bits (b : UInt8) : (popcount8 b).toNat = (bits b).count true := by
  rw [popcount8_eq, bits, List.count, List.countP_map]
  congr 1
  funext lane
  simp

theorem popcount8_xor (x y : UInt8) :
    (popcount8 (x ^^^ y)).toNat = ((bits x).zip (bits y)).countP fun pair => pair.1 ≠ pair.2 := by
  rw [popcount8_eq, bits, bits, List.zip_map', List.countP_map]
  congr 1
  funext lane
  rw [UInt8.toNat_xor, Nat.testBit_xor]
  show (x.toNat.testBit lane ^^ y.toNat.testBit lane) =
    decide (x.toNat.testBit lane ≠ y.toNat.testBit lane)
  cases x.toNat.testBit lane <;> cases y.toNat.testBit lane <;> rfl

theorem bits_length (b : UInt8) : (bits b).length = 8 := by simp [bits]

theorem region_bits_length (region : Bytes) : (regionBits region).length = 8 * region.length := by
  simp [regionBits, List.length_flatMap, bits_length, Nat.mul_comm]

theorem compared_bits_length (region : Bytes) :
    (comparedBits region).length = 8 * (region.length - 1) := by
  simp [comparedBits, List.length_flatMap, List.length_zip, bits_length, adjacent_length,
    Nat.mul_comm]

theorem ones_snoc (front : Bytes) (b : UInt8) :
    onesOf (front ++ [b]) = onesOf front + (popcount8 b).toNat := by
  rw [popcount8_bits]
  simp [onesOf, regionBits, List.count_append]

theorem differences_snoc (front : Bytes) (b : UInt8) :
    differences (front ++ [b]) = differences front +
      ((front.getLast?.toList.map fun prev => (popcount8 (prev ^^^ b)).toNat).sum) := by
  have split : adjacent (front ++ [b]) = adjacent front ++ across front [b] := by
    have whole := adjacent_append front [b]
    rwa [show adjacent [b] = [] from rfl, List.append_nil] at whole
  rw [differences, comparedBits, split, List.flatMap_append, List.countP_append]
  cases last : front.getLast? with
  | none => simp [differences, comparedBits, across, last]
  | some prev => simp [differences, comparedBits, across, last, popcount8_xor]

/-- The loop holds the last byte and both counts, in 32 bits. -/
theorem capture_sram_eq (region : Bytes) :
    (if (captureSram region).havePrev then some (captureSram region).prev else none) =
        region.getLast? ∧
      (captureSram region).sramOnes = UInt32.ofNat (onesOf region) ∧
      (captureSram region).sramTransitions = UInt32.ofNat (differences region) := by
  have widen (count : UInt8) (total : Nat) :
      UInt32.ofNat total + count.toUInt32 = UInt32.ofNat (total + count.toNat) := by
    rw [UInt32.ofNat_add]
    congr 1
    exact UInt32.toNat_inj.mp (by simp)
  induction region using List.reverseRecOn with
  | nil => exact ⟨rfl, rfl, rfl⟩
  | append_singleton front b ih =>
      obtain ⟨last, ones, transitions⟩ := ih
      have step : captureSram (front ++ [b]) = scanByte (captureSram front) b := by
        rw [captureSram, List.foldl_append]
        rfl
      rw [step, ones_snoc, differences_snoc, ← last]
      refine ⟨(List.getLast?_concat ..).symm, ?_, ?_⟩
      · rw [← widen, ← ones]
        rfl
      · rw [scanByte]
        cases known : (captureSram front).havePrev with
        | false =>
            rw [if_neg Bool.false_ne_true, if_neg Bool.false_ne_true]
            exact transitions
        | true =>
            rw [if_pos rfl, if_pos rfl, transitions, widen, Option.toList_some, List.map_singleton,
              List.sum_singleton]

theorem differences_le (region : Bytes) : differences region ≤ 8 * (region.length - 1) := by
  rw [← compared_bits_length]
  exact List.countP_le_length

theorem ones_le (region : Bytes) : onesOf region ≤ 8 * region.length := by
  rw [← region_bits_length]
  exact List.count_le_length

/-! ## The rates of the parser -/

def rate : Option FieldValue → Option ℚ
  | some (.quotient dividend divisor) => some (dividend / divisor)
  | _ => none

/-- The run holds what the firmware printed of the counts. -/
structure Printed (scan : SramScan) (run : BootRun) : Prop where
  ones : run "sram_ones".toList = some (.text (decimal scan.sramOnes.toNat))
  transitions : run "sram_transitions".toList = some (.text (decimal scan.sramTransitions.toNat))

theorem set_quotient_printed {run : BootRun} {source : String} {count : UInt32}
    (printed : run source.toList = some (.text (decimal count.toNat))) (key : String)
    {divisor : Nat} (positive : 0 < divisor) :
    run.setQuotient source key divisor = some (run.set key.toList (.quotient count.toNat divisor)) := by
  have read : fieldInt (run source.toList) = some (count.toNat : Int) := by
    rw [printed]
    exact parse_literal_decimal (decimal_short (count.toNat_lt.trans (by decide)))
  have fits : (count.toNat : Int).natAbs < (2 ^ 1024 - 2 ^ 970) * divisor :=
    calc
      (count.toNat : Int).natAbs < 2 ^ 32 := count.toNat_lt
      _ ≤ 2 ^ 1024 - 2 ^ 970 := pow_le_pow_sub (by decide) (by decide)
      _ ≤ (2 ^ 1024 - 2 ^ 970) * divisor := Nat.le_mul_of_pos_right _ positive
  rw [BootRun.setQuotient, read]
  dsimp only
  rw [trueDivide, if_pos fits]
  rfl

theorem set_quotient_other {run final : BootRun} {source key : String} {divisor : Nat}
    (set : run.setQuotient source key divisor = some final) {other : Text}
    (different : other ≠ key.toList) : final other = run other := by
  rw [BootRun.setQuotient] at set
  split at set
  · rw [Option.map_eq_some_iff] at set
    obtain ⟨value, -, rfl⟩ := set
    exact if_neg different
  · rw [Option.some.inj set]

theorem finalize_rates {scan : SramScan} {run final : BootRun} (printed : Printed scan run)
    (finalized : finalizeRun run = some final) :
    rate (final "sram_one_rate".toList) = some ((scan.sramOnes.toNat : ℚ) / 32768) ∧
      rate (final "sram_transition_rate".toList) =
        some ((scan.sramTransitions.toNat : ℚ) / 32767) := by
  have ones := set_quotient_printed (set_defaults_kept printed.ones) "sram_one_rate"
    (show 0 < 4096 * 8 by decide)
  have kept : (setDefaults run).set "sram_one_rate".toList
      (.quotient scan.sramOnes.toNat (4096 * 8)) "sram_transitions".toList =
        some (.text (decimal scan.sramTransitions.toNat)) := by
    rw [BootRun.set, if_neg (by decide)]
    exact set_defaults_kept printed.transitions
  have transitions := set_quotient_printed kept "sram_transition_rate"
    (show 0 < 4096 * 8 - 1 by decide)
  rw [finalizeRun, ones] at finalized
  dsimp only [Option.bind_eq_bind, Option.bind_some] at finalized
  rw [transitions] at finalized
  dsimp only [Option.bind_some] at finalized
  have one := @set_quotient_other _ _ _ _ _ finalized "sram_one_rate".toList (by decide)
  have transition := @set_quotient_other _ _ _ _ _ finalized "sram_transition_rate".toList (by decide)
  rw [one, transition]
  constructor
  · rw [BootRun.set, if_neg (by decide), BootRun.set, if_pos rfl]
    simp [rate]
  · rw [BootRun.set, if_pos rfl]
    simp [rate]

theorem finalized_run (scan : SramScan) : ∃ run final, Printed scan run ∧ finalizeRun run = some final := by
  have short (count : UInt32) : (decimal count.toNat).length ≤ 20 := by
    have digits : (Nat.toDigits 10 count.toNat).length ≤ 10 := by
      rw [Nat.length_toDigits_le_iff (by decide) (by decide)]
      exact lt_trans count.toNat_lt (by decide)
    exact le_trans digits (by decide)
  have measured : Measured ((startRun 1).setTexts
      [("sram_ones".toList, decimal scan.sramOnes.toNat),
        ("sram_transitions".toList, decimal scan.sramTransitions.toNat)]) := by
    apply Measured.set_texts (measured_start_run 1)
    rw [List.forall_mem_cons, List.forall_mem_singleton]
    exact ⟨fun _ => short _, fun _ => short _⟩
  obtain ⟨final, finalized, -⟩ := finalize_run_some measured
  exact ⟨_, final, ⟨rfl, rfl⟩, finalized⟩

/-! ## When they are normalised -/

structure Normalised (region : Bytes) (oneRate transitionRate : ℚ) : Prop where
  ones : oneRate = onesOf region / (8 * region.length : ℕ)
  transitions :
    transitionRate = (captureSram region).sramTransitions.toNat / (comparedBits region).length
  oneBounds : oneRate ∈ Set.Icc 0 1
  transitionBounds : transitionRate ∈ Set.Icc 0 1
  allDiffer : transitionRate = 1 ↔ ∀ pair ∈ comparedBits region, pair.1 ≠ pair.2

/-- Every parsed run of a boot with this startup region has normalised rates. -/
def RatesNormalised (region : Bytes) : Prop :=
  ∀ run final, Printed (captureSram region) run → finalizeRun run = some final →
    ∃ oneRate transitionRate, rate (final "sram_one_rate".toList) = some oneRate ∧
      rate (final "sram_transition_rate".toList) = some transitionRate ∧
      Normalised region oneRate transitionRate

theorem rates_normalised_iff (region : Bytes) :
    RatesNormalised region ↔
      Normalised region ((captureSram region).sramOnes.toNat / 32768)
        ((captureSram region).sramTransitions.toNat / 32767) := by
  constructor
  · intro all
    obtain ⟨run, final, printed, finalized⟩ := finalized_run (captureSram region)
    obtain ⟨oneRate, transitionRate, one, transition, normalised⟩ := all run final printed finalized
    obtain ⟨ones, transitions⟩ := finalize_rates printed finalized
    rw [ones] at one
    rw [transitions] at transition
    rw [Option.some.inj one, Option.some.inj transition]
    exact normalised
  · intro normalised run final printed finalized
    obtain ⟨ones, transitions⟩ := finalize_rates printed finalized
    exact ⟨_, _, ones, transitions, normalised⟩

theorem popcount8_eq_zero_iff (v : UInt8) : (popcount8 v).toNat = 0 ↔ v = 0 := by
  have table : ∀ value < 256, (popcount8 (UInt8.ofNat value)).toNat = 0 → value = 0 := by
    decide +kernel
  have here := table v.toNat v.toNat_lt
  rw [UInt8.ofNat_toNat] at here
  constructor
  · intro none
    exact UInt8.toNat_inj.mp (here none)
  · rintro rfl
    decide

theorem differences_eq_zero_iff (region : Bytes) :
    differences region = 0 ↔ ∀ pair ∈ adjacent region, pair.1 = pair.2 := by
  rw [differences, comparedBits, List.countP_flatMap, List.sum_eq_zero_iff, List.forall_mem_map]
  apply forall₂_congr
  intro pair _
  rw [Function.comp_apply, ← popcount8_xor, popcount8_eq_zero_iff, UInt8.xor_eq_zero_iff]

theorem ones_eq_zero_iff (region : Bytes) : onesOf region = 0 ↔ ∀ byte ∈ region, byte = 0 := by
  rw [onesOf, regionBits, List.count_flatMap, List.sum_eq_zero_iff, List.forall_mem_map]
  apply forall₂_congr
  intro byte _
  rw [Function.comp_apply, ← popcount8_bits, popcount8_eq_zero_iff]

theorem divided_eq_iff (count : ℕ) {first second : ℕ} (firstPositive : 0 < first)
    (secondPositive : 0 < second) :
    (count : ℚ) / first = count / second ↔ count = 0 ∨ first = second := by
  have firstNonzero : (first : ℚ) ≠ 0 := by exact_mod_cast firstPositive.ne'
  have secondNonzero : (second : ℚ) ≠ 0 := by exact_mod_cast secondPositive.ne'
  rw [div_eq_div_iff firstNonzero secondNonzero, mul_eq_mul_left_iff, or_comm]
  norm_cast
  rw [eq_comm (a := second)]

/-- The number of compared positions is even. -/
theorem transition_share_iff (count : ℕ) {n : ℕ} (two : 2 ≤ n) :
    (count : ℚ) / 32767 = count / (8 * (n - 1) : ℕ) ↔ count = 0 := by
  have shares := divided_eq_iff count (show 0 < 32767 by decide) (show 0 < 8 * (n - 1) by omega)
  have odd : 32767 ≠ 8 * (n - 1) := by omega
  rw [or_iff_left odd] at shares
  exact_mod_cast shares

theorem one_share_iff (count : ℕ) {n : ℕ} (two : 2 ≤ n) :
    (count : ℚ) / 32768 = count / (8 * n : ℕ) ↔ count = 0 ∨ n = 4096 := by
  have shares := divided_eq_iff count (show 0 < 32768 by decide) (show 0 < 8 * n by omega)
  have assumed : 32768 = 8 * n ↔ n = 4096 := by omega
  rw [assumed] at shares
  exact_mod_cast shares

theorem repeated_iff {pufBytes : Nat} (two : 2 ≤ pufBytes) (region : Block pufBytes) :
    (∃ byte, region.val = List.replicate pufBytes byte ∧ (byte = 0 ∨ pufBytes = 4096)) ↔
      differences region.val = 0 ∧ (onesOf region.val = 0 ∨ pufBytes = 4096) := by
  have size : region.val.length = pufBytes := region.property
  rw [differences_eq_zero_iff, ones_eq_zero_iff]
  constructor
  · rintro ⟨byte, repeated, known⟩
    have first : ∀ other ∈ region.val.head?, other = byte := by
      intro other head
      rw [repeated] at head
      exact List.eq_of_mem_replicate (List.mem_of_mem_head? head)
    refine ⟨(adjacent_equal_iff byte first).mpr (by rw [size]; exact repeated), known.imp_left ?_⟩
    rintro rfl other member
    rw [repeated] at member
    exact List.eq_of_mem_replicate member
  · rintro ⟨equal, known⟩
    obtain ⟨byte, head⟩ : ∃ byte, region.val.head? = some byte := by
      rw [← Option.ne_none_iff_exists', Ne, List.head?_eq_none_iff]
      exact List.ne_nil_of_length_pos (by omega)
    have first : ∀ other ∈ region.val.head?, other = byte := by
      rw [head]
      rintro other ⟨⟩
      rfl
    have repeated := (adjacent_equal_iff byte first).mp equal
    rw [size] at repeated
    exact ⟨byte, repeated, known.imp_left fun zero => zero byte (List.mem_of_mem_head? head)⟩

theorem normalised_iff {region : Bytes} {pufBytes : Nat} (two : 2 ≤ pufBytes)
    (size : region.length = pufBytes)
    (transitionsCount : (captureSram region).sramTransitions.toNat = differences region) :
    Normalised region (onesOf region / 32768) (differences region / 32767) ↔
      differences region = 0 ∧ (onesOf region = 0 ∨ pufBytes = 4096) := by
  have compared : (comparedBits region).length = 8 * (pufBytes - 1) := by
    rw [compared_bits_length, size]
  constructor
  · intro normalised
    have transitionSame := normalised.transitions
    have oneSame := normalised.ones
    rw [transitionsCount, compared, transition_share_iff _ two] at transitionSame
    rw [size, one_share_iff _ two] at oneSame
    exact ⟨transitionSame, oneSame⟩
  · rintro ⟨still, known⟩
    have oneSame := (one_share_iff (onesOf region) two).mpr known
    have bound := ones_le region
    rw [size] at bound
    refine ⟨?_, ?_, ?_, ?_, ?_⟩
    · rw [size]
      exact oneSame
    · rw [transitionsCount, compared, still]
      simp
    · rw [oneSame, Set.mem_Icc]
      refine ⟨div_nonneg (Nat.cast_nonneg _) (Nat.cast_nonneg _), ?_⟩
      apply div_le_one_of_le₀ _ (Nat.cast_nonneg _)
      exact_mod_cast bound
    · rw [still]
      simp
    · -- a region of two bytes or more has compared bits, and none of them differ
      rw [still]
      apply iff_of_false (by norm_num)
      intro differ
      have all := List.countP_eq_length.mpr fun pair member => decide_eq_true (differ pair member)
      have count : (comparedBits region).countP (fun pair => decide (pair.1 ≠ pair.2)) = 0 := still
      rw [count, compared] at all
      omega

theorem rates_normalised_counts {pufBytes : Nat} (two : 2 ≤ pufBytes) (linked : pufBytes < 2 ^ 29)
    (region : Block pufBytes) :
    RatesNormalised region.val ↔
      differences region.val = 0 ∧ (onesOf region.val = 0 ∨ pufBytes = 4096) := by
  obtain ⟨-, ones, transitions⟩ := capture_sram_eq region.val
  have size : region.val.length = pufBytes := region.property
  have onesBound := ones_le region.val
  have differencesBound := differences_le region.val
  rw [size] at onesBound differencesBound
  have room : 8 * pufBytes < UInt32.size := by
    rw [show UInt32.size = 2 ^ 32 from rfl]
    omega
  have onesCount : (captureSram region.val).sramOnes.toNat = onesOf region.val := by
    rw [ones]
    exact UInt32.toNat_ofNat_of_lt' (by omega)
  have transitionsCount :
      (captureSram region.val).sramTransitions.toNat = differences region.val := by
    rw [transitions]
    exact UInt32.toNat_ofNat_of_lt' (by omega)
  rw [rates_normalised_iff, onesCount, transitionsCount]
  exact normalised_iff two size transitionsCount

/-- The rates are normalised exactly for a region of one repeated byte, and this byte
has to be zero unless the region has the 4096 bytes that the parser assumes. An array
of half a gigabyte and more is not linked into the image. -/
theorem sram_rates_normalised_iff (pufBytes : Nat) (two : 2 ≤ pufBytes)
    (linked : pufBytes < 2 ^ 29) (region : Block pufBytes) :
    RatesNormalised region.val ↔
      ∃ byte, region.val = List.replicate pufBytes byte ∧ (byte = 0 ∨ pufBytes = 4096) := by
  rw [repeated_iff two]
  exact rates_normalised_counts two linked region

theorem sram_rates_normalised_zeros : RatesNormalised [0, 0] :=
  (sram_rates_normalised_iff 2 (by decide) (by decide) ⟨[0, 0], rfl⟩).mpr ⟨0, rfl, .inl rfl⟩

/-- One bit set in the region of the default build. -/
theorem one_bit_not_normalised : ¬RatesNormalised (1 :: List.replicate 4095 0) := by
  intro normalised
  have counts := (@rates_normalised_counts 4096 (by decide) (by decide)
    ⟨1 :: List.replicate 4095 0, by rw [List.length_cons, List.length_replicate]⟩).mp normalised
  have pairs : adjacent ((1 : UInt8) :: List.replicate 4095 0) =
      (1, 0) :: adjacent (List.replicate 4095 0) := by
    rw [List.replicate_succ]
    rfl
  have equal := (differences_eq_zero_iff _).mp counts.1
  rw [pairs, List.forall_mem_cons] at equal
  exact absurd equal.1 (by decide)

end BootEntropy.Capsule
