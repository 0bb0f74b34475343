import BootEntropy.RawDump.Slices
import Mathlib.Data.List.GetD
import Mathlib.InformationTheory.Hamming

/-!
# Comparing two slices byte by byte

`compare_aligned_files` reads two files in lock-step and stops when the shorter one
is used up. What it reports is a sum over the positions both files have, so the
size of the reads does not show.
-/

namespace BootEntropy.RawDump.Slices

open BootEntropy.Lib

set_option autoImplicit false

/-! ## The loop -/

structure Totals where
  comparedBytes : Nat
  equalBytes : Nat
  differingBits : Nat
  deriving DecidableEq

structure Comparison where
  comparedBytes : Nat
  differingBits : Nat
  bitDifferenceRatio : ℚ
  equalBytes : Nat
  byteEqualRatio : ℚ
  deriving DecidableEq

def addBytes (totals : Totals) (pair : UInt8 × UInt8) : Totals :=
  { totals with
    equalBytes := totals.equalBytes + if pair.1 = pair.2 then 1 else 0
    differingBits := totals.differingBits + bitCounts.getD (pair.1 ^^^ pair.2).toNat 0 }

def addBlocks (numpy : Bool) (aData bData : Bytes) (totals : Totals) : Totals :=
  if numpy then
    { totals with
      equalBytes := totals.equalBytes + (aData.zipWith (· == ·) bData).count true
      differingBits := totals.differingBits +
        ((aData.zipWith (· ^^^ ·) bData).map fun byte => bitCounts.getD byte.toNat 0).sum }
  else (aData.zip bData).foldl addBytes totals

/-- The last test stands in the source behind the truncation. -/
def compareLoop (numpy : Bool) (chunkBytes : Nat) (aRest bRest : Bytes) (totals : Totals) :
    Totals :=
  let aRead := aRest.take chunkBytes
  let bRead := bRest.take chunkBytes
  if _ : aRest.take chunkBytes = [] ∨ bRest.take chunkBytes = [] then totals
  else
    let keep := min aRead.length bRead.length
    let aData := if aRead.length ≠ bRead.length then aRead.take keep else aRead
    let bData := if aRead.length ≠ bRead.length then bRead.take keep else bRead
    let added := addBlocks numpy aData bData
      { totals with comparedBytes := totals.comparedBytes + aData.length }
    if aData.length ≠ bData.length then added
    else compareLoop numpy chunkBytes (aRest.drop chunkBytes) (bRest.drop chunkBytes) added
termination_by aRest.length
decreasing_by
  have content := List.length_pos_of_ne_nil (not_or.mp ‹_›).1
  rw [List.length_take] at content
  rw [List.length_drop]
  omega

def compareAlignedFiles (numpy : Bool) (a b : Bytes) (chunkBytes : Nat) : Comparison :=
  let totals := compareLoop numpy chunkBytes a b ⟨0, 0, 0⟩
  { comparedBytes := totals.comparedBytes
    differingBits := totals.differingBits
    bitDifferenceRatio := if totals.comparedBytes ≠ 0 then
      totals.differingBits / (totals.comparedBytes * 8) else 0
    equalBytes := totals.equalBytes
    byteEqualRatio := if totals.comparedBytes ≠ 0 then
      totals.equalBytes / totals.comparedBytes else 0 }

/-! ## What the loop adds up -/

def same (pair : UInt8 × UInt8) : Nat := if pair.1 = pair.2 then 1 else 0

def apart (pair : UInt8 × UInt8) : Nat := bitCounts.getD (pair.1 ^^^ pair.2).toNat 0

def addPositions (totals : Totals) (pairs : List (UInt8 × UInt8)) : Totals where
  comparedBytes := totals.comparedBytes + pairs.length
  equalBytes := totals.equalBytes + (pairs.map same).sum
  differingBits := totals.differingBits + (pairs.map apart).sum

theorem add_positions_append (totals : Totals) (first second : List (UInt8 × UInt8)) :
    addPositions totals (first ++ second) = addPositions (addPositions totals first) second := by
  simp [addPositions, Nat.add_assoc]

theorem foldl_add_bytes (totals : Totals) (pairs : List (UInt8 × UInt8)) :
    pairs.foldl addBytes { totals with comparedBytes := totals.comparedBytes + pairs.length } =
      addPositions totals pairs := by
  induction pairs generalizing totals with
  | nil => simp [addPositions]
  | cons pair rest ih =>
      have step : addBytes
          { totals with comparedBytes := totals.comparedBytes + (pair :: rest).length } pair =
          { addPositions totals [pair] with
            comparedBytes := (addPositions totals [pair]).comparedBytes + rest.length } := by
        simp [addBytes, addPositions, same, apart, Nat.add_assoc, Nat.add_comm 1]
      rw [List.foldl_cons, step, ih, ← add_positions_append]
      rfl

/-- Both branches add the same for blocks of one length. -/
theorem add_blocks_eq (numpy : Bool) (aData bData : Bytes) (totals : Totals)
    (lengths : aData.length = bData.length) :
    addBlocks numpy aData bData
        { totals with comparedBytes := totals.comparedBytes + aData.length } =
      addPositions totals (aData.zip bData) := by
  have width : (aData.zip bData).length = aData.length := by
    rw [List.length_zip, lengths, Nat.min_self]
  cases numpy with
  | false =>
      rw [← foldl_add_bytes, width]
      rfl
  | true =>
      have equal : (aData.zipWith (· == ·) bData).count true =
          ((aData.zip bData).map same).sum := by
        rw [← List.map_uncurry_zip_eq_zipWith]
        induction aData.zip bData with
        | nil => rfl
        | cons pair rest ih =>
            rw [List.map_cons, List.map_cons, List.count_cons, List.sum_cons, ih, Nat.add_comm]
            simp [same, Function.uncurry]
      have differing : ((aData.zipWith (· ^^^ ·) bData).map
          fun byte => bitCounts.getD byte.toNat 0).sum = ((aData.zip bData).map apart).sum := by
        rw [← List.map_uncurry_zip_eq_zipWith, List.map_map]
        rfl
      simp only [addBlocks, if_true, equal, differing, addPositions, width]

/-- The blocks of one turn hold the next positions of both files, also where one of
them is cut to the length of the other. -/
theorem zip_truncated (aRead bRead : Bytes) :
    let keep := min aRead.length bRead.length
    let aData := if aRead.length ≠ bRead.length then aRead.take keep else aRead
    let bData := if aRead.length ≠ bRead.length then bRead.take keep else bRead
    aData.length = bData.length ∧ aData.zip bData = aRead.zip bRead := by
  intro keep aData bData
  by_cases differ : aRead.length ≠ bRead.length
  · have aCut : aData = aRead.take keep := if_pos differ
    have bCut : bData = bRead.take keep := if_pos differ
    rw [aCut, bCut]
    constructor
    · rw [List.length_take, List.length_take]
      omega
    · exact List.zip_eq_zip_take_min.symm
  · have aWhole : aData = aRead := if_neg differ
    have bWhole : bData = bRead := if_neg differ
    rw [aWhole, bWhole]
    exact ⟨not_not.mp differ, rfl⟩

theorem compare_loop_eq (numpy : Bool) {chunkBytes : Nat} (positive : 1 ≤ chunkBytes)
    (aRest bRest : Bytes) (totals : Totals) :
    compareLoop numpy chunkBytes aRest bRest totals = addPositions totals (aRest.zip bRest) := by
  induction size : aRest.length using Nat.strong_induction_on generalizing aRest bRest totals with
  | _ size ih =>
      subst size
      have split : aRest.zip bRest =
          (aRest.take chunkBytes).zip (bRest.take chunkBytes) ++
            (aRest.drop chunkBytes).zip (bRest.drop chunkBytes) := by
        rw [List.zip_eq_zipWith, List.zip_eq_zipWith, List.zip_eq_zipWith, ← List.take_zipWith,
          ← List.drop_zipWith, List.take_append_drop]
      rw [compareLoop]
      by_cases ended : aRest.take chunkBytes = [] ∨ bRest.take chunkBytes = []
      · rw [dif_pos ended]
        have nothing : aRest.zip bRest = [] := by
          rcases ended with first | second
          · rcases List.take_eq_nil_iff.mp first with zero | empty
            · omega
            · rw [empty, List.zip_nil_left]
          · rcases List.take_eq_nil_iff.mp second with zero | empty
            · omega
            · rw [empty, List.zip_nil_right]
        rw [nothing]
        rfl
      · rw [dif_neg ended]
        obtain ⟨lengths, positions⟩ :=
          zip_truncated (aRest.take chunkBytes) (bRest.take chunkBytes)
        have content := List.length_pos_of_ne_nil (not_or.mp ended).1
        have shorter : (aRest.drop chunkBytes).length < aRest.length := by
          rw [List.length_take] at content
          rw [List.length_drop]
          omega
        simp only [if_neg (not_not.mpr lengths), add_blocks_eq numpy _ _ _ lengths, positions]
        rw [ih _ shorter _ _ _ rfl, ← add_positions_append, ← split]

/-! ## Positions and bits -/

/-- Bit `position.2` of byte `position.1`, for the first `count` bytes. -/
def bitsOf (bytes : Bytes) (count : Nat) (position : Fin count × Fin 8) : Bool :=
  (bytes.getD position.1 0).toNat.testBit position.2

theorem bit_counts_entry {value : Nat} (below : value < 256) :
    bitCounts.getD value 0 = (bin value).count '1' := by
  rw [bitCounts, List.getD_eq_getElem?_getD, List.getElem?_map, List.getElem?_range below]
  rfl

theorem bit_counts_get :
    ∀ value < 256, bitCounts.getD value 0 = ∑ bit : Fin 8, (value.testBit bit).toNat := by
  have counted : ∀ value < 256, (bin value).count '1' =
      ∑ bit : Fin 8, (value.testBit bit).toNat := by
    simp only [Fin.sum_univ_eight]
    decide +kernel
  intro value below
  rw [bit_counts_entry below, counted value below]

theorem bit_counts_eq_zero : ∀ value < 256, bitCounts.getD value 0 = 0 → value = 0 := by
  have counted : ∀ value < 256, (bin value).count '1' = 0 → value = 0 := by
    decide +kernel
  intro value below none
  rw [bit_counts_entry below] at none
  exact counted value below none

theorem apart_eq (pair : UInt8 × UInt8) :
    apart pair = ∑ bit : Fin 8,
      if pair.1.toNat.testBit bit ≠ pair.2.toNat.testBit bit then 1 else 0 := by
  rw [apart, bit_counts_get _ (UInt8.toNat_lt _)]
  apply Finset.sum_congr rfl
  intro bit _
  rw [UInt8.toNat_xor, Nat.testBit_xor]
  cases pair.1.toNat.testBit bit <;> cases pair.2.toNat.testBit bit <;> rfl

theorem apart_eq_zero_iff (pair : UInt8 × UInt8) : apart pair = 0 ↔ pair.1 = pair.2 := by
  constructor
  · intro none
    have zero := bit_counts_eq_zero _ (UInt8.toNat_lt _) none
    exact UInt8.xor_eq_zero_iff.mp (UInt8.toNat_inj.mp zero)
  · intro equal
    rw [apart, equal, UInt8.xor_self]
    decide

theorem same_swap (pair : UInt8 × UInt8) : same pair.swap = same pair := by
  simp [same, eq_comm]

theorem apart_swap (pair : UInt8 × UInt8) : apart pair.swap = apart pair := by
  simp [apart, UInt8.xor_comm]

theorem sum_zip (a b : Bytes) (f : UInt8 × UInt8 → Nat) :
    ((a.zip b).map f).sum =
      ∑ index : Fin (min a.length b.length), f (a.getD index 0, b.getD index 0) := by
  have width : (a.zip b).length = min a.length b.length := List.length_zip
  rw [← Fin.sum_univ_fun_getElem, ← width]
  apply Finset.sum_congr rfl
  intro index _
  have inside : index.val < min a.length b.length := width ▸ index.isLt
  rw [List.getElem_zip, List.getD_eq_getElem _ _ (by omega), List.getD_eq_getElem _ _ (by omega)]

theorem sum_same (a b : Bytes) :
    ((a.zip b).map same).sum =
      (Finset.univ.filter fun index : Fin (min a.length b.length) => a[index.1]? = b[index.1]?).card := by
  rw [sum_zip, Finset.card_filter]
  apply Finset.sum_congr rfl
  intro index _
  have inside := index.isLt
  rw [List.getD_eq_getElem _ _ (by omega), List.getD_eq_getElem _ _ (by omega),
    List.getElem?_eq_getElem (by omega), List.getElem?_eq_getElem (by omega), same]
  simp only [Option.some_inj]

theorem sum_apart (a b : Bytes) :
    ((a.zip b).map apart).sum =
      hammingDist (bitsOf a (min a.length b.length)) (bitsOf b (min a.length b.length)) := by
  rw [sum_zip, hammingDist, Finset.card_filter, Fintype.sum_prod_type]
  apply Finset.sum_congr rfl
  intro index _
  exact apart_eq _

theorem sum_same_eq_iff (pairs : List (UInt8 × UInt8)) :
    (pairs.map same).sum = pairs.length ↔ (pairs.map apart).sum = 0 := by
  have bound (pairs : List (UInt8 × UInt8)) : (pairs.map same).sum ≤ pairs.length := by
    have cells := List.sum_le_card_nsmul (pairs.map same) 1 (by
      rw [List.forall_mem_map]
      intro pair _
      rw [same]
      split_ifs <;> decide)
    simpa using cells
  induction pairs with
  | nil => simp
  | cons pair rest ih =>
      have most := bound rest
      rw [List.map_cons, List.map_cons, List.sum_cons, List.sum_cons, List.length_cons]
      by_cases equal : pair.1 = pair.2
      · have one : same pair = 1 := if_pos equal
        have none : apart pair = 0 := (apart_eq_zero_iff pair).mpr equal
        rw [one, none, Nat.zero_add, Nat.add_comm 1, Nat.add_right_cancel_iff]
        exact ih
      · have zero : same pair = 0 := if_neg equal
        have several : apart pair ≠ 0 := fun none => equal ((apart_eq_zero_iff pair).mp none)
        rw [zero]
        omega

theorem compare_aligned_eq (numpy : Bool) (a b : Bytes) {chunkBytes : Nat}
    (positive : 1 ≤ chunkBytes) :
    compareLoop numpy chunkBytes a b ⟨0, 0, 0⟩ =
      ⟨min a.length b.length, ((a.zip b).map same).sum, ((a.zip b).map apart).sum⟩ := by
  rw [compare_loop_eq numpy positive, addPositions, List.length_zip]
  simp

theorem compare_aligned_swap (numpy : Bool) (a b : Bytes) {chunkBytes : Nat}
    (positive : 1 ≤ chunkBytes) :
    compareAlignedFiles numpy b a chunkBytes = compareAlignedFiles numpy a b chunkBytes := by
  have mirrored : b.zip a = (a.zip b).map Prod.swap := (List.zip_swap a b).symm
  have totals : compareLoop numpy chunkBytes b a ⟨0, 0, 0⟩ =
      compareLoop numpy chunkBytes a b ⟨0, 0, 0⟩ := by
    rw [compare_aligned_eq numpy b a positive, compare_aligned_eq numpy a b positive, mirrored,
      Nat.min_comm, List.map_map, List.map_map]
    congr 3 <;> funext pair
    · exact same_swap pair
    · exact apart_swap pair
  rw [compareAlignedFiles, compareAlignedFiles, totals]

/-- The comparison is exact for every size of the reads. -/
theorem compare_aligned_exact (numpy : Bool) (a b : Bytes) (chunkBytes : Nat)
    (positive : 1 ≤ chunkBytes) :
    let result := compareAlignedFiles numpy a b chunkBytes
    let m := min a.length b.length
    result.comparedBytes = m ∧
    result.equalBytes =
      (Finset.univ.filter fun index : Fin m => a[index.1]? = b[index.1]?).card ∧
    result.differingBits = hammingDist (bitsOf a m) (bitsOf b m) ∧
    compareAlignedFiles numpy b a chunkBytes = result ∧
    (result.equalBytes = m ↔ result.differingBits = 0) := by
  intro result m
  have totals := compare_aligned_eq numpy a b positive
  have compared : result.comparedBytes = m := congrArg Totals.comparedBytes totals
  have equal : result.equalBytes = ((a.zip b).map same).sum := congrArg Totals.equalBytes totals
  have differing : result.differingBits = ((a.zip b).map apart).sum :=
    congrArg Totals.differingBits totals
  have everywhere := sum_same_eq_iff (a.zip b)
  rw [List.length_zip] at everywhere
  refine ⟨compared, ?_, ?_, compare_aligned_swap numpy a b positive, ?_⟩
  · rw [equal, sum_same]
  · rw [differing, sum_apart]
  · rw [equal, differing]
    exact everywhere

theorem compare_aligned_exact_short :
    (compareAlignedFiles true [1, 2, 3, 4] [1, 6, 3] 2).comparedBytes = 3 ∧
    compareAlignedFiles true [1, 6, 3] [1, 2, 3, 4] 2 =
      compareAlignedFiles true [1, 2, 3, 4] [1, 6, 3] 2 := by
  obtain ⟨compared, -, -, swapped, -⟩ :=
    compare_aligned_exact true [1, 2, 3, 4] [1, 6, 3] 2 (by decide)
  exact ⟨compared, swapped⟩

end BootEntropy.RawDump.Slices
