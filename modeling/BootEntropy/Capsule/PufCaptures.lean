import BootEntropy.Aeb.HexLog
import BootEntropy.Lib.Checked
import BootEntropy.Lib.Rounding
import BootEntropy.Lib.Tally
import Mathlib.Data.List.GetD

/-!
# Stability of startup captures

`pairwise_distances` and the counts of `summarize` in `analyze_puf_captures`. The ones
of a bit are divided by the number of captures, and a bit is stable when the quotient is
zero or one as a float.
-/

namespace BootEntropy.PufCaptures

open BootEntropy.Lib
open BootEntropy.Aeb (bitCount)

set_option autoImplicit false

/-! ## `analyze_puf_captures` -/

def bitsOf (sample : Bytes) : List Nat :=
  sample.flatMap fun b => (List.range 8).map fun i => b.toNat >>> (7 - i) &&& 1

def hamming (a b : Bytes) : Nat := ((a.zip b).map fun pair => bitCount (pair.1 ^^^ pair.2)).sum

def pairwiseDistances (samples : List Bytes) : List Nat :=
  (List.range samples.length).flatMap fun i =>
    (List.range' (i + 1) (samples.length - (i + 1))).map fun j =>
      hamming (samples.getD i []) (samples.getD j [])

/-- How `summarize` ends without a summary. -/
inductive Stop where
  | noLines
  | inconsistentSizes (sizes : List Nat)
  | raised (raised : Raised)
  deriving DecidableEq, Repr

/-- The counts of `summarize`, with the lists that it takes them from. -/
structure Summary where
  samples : Nat
  bytesPerSample : Nat
  bitsPerSample : Nat
  ones : List Nat
  probs : List Double
  stableBits : Nat
  distances : List Nat
  deriving DecidableEq, Repr

/-- `[sum(row[i] for row in bit_samples) for i in range(bit_len)]` -/
def onesPerBit (samples : List Bytes) (bitLen : Nat) : List Nat :=
  (List.range bitLen).map fun i => ((samples.map bitsOf).map fun row => row.getD i 0).sum

/-- `p in (0.0, 1.0)` -/
def Stable (p : Double) : Prop := p = .finite 0 ∨ p = .finite 1

instance (p : Double) : Decidable (Stable p) := inferInstanceAs (Decidable (_ ∨ _))

def summarize (samples : List Bytes) : Except Stop Summary :=
  match samples with
  | [] => .error .noLines
  | first :: _ =>
      if ∃ sample ∈ samples, sample.length ≠ first.length then
        .error (.inconsistentSizes ((samples.map List.length).dedup.insertionSort (· ≤ ·)))
      else do
        let bitLen := first.length * 8
        let ones := onesPerBit samples bitLen
        let probs ← (ones.mapM fun c : Nat => divideInts c samples.length).mapError Stop.raised
        return {
          samples := samples.length
          bytesPerSample := first.length
          bitsPerSample := bitLen
          ones := ones
          probs := probs
          stableBits := probs.countP (Stable ·)
          distances := pairwiseDistances samples }

/-! ## Bits -/

/-- Bit `i` of a capture, the highest bit of the first byte first. -/
def bitAt (sample : Bytes) (i : Nat) : Bool := (bitsOf sample).getD i 0 = 1

theorem byte_bits (b : UInt8) : ((List.range 8).map fun i => b.toNat >>> (7 - i) &&& 1) =
    (List.range 8).map fun i => (b.toNat.testBit (7 - i)).toNat :=
  List.map_congr_left fun _ _ => shifted_bit ..

theorem bits_of_binary (sample : Bytes) : ∀ bit ∈ bitsOf sample, bit = 0 ∨ bit = 1 := by
  intro bit member
  obtain ⟨b, _, here⟩ := List.mem_flatMap.mp member
  rw [byte_bits] at here
  obtain ⟨i, _, rfl⟩ := List.mem_map.mp here
  cases b.toNat.testBit (7 - i) with
  | false => exact .inl rfl
  | true => exact .inr rfl

theorem bits_of_length (sample : Bytes) : (bitsOf sample).length = sample.length * 8 := by
  simp [bitsOf, List.length_flatMap]

theorem get_bit_eq (sample : Bytes) (i : Nat) :
    (bitsOf sample).getD i 0 = if bitAt sample i then 1 else 0 := by
  have binary : (bitsOf sample).getD i 0 = 0 ∨ (bitsOf sample).getD i 0 = 1 := by
    by_cases inside : i < (bitsOf sample).length
    · rw [List.getD_eq_getElem _ _ inside]
      exact bits_of_binary sample _ (List.getElem_mem inside)
    · exact .inl (List.getD_eq_default _ _ (Nat.le_of_not_lt inside))
  rcases binary with zero | one
  · rw [bitAt, zero]
    rfl
  · rw [bitAt, one]
    rfl

theorem ones_per_bit_eq (samples : List Bytes) (bitLen : Nat) :
    onesPerBit samples bitLen = (List.range bitLen).map (onesIn bitAt samples) := by
  apply List.map_congr_left
  intro i _
  rw [List.map_map, onesIn, count_p_eq_sum]
  congr 1
  apply List.map_congr_left
  intro sample _
  exact get_bit_eq sample i

/-! ## Distances -/

/-- Turned round, the eight places of a byte are the same ones. -/
theorem bit_count_eq (value : UInt8) :
    bitCount value = (List.range 8).countP fun i => value.toNat.testBit (7 - i) := by
  have turned : (List.range 8).reverse = (List.range 8).map (7 - ·) := by decide
  rw [bitCount, ← List.countP_reverse, turned, List.countP_map]
  rfl

theorem bit_count_xor_eq (x y : UInt8) :
    bitCount (x ^^^ y) = ((bitsOf [x]).zip (bitsOf [y])).countP fun pair => pair.1 ≠ pair.2 := by
  rw [bit_count_eq, bitsOf, bitsOf, List.flatMap_singleton, List.flatMap_singleton, byte_bits,
    byte_bits, List.zip_map', List.countP_map]
  apply List.countP_congr
  intro i _
  rw [UInt8.toNat_xor, Nat.testBit_xor]
  simp only [Function.comp_apply]
  cases x.toNat.testBit (7 - i) <;> cases y.toNat.testBit (7 - i) <;> decide

theorem hamming_zip {a b : Bytes} (same : a.length = b.length) :
    hamming a b = ((bitsOf a).zip (bitsOf b)).countP fun pair => pair.1 ≠ pair.2 := by
  induction a generalizing b with
  | nil => rfl
  | cons x a ih =>
      cases b with
      | nil => cases same
      | cons y b =>
          have front (z : UInt8) (rest : Bytes) : bitsOf (z :: rest) = bitsOf [z] ++ bitsOf rest := by
            simp [bitsOf]
          have sizes : (bitsOf [x]).length = (bitsOf [y]).length := by
            rw [bits_of_length, bits_of_length]
            rfl
          have here : hamming (x :: a) (y :: b) = bitCount (x ^^^ y) + hamming a b := rfl
          rw [here, ih (Nat.succ.inj same), front x, front y, List.zip_append sizes,
            List.countP_append, bit_count_xor_eq]

theorem hamming_eq {a b : Bytes} {size : Nat} (left : a.length = size) (right : b.length = size) :
    hamming a b = distance bitAt (List.range (size * 8)) a b := by
  have places : (bitsOf a).zip (bitsOf b) = (List.range (size * 8)).map fun i =>
      ((bitsOf a).getD i 0, (bitsOf b).getD i 0) := by
    rw [← List.zip_map', ← left, ← bits_of_length, range_map_get_d, bits_of_length, left, ← right,
      ← bits_of_length, range_map_get_d]
  rw [hamming_zip (left.trans right.symm), places, List.countP_map, distance]
  apply List.countP_congr
  intro i _
  rw [Function.comp_apply, get_bit_eq, get_bit_eq]
  cases bitAt a i <;> cases bitAt b i <;> decide

theorem pairwise_distances_eq {samples : List Bytes} {size : Nat}
    (same : ∀ sample ∈ samples, sample.length = size) :
    pairwiseDistances samples = pairValues (distance bitAt (List.range (size * 8))) samples :=
  (pair_values_places hamming [] samples).trans
    (pair_values_congr fun a left b right => hamming_eq (same a left) (same b right))

/-! ## Two views of one quantity -/

/-- Number of pairs of captures that differ in a bit with `c` ones. -/
def term (n c : Nat) : Nat := c * (n - c)

theorem distances_sum {samples : List Bytes} {size : Nat}
    (same : ∀ sample ∈ samples, sample.length = size) :
    (pairwiseDistances samples).sum =
      ((onesPerBit samples (size * 8)).map (term samples.length)).sum := by
  rw [pairwise_distances_eq same, pair_values_distance_sum, ones_per_bit_eq, List.map_map]
  rfl

theorem term_eq_zero_iff {n c : Nat} (part : c ≤ n) : term n c = 0 ↔ c = 0 ∨ c = n := by
  rw [term, Nat.mul_eq_zero]
  omega

theorem distances_zero_iff {samples : List Bytes} {size : Nat}
    (same : ∀ sample ∈ samples, sample.length = size) :
    (∀ d ∈ pairwiseDistances samples, d = 0) ↔
      ∀ c ∈ onesPerBit samples (size * 8), term samples.length c = 0 := by
  rw [← List.sum_eq_zero_iff, distances_sum same, List.sum_eq_zero_iff, List.forall_mem_map]

theorem ones_per_bit_le (samples : List Bytes) (bitLen : Nat) :
    ∀ c ∈ onesPerBit samples bitLen, c ≤ samples.length := by
  rw [ones_per_bit_eq, List.forall_mem_map]
  exact fun i _ => ones_in_le bitAt samples i

/-- `c / n` as a float -/
def share (n c : Nat) : Double := .finite (roundDouble (c / n))

/-- The quotient is rounded, so a bit with few ones or few zeros may count as stable. -/
def Rounded (n c : Nat) : Prop := 2 ^ 1075 * c ≤ n ∨ 2 ^ 54 * (n - c) ≤ n

theorem stable_share_iff {n c : Nat} (some : 0 < n) (part : c ≤ n) :
    Stable (share n c) ↔ Rounded n c := by
  rw [share, Stable, Rounded, Double.finite.injEq, Double.finite.injEq, share_eq_zero_iff some,
    share_eq_one_iff some part]

/-- Fewer captures than that are told apart. -/
theorem rounded_iff {n c : Nat} (few : n < 2 ^ 54) (part : c ≤ n) : Rounded n c ↔ term n c = 0 := by
  rw [term_eq_zero_iff part, Rounded]
  have power (places : Nat) (more : 54 ≤ places) : 2 ^ 54 ≤ 2 ^ places :=
    Nat.pow_le_pow_right two_pos more
  have wide := power 1075 (by decide)
  generalize 2 ^ 1075 = least at wide
  constructor
  · rintro (low | high)
    · left
      by_contra positive
      have times := Nat.le_mul_of_pos_right least (Nat.pos_of_ne_zero positive)
      omega
    · omega
  · rintro (rfl | rfl)
    · exact .inl (Nat.zero_le _)
    · exact .inr (by omega)

section Shares

variable {samples : List Bytes} (some : samples ≠ []) {bitLen : Nat} {holds : Nat → Prop}
  (sharp : ∀ c ∈ onesPerBit samples bitLen, (Rounded samples.length c ↔ holds c))
include some sharp

theorem shares_stable :
    List.Forall₂ (fun c p => Stable p ↔ holds c) (onesPerBit samples bitLen)
      ((onesPerBit samples bitLen).map (share samples.length)) := by
  rw [List.forall₂_map_right_iff, List.forall₂_same]
  intro c member
  have part := ones_per_bit_le samples bitLen c member
  exact (stable_share_iff (List.length_pos_of_ne_nil some) part).trans (sharp c member)

theorem all_stable_iff :
    ((onesPerBit samples bitLen).map (share samples.length)).countP (Stable ·) = bitLen ↔
      ∀ c ∈ onesPerBit samples bitLen, holds c := by
  have length : ((onesPerBit samples bitLen).map (share samples.length)).length = bitLen := by
    simp [onesPerBit]
  conv_lhs => rhs; rw [← length]
  rw [List.countP_eq_length, List.forall_mem_map]
  apply forall₂_congr
  intro c member
  have part := ones_per_bit_le samples bitLen c member
  rw [decide_eq_true_eq]
  exact (stable_share_iff (List.length_pos_of_ne_nil some) part).trans (sharp c member)

end Shares

/-! ## `summarize` -/

theorem summarize_eq {samples : List Bytes} {size : Nat}
    (same : ∀ sample ∈ samples, sample.length = size) (some : samples ≠ []) :
    summarize samples = .ok {
      samples := samples.length
      bytesPerSample := size
      bitsPerSample := size * 8
      ones := onesPerBit samples (size * 8)
      probs := (onesPerBit samples (size * 8)).map (share samples.length)
      stableBits := ((onesPerBit samples (size * 8)).map (share samples.length)).countP (Stable ·)
      distances := pairwiseDistances samples } := by
  obtain ⟨first, rest, rfl⟩ := List.exists_cons_of_ne_nil some
  have length : first.length = size := same first (List.mem_cons_self ..)
  have one : ¬∃ sample ∈ first :: rest, sample.length ≠ first.length := by
    rintro ⟨sample, member, other⟩
    exact other ((same sample member).trans length.symm)
  have probs : ((onesPerBit (first :: rest) (size * 8)).mapM fun c : Nat =>
      divideInts c (first :: rest).length) =
      .ok ((onesPerBit (first :: rest) (size * 8)).map (share (first :: rest).length)) :=
    map_m_ok fun c member =>
      divide_ints_share (ones_per_bit_le (first :: rest) (size * 8) c member)
  rw [summarize, if_neg one, length]
  dsimp only
  rw [probs, map_error_ok, ok_bind]
  rfl

/-- The sums agree, a stable bit is one that no pair differs in, and all bits are stable
when no pair differs. -/
structure Tallied (summary : Summary) : Prop where
  sums : summary.distances.sum = (summary.ones.map (term summary.samples)).sum
  counted : List.Forall₂ (fun c p => Stable p ↔ term summary.samples c = 0) summary.ones
    summary.probs
  constant : (∀ d ∈ summary.distances, d = 0) ↔ summary.stableBits = summary.bitsPerSample

def skewedCaptures (others : Nat) : List Bytes := List.replicate others [0x80] ++ [[0x00]]

theorem skewed_size (others : Nat) : ∀ sample ∈ skewedCaptures others, sample.length = 1 := by
  intro sample member
  rcases List.mem_append.mp member with repeated | last
  · rw [List.eq_of_mem_replicate repeated]
    rfl
  · rw [List.mem_singleton.mp last]
    rfl

theorem skewed_length (others : Nat) : (skewedCaptures others).length = others + 1 := by
  simp [skewedCaptures]

theorem skewed_ones (others : Nat) :
    onesPerBit (skewedCaptures others) (1 * 8) =
      others :: (List.range' 1 7).map (onesIn bitAt (skewedCaptures others)) := by
  have first : onesIn bitAt (skewedCaptures others) 0 = others := by
    have high : bitAt [0x80] 0 = true := by decide
    have low : bitAt [0x00] 0 = false := by decide
    simp [onesIn, skewedCaptures, high, low, List.countP_replicate]
  rw [ones_per_bit_eq, show List.range (1 * 8) = 0 :: List.range' 1 7 from rfl, List.map_cons, first]

/-- From `2^54` captures on, the difference is rounded away. -/
theorem skewed_not_tallied {others : Nat} (many : 2 ^ 54 ≤ others + 1) {summary : Summary}
    (run : summarize (skewedCaptures others) = .ok summary) : ¬Tallied summary := by
  have some : skewedCaptures others ≠ [] := List.append_ne_nil_of_right_ne_nil _ (by decide)
  have length := skewed_length others
  have here : others ∈ onesPerBit (skewedCaptures others) (1 * 8) := by
    rw [skewed_ones]
    exact List.mem_cons_self ..
  rw [summarize_eq (skewed_size others) some, Except.ok.injEq] at run
  subst run
  intro tallied
  have counted : List.Forall₂ (fun c p => Stable p ↔ term (skewedCaptures others).length c = 0)
      (onesPerBit (skewedCaptures others) (1 * 8))
      ((onesPerBit (skewedCaptures others) (1 * 8)).map (share (skewedCaptures others).length)) :=
    tallied.counted
  rw [List.forall₂_map_right_iff, List.forall₂_same] at counted
  have rounded : Rounded (skewedCaptures others).length others := by
    rw [Rounded, length]
    omega
  have stable := (stable_share_iff (List.length_pos_of_ne_nil some) (by omega)).mpr rounded
  have zero := (counted others here).mp stable
  rw [term_eq_zero_iff (by omega)] at zero
  omega

end BootEntropy.PufCaptures
