import BootEntropy.Lib.Tokens

/-!
# Reads decoded one by one

A decoder that starts anew at every read loses the characters that a read ends in. What is
lost is never ASCII, and only replacement characters stand in its place.
-/

namespace BootEntropy.Lib

set_option autoImplicit false

/-! ## Characters in progress -/

namespace PendingChar

def least (pending : PendingChar) : Nat :=
  (pending.bits * 64 + pending.low % 64) * 64 ^ (pending.owed - 1)

def limit (pending : PendingChar) : Nat :=
  (pending.bits * 64 + pending.high % 64 + 1) * 64 ^ (pending.owed - 1)

structure Sound (pending : PendingChar) : Prop where
  owed : 0 < pending.owed
  low : 0x80 ≤ pending.low
  high : pending.high ≤ 0xBF
  wide : 0x80 ≤ pending.least
  valid : pending.limit ≤ 0xD800 ∨ 0xE000 ≤ pending.least ∧ pending.limit ≤ 0x110000

theorem Sound.completed {pending : PendingChar} (sound : pending.Sound) (last : pending.owed ≤ 1)
    {octet : Nat} (above : pending.low ≤ octet) (below : octet ≤ pending.high) :
    0x80 ≤ (Char.ofNat (pending.bits * 0x40 + octet % 0x40)).toNat := by
  obtain ⟨owed, low, high, wide, valid⟩ := sound
  have one : pending.owed - 1 = 0 := by omega
  rw [least, one, Nat.pow_zero, Nat.mul_one] at wide valid
  rw [limit, one, Nat.pow_zero, Nat.mul_one] at valid
  have point : (pending.bits * 0x40 + octet % 0x40).isValidChar := by
    rw [Nat.isValidChar]
    omega
  rw [Char.ofNat, dif_pos point]
  show 0x80 ≤ (Char.ofNatAux _ point).toNat
  have same : (Char.ofNatAux _ point).toNat = pending.bits * 0x40 + octet % 0x40 := rfl
  omega

theorem Sound.continued {pending : PendingChar} (sound : pending.Sound) (more : 1 < pending.owed)
    {octet : Nat} (above : pending.low ≤ octet) (below : octet ≤ pending.high) :
    Sound ⟨pending.owed - 1, 0x80, 0xBF, pending.bits * 0x40 + octet % 0x40⟩ := by
  obtain ⟨owed, low, high, wide, valid⟩ := sound
  obtain ⟨count, shape⟩ : ∃ count, pending.owed = count + 2 := ⟨pending.owed - 2, by omega⟩
  have lower : pending.least ≤
      least ⟨pending.owed - 1, 0x80, 0xBF, pending.bits * 0x40 + octet % 0x40⟩ := by
    simp only [least, shape, Nat.add_sub_cancel, show count + 2 - 1 = count + 1 from rfl, pow_succ]
    calc
      (pending.bits * 64 + pending.low % 64) * (64 ^ count * 64)
          ≤ (pending.bits * 64 + octet % 64) * (64 ^ count * 64) :=
        Nat.mul_le_mul_right _ (by omega)
      _ = ((pending.bits * 64 + octet % 64) * 64 + 0x80 % 64) * 64 ^ count := by ring
  have upper : limit ⟨pending.owed - 1, 0x80, 0xBF, pending.bits * 0x40 + octet % 0x40⟩ ≤
      pending.limit := by
    simp only [limit, shape, Nat.add_sub_cancel, show count + 2 - 1 = count + 1 from rfl, pow_succ]
    calc
      ((pending.bits * 64 + octet % 64) * 64 + 0xBF % 64 + 1) * 64 ^ count
          = (pending.bits * 64 + octet % 64 + 1) * (64 ^ count * 64) := by ring
      _ ≤ (pending.bits * 64 + pending.high % 64 + 1) * (64 ^ count * 64) :=
        Nat.mul_le_mul_right _ (by omega)
  exact ⟨by show 0 < pending.owed - 1; omega, le_refl _, le_refl _, by omega, by omega⟩

end PendingChar

open PendingChar (Sound)

theorem start_char_sound (byte : UInt8) : ∀ pending ∈ (startChar byte).2, Sound pending := by
  have bound : byte.toNat < 256 := byte.toNat_lt
  intro pending member
  unfold startChar at member
  dsimp only at member
  split_ifs at member <;> cases member <;>
    exact ⟨by dsimp only; omega, by dsimp only; omega, by dsimp only; omega,
      by simp only [PendingChar.least]; omega,
      by simp only [PendingChar.least, PendingChar.limit]; omega⟩

theorem decode_step_sound {state : Option PendingChar} (sound : ∀ pending ∈ state, Sound pending)
    (byte : UInt8) : ∀ pending ∈ (decodeStep state byte).2, Sound pending := by
  cases state with
  | none => exact start_char_sound byte
  | some pending =>
      have own := sound pending rfl
      rw [decodeStep]
      split_ifs with inside last
      · exact fun _ none => absurd none (Option.not_mem_none _)
      · intro next member
        cases member
        exact own.continued (by omega) inside.1 inside.2
      · exact start_char_sound byte

/-! ## ASCII in a decoded text -/

theorem replacement_wide : 0x80 ≤ replacement.toNat := by decide

theorem decode_pending_wide (bytes : Bytes) :
    ∀ {pending : PendingChar}, Sound pending →
      ∃ c, (decodeFrom (some pending) bytes).head? = some c ∧ 0x80 ≤ c.toNat := by
  induction bytes with
  | nil => exact fun _ => ⟨replacement, rfl, replacement_wide⟩
  | cons byte rest ih =>
      intro pending sound
      rw [decodeFrom, decodeStep]
      split_ifs with inside last
      · exact ⟨_, rfl, sound.completed last inside.1 inside.2⟩
      · exact ih (sound.continued (by omega) inside.1 inside.2)
      · exact ⟨replacement, rfl, replacement_wide⟩

theorem decode_utf8_wide {byte : UInt8} (beyond : ¬byte.toNat < 0x80) (rest : Bytes) :
    ∃ c, (decodeUtf8 (byte :: rest)).head? = some c ∧ 0x80 ≤ c.toNat := by
  have started : decodeUtf8 (byte :: rest) =
      (startChar byte).1 ++ decodeFrom (startChar byte).2 rest := rfl
  have outputs : (startChar byte).1 = [] ∧ (startChar byte).2 ≠ none ∨
      (startChar byte).1 = [replacement] := by
    unfold startChar
    dsimp only
    rw [if_neg beyond]
    split_ifs <;> simp
  rw [started]
  rcases outputs with ⟨silent, open_⟩ | lost
  · obtain ⟨pending, state⟩ := Option.ne_none_iff_exists'.mp open_
    rw [silent, state, List.nil_append]
    exact decode_pending_wide rest (start_char_sound byte pending state)
  · rw [lost]
    exact ⟨replacement, rfl, replacement_wide⟩

theorem decode_utf8_cons {bytes : Bytes} {c : Char} {text : Text} (ascii : c.toNat < 0x80)
    (decoded : decodeUtf8 bytes = c :: text) :
    ∃ rest, bytes = UInt8.ofNat c.toNat :: rest ∧ decodeUtf8 rest = text := by
  cases bytes with
  | nil => cases decoded
  | cons byte rest =>
      by_cases small : byte.toNat < 0x80
      · rw [decode_utf8_ascii byte rest small] at decoded
        obtain ⟨rfl, tail⟩ := List.cons.inj decoded
        refine ⟨rest, ?_, tail⟩
        have valid : byte.toNat.isValidChar := .inl (by omega)
        have back : (Char.ofNat byte.toNat).toNat = byte.toNat := by
          rw [Char.ofNat, dif_pos valid]
          rfl
        rw [back, UInt8.ofNat_toNat]
      · obtain ⟨d, head, wide⟩ := decode_utf8_wide small rest
        rw [decoded] at head
        cases head
        omega

theorem decode_utf8_eq_nil {bytes : Bytes} (decoded : decodeUtf8 bytes = []) : bytes = [] := by
  cases bytes with
  | nil => rfl
  | cons byte rest =>
      by_cases small : byte.toNat < 0x80
      · rw [decode_utf8_ascii byte rest small] at decoded
        cases decoded
      · obtain ⟨c, head, _⟩ := decode_utf8_wide small rest
        rw [decoded] at head
        cases head

theorem decode_utf8_front {front back : Text} (ascii : ∀ c ∈ front, c.toNat < 0x80) {bytes : Bytes}
    (decoded : decodeUtf8 bytes = front ++ back) :
    ∃ rest, bytes = textBytes front ++ rest ∧ decodeUtf8 rest = back := by
  induction front generalizing bytes with
  | nil => exact ⟨bytes, rfl, decoded⟩
  | cons c front ih =>
      rw [List.forall_mem_cons] at ascii
      obtain ⟨more, rfl, tail⟩ := decode_utf8_cons ascii.1 decoded
      obtain ⟨rest, rfl, last⟩ := ih ascii.2 tail
      exact ⟨rest, rfl, last⟩

theorem decode_utf8_text_append {text : Text} (ascii : ∀ c ∈ text, c.toNat < 0x80) (rest : Bytes) :
    decodeUtf8 (textBytes text ++ rest) = text ++ decodeUtf8 rest := by
  induction text with
  | nil => rfl
  | cons c text ih =>
      rw [List.forall_mem_cons] at ascii
      have byte := ascii_byte ascii.1
      have tail := ih ascii.2
      rw [textBytes] at tail
      rw [textBytes, List.map_cons, List.cons_append, decode_utf8_ascii _ _ (by omega), byte,
        Char.ofNat_toNat, tail, List.cons_append]

theorem decode_utf8_eq {text : Text} (ascii : ∀ c ∈ text, c.toNat < 0x80) {bytes : Bytes}
    (decoded : decodeUtf8 bytes = text) : bytes = textBytes text := by
  rw [← List.append_nil text] at decoded
  obtain ⟨rest, rfl, none⟩ := decode_utf8_front ascii decoded
  rw [decode_utf8_eq_nil none, List.append_nil]

/-- An octet in ASCII closes what is in progress. -/
theorem decode_from_ascii (front : Bytes) {byte : UInt8} (small : byte.toNat < 0x80) (rest : Bytes) :
    ∀ {state : Option PendingChar}, (∀ pending ∈ state, Sound pending) →
      decodeFrom state (front ++ byte :: rest) =
        decodeFrom state front ++ decodeUtf8 (byte :: rest) := by
  induction front with
  | nil =>
      intro state sound
      cases state with
      | none => rfl
      | some pending =>
          have low := (sound pending rfl).low
          have closes : decodeStep (some pending) byte =
              (replacement :: (startChar byte).1, (startChar byte).2) := if_neg (by omega)
          have open_ : decodeFrom (some pending) [] = [replacement] := rfl
          rw [List.nil_append, open_, decodeFrom, closes]
          rfl
  | cons first front ih =>
      intro state sound
      rw [List.cons_append, decodeFrom, decodeFrom, ih (decode_step_sound sound first),
        List.append_assoc]

theorem decode_utf8_append_ascii (front : Bytes) {text : Text} (ascii : ∀ c ∈ text, c.toNat < 0x80)
    (rest : Bytes) (filled : text ≠ []) :
    decodeUtf8 (front ++ (textBytes text ++ rest)) =
      decodeUtf8 front ++ decodeUtf8 (textBytes text ++ rest) := by
  cases text with
  | nil => exact absurd rfl filled
  | cons c text =>
      have small : c.toNat < 0x80 := ascii c List.mem_cons_self
      have byte := ascii_byte small
      exact decode_from_ascii front (byte.symm ▸ small) _ fun _ none =>
        absurd none (Option.not_mem_none _)

/-! ## Reads -/

/-- The second text is the first one, with replacements in place of some characters beyond
ASCII. -/
inductive Blurs : Text → Text → Prop where
  | nil : Blurs [] []
  | keep (c : Char) {whole read : Text} (rest : Blurs whole read) : Blurs (c :: whole) (c :: read)
  | lost {c : Char} (count : Nat) (wide : 0x80 ≤ c.toNat) {whole read : Text}
      (rest : Blurs whole read) : Blurs (c :: whole) (List.replicate count replacement ++ read)

namespace Blurs

theorem keep_all (kept : Text) {whole read : Text} (rest : Blurs whole read) :
    Blurs (kept ++ whole) (kept ++ read) := by
  induction kept with
  | nil => exact rest
  | cons c kept ih => exact .keep c ih

theorem split {front back read : Text} (blurs : Blurs (front ++ back) read) :
    ∃ left right, read = left ++ right ∧ Blurs front left ∧ Blurs back right := by
  induction front generalizing read with
  | nil => exact ⟨[], read, rfl, .nil, blurs⟩
  | cons c front ih =>
      cases blurs with
      | keep c rest =>
          obtain ⟨left, right, rfl, first, second⟩ := ih rest
          exact ⟨c :: left, right, rfl, .keep c first, second⟩
      | lost count wide rest =>
          obtain ⟨left, right, rfl, first, second⟩ := ih rest
          exact ⟨_, right, (List.append_assoc ..).symm, .lost count wide first, second⟩

theorem ascii {whole read : Text} (blurs : Blurs whole read) (ascii : ∀ c ∈ whole, c.toNat < 0x80) :
    read = whole := by
  induction blurs with
  | nil => rfl
  | keep c rest ih =>
      rw [List.forall_mem_cons] at ascii
      rw [ih ascii.2]
  | lost count wide rest ih =>
      rw [List.forall_mem_cons] at ascii
      omega

theorem chars {whole read : Text} (blurs : Blurs whole read) :
    ∀ c ∈ read, c ∈ whole ∨ c = replacement := by
  induction blurs with
  | nil => exact List.forall_mem_nil _
  | keep d rest ih =>
      intro c member
      rcases List.mem_cons.mp member with rfl | later
      · exact .inl List.mem_cons_self
      · exact (ih c later).imp_left (List.mem_cons_of_mem d)
  | @lost d count wide whole read rest ih =>
      intro c member
      rcases List.mem_append.mp member with new | later
      · exact .inr (List.eq_of_mem_replicate new)
      · exact (ih c later).imp_left (List.mem_cons_of_mem d)

end Blurs

/-- What is left of a read, and the reads behind it. The whole may hold a character in
progress whose replacements have been written already. -/
structure ReadsBlur (read : Bytes) (reads : List Bytes) : Prop where
  together : ∀ state, (∀ pending ∈ state, Sound pending) →
    Blurs (decodeFrom state (read ++ reads.flatten)) (decodeFrom state read ++ reads.flatMap decodeUtf8)
  behind : ∀ pending, Sound pending → ∀ count,
    Blurs (decodeFrom (some pending) (read ++ reads.flatten))
      (List.replicate count replacement ++ (decodeUtf8 read ++ reads.flatMap decodeUtf8))

theorem sound_none : ∀ pending ∈ (none : Option PendingChar), Sound pending :=
  fun _ none => absurd none (Option.not_mem_none _)

theorem ReadsBlur.cons {read : Bytes} {reads : List Bytes} (later : ReadsBlur read reads)
    (byte : UInt8) : ReadsBlur (byte :: read) reads where
  together := by
    intro state sound
    have rest := later.together _ (decode_step_sound sound byte)
    rw [List.cons_append, decodeFrom, decodeFrom, List.append_assoc]
    exact rest.keep_all _
  behind := by
    intro pending sound count
    have started : decodeUtf8 (byte :: read) = (startChar byte).1 ++ decodeFrom (startChar byte).2 read :=
      rfl
    rw [List.cons_append, decodeFrom, started]
    by_cases inside : pending.low ≤ byte.toNat ∧ byte.toNat ≤ pending.high
    · -- the whole goes on with the character, the read takes the octet for a broken one
      have low := sound.low
      have high := sound.high
      have broken : startChar byte = ([replacement], none) := by
        rw [startChar, if_neg (by omega), if_pos (by omega)]
      have one : List.replicate count replacement ++ ([replacement] ++ decodeFrom none read ++
          reads.flatMap decodeUtf8) =
          List.replicate (count + 1) replacement ++ (decodeUtf8 read ++ reads.flatMap decodeUtf8) := by
        rw [List.replicate_succ', List.append_assoc, List.append_assoc]
        rfl
      rw [broken, one, decodeStep, if_pos inside]
      dsimp only
      split_ifs with last
      · exact .lost (count + 1) (sound.completed last inside.1 inside.2) (later.together none sound_none)
      · exact later.behind _ (sound.continued (by omega) inside.1 inside.2) (count + 1)
    · have rest := later.together _ (start_char_sound byte)
      rw [decodeStep, if_neg inside, List.append_assoc]
      exact .lost count replacement_wide (rest.keep_all _)

theorem reads_blur (reads : List Bytes) : ∀ read, ReadsBlur read reads := by
  induction reads with
  | nil =>
      intro read
      induction read with
      | nil =>
          refine ⟨fun state sound => ?_, fun pending sound count => .lost count replacement_wide .nil⟩
          cases state with
          | none => exact .nil
          | some pending => exact .keep replacement .nil
      | cons byte read ih => exact ih.cons byte
  | cons next reads ihReads =>
      intro read
      induction read with
      | nil =>
          have later := ihReads next
          constructor
          · intro state sound
            cases state with
            | none => exact later.together none sound_none
            | some pending => exact later.behind pending (sound pending rfl) 1
          · exact later.behind
      | cons byte read ih => exact ih.cons byte

theorem decode_reads (reads : List Bytes) :
    Blurs (decodeUtf8 reads.flatten) (reads.flatMap decodeUtf8) :=
  (reads_blur reads []).together none sound_none

end BootEntropy.Lib
