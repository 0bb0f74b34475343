import BootEntropy.Aeb.ResultLine
import BootEntropy.Aeb.Sampling

/-!
# Rendering into character arrays

`bytes_to_hex` with its output array, every load and store checked, and its calls in
`run_trial`, `maybe_dump_seed` and `maybe_dump_raw_hex`.
-/

namespace BootEntropy.Aeb

open BootEntropy.Lib

set_option autoImplicit false

/-! ## `bytes_to_hex` -/

/-- `hex[nibble]` -/
def hexChar (nibble : UInt8) : UInt8 := UInt8.ofNat (hexDigit nibble.toNat).toNat

structure HexState (outLen : Nat) where
  pos : UInt32
  out : Block outLen

/-- The loop with `i` bytes behind it. Each pass moves `i` forward, so `len` passes are
enough. -/
def hexLoop (input : Bytes) (len : UInt32) {outLen : Nat} :
    Nat → UInt32 → HexState outLen → Checked (HexState outLen)
  | 0, _, state => .ok state
  | turns + 1, i, state =>
      if i < len ∧ state.pos + 2 < UInt32.ofNat outLen then do
        let byte ← Cells.load (⟨input, rfl⟩ : Block input.length) i.toNat
        let out ← Cells.store state.out state.pos.toNat (hexChar (byte >>> 4))
        let out ← Cells.store out (state.pos + 1).toNat (hexChar (byte &&& 0x0F))
        hexLoop input len turns (i + 1) ⟨state.pos + 2, out⟩
      else .ok state

/-- `out_len` is the size of the array. -/
def bytesToHexIn (input : Bytes) (len : UInt32) {outLen : Nat} (out : Block outLen) :
    Checked (Block outLen) :=
  if outLen = 0 then .ok out
  else do
    let state ← hexLoop input len len.toNat 0 ⟨0, out⟩
    Cells.store state.out state.pos.toNat 0

/-- What `%s` prints of an array. -/
def cString (array : Bytes) : Bytes := array.takeWhile (· ≠ 0)

/-- A call: two arrays apart from one another in the memory that a `size_t` addresses,
with as many input bytes as the output has room for. -/
structure HexCall where
  input : Bytes
  len : UInt32
  outLen : Nat
  out : Block outLen
  addressed : outLen < 2 ^ 32
  apart : input.length + outLen ≤ 2 ^ 32
  enough : min len.toNat ((outLen - 1) / 2) ≤ input.length

def HexCall.count (call : HexCall) : Nat := min call.len.toNat ((call.outLen - 1) / 2)

def HexCall.run (call : HexCall) : Checked (Block call.outLen) :=
  bytesToHexIn call.input call.len call.out

/-! ## The loop -/

def hexBytes (bytes : Bytes) : Bytes := textBytes (hexText bytes)

theorem hex_bytes_length (bytes : Bytes) : (hexBytes bytes).length = 2 * bytes.length := by
  rw [hexBytes, textBytes, List.length_map, hex_text_length]

theorem hex_char_high (byte : UInt8) :
    hexChar (byte >>> 4) = UInt8.ofNat (hexDigit (byte.toNat / 16)).toNat := by
  rw [hexChar, UInt8.toNat_shiftRight]
  congr 3
  exact Nat.shiftRight_eq_div_pow _ 4

theorem hex_char_low (byte : UInt8) :
    hexChar (byte &&& 0x0F) = UInt8.ofNat (hexDigit (byte.toNat % 16)).toNat := by
  rw [hexChar, UInt8.toNat_and]
  congr 3
  exact Nat.and_two_pow_sub_one_eq_mod _ 4

theorem hex_bytes_snoc (front : Bytes) (byte : UInt8) :
    hexBytes (front ++ [byte]) =
      hexBytes front ++ [hexChar (byte >>> 4)] ++ [hexChar (byte &&& 0x0F)] := by
  rw [hex_char_high, hex_char_low]
  simp [hexBytes, textBytes, hexText]

section Loop

variable (call : HexCall)

/-- The output with `done` bytes rendered. -/
structure HexCall.Rendered (done : Nat) (state : HexState call.outLen) : Prop where
  pos : state.pos = UInt32.ofNat (2 * done)
  out : state.out.val = hexBytes (call.input.take done) ++ call.out.val.drop (2 * done)

variable {call}

/-- Up to the last byte that fits, neither the index nor the place wraps. -/
theorem HexCall.bounds {done : Nat} (inside : done ≤ call.count) (room : 1 ≤ call.outLen) :
    2 * done + 1 ≤ call.outLen ∧ 2 * done + 2 < 2 ^ 32 ∧ done ≤ call.len.toNat := by
  have addressed := call.addressed
  have apart := call.apart
  have enough := call.enough
  rw [count] at inside
  omega

theorem HexCall.rendered_length {done : Nat} (inside : done ≤ call.count) :
    (hexBytes (call.input.take done)).length = 2 * done := by
  have enough := call.enough
  rw [count] at inside
  rw [hex_bytes_length, List.length_take, Nat.min_eq_left (inside.trans enough)]

theorem HexCall.Rendered.pos_to_nat {done : Nat} {state : HexState call.outLen}
    (rendered : call.Rendered done state) (inside : done ≤ call.count) (room : 1 ≤ call.outLen)
    (more : Nat) (few : more ≤ 2) : (state.pos + UInt32.ofNat more).toNat = 2 * done + more := by
  have bounds := HexCall.bounds inside room
  rw [rendered.pos, ← UInt32.ofNat_add, UInt32.toNat_ofNat', Nat.mod_eq_of_lt (by omega)]

theorem HexCall.Rendered.guard_iff {done : Nat} {state : HexState call.outLen}
    (rendered : call.Rendered done state) (inside : done ≤ call.count) (room : 1 ≤ call.outLen) :
    (UInt32.ofNat done < call.len ∧ state.pos + 2 < UInt32.ofNat call.outLen) ↔
      done < call.count := by
  have bounds := HexCall.bounds inside room
  have addressed := call.addressed
  have two : (state.pos + 2).toNat = 2 * done + 2 :=
    rendered.pos_to_nat inside room 2 (Nat.le_refl 2)
  rw [UInt32.lt_iff_toNat_lt, UInt32.lt_iff_toNat_lt, two, UInt32.toNat_ofNat',
    UInt32.toNat_ofNat', Nat.mod_eq_of_lt addressed, Nat.mod_eq_of_lt (by omega), count]
  omega

theorem HexCall.Rendered.step {done : Nat} {state : HexState call.outLen}
    (rendered : call.Rendered done state) (inside : done < call.count) (room : 1 ≤ call.outLen)
    (turns : Nat) :
    ∃ after, hexLoop call.input call.len (turns + 1) (UInt32.ofNat done) state =
        hexLoop call.input call.len turns (UInt32.ofNat (done + 1)) after ∧
      call.Rendered (done + 1) after := by
  have bounds := HexCall.bounds (Nat.succ_le_of_lt inside) room
  have start : state.pos.toNat = 2 * done := by
    simpa using rendered.pos_to_nat inside.le room 0 (Nat.zero_le 2)
  have next : (state.pos + 1).toNat = 2 * done + 1 :=
    rendered.pos_to_nat inside.le room 1 (Nat.le_succ 1)
  have index : (UInt32.ofNat done).toNat = done := by
    rw [UInt32.toNat_ofNat', Nat.mod_eq_of_lt (by omega)]
  have size : done < call.input.length := by
    have enough := call.enough
    rw [count] at inside
    omega
  have byte : call.input[(UInt32.ofNat done).toNat]? = some call.input[done] := by
    rw [index]
    exact List.getElem?_eq_getElem size
  have length := HexCall.rendered_length inside.le
  obtain ⟨high, storesHigh, highOut⟩ := Cells.store_ok state.out rendered.out (length.trans start.symm)
    (by omega) (hexChar (call.input[done] >>> 4))
  rw [List.append_cons] at highOut
  have behind : (hexBytes (call.input.take done) ++ [hexChar (call.input[done] >>> 4)]).length =
      (state.pos + 1).toNat := by
    rw [List.length_append, length, next, List.length_singleton]
  obtain ⟨low, storesLow, lowOut⟩ := Cells.store_ok high highOut behind (by omega)
    (hexChar (call.input[done] &&& 0x0F))
  have further : UInt32.ofNat done + 1 = UInt32.ofNat (done + 1) := (UInt32.ofNat_add done 1).symm
  rw [hexLoop, if_pos ((rendered.guard_iff inside.le room).mpr inside), Cells.load_ok _ byte, ok_bind,
    storesHigh, ok_bind, storesLow, ok_bind, further]
  refine ⟨_, rfl, ?_, ?_⟩
  · rw [rendered.pos, Nat.mul_succ, UInt32.ofNat_add]
    rfl
  · rw [lowOut, List.take_succ_eq_append_getElem size, hex_bytes_snoc, List.append_cons, List.drop_drop,
      List.drop_drop]
    rfl

theorem HexCall.Rendered.run (room : 1 ≤ call.outLen) (turns : Nat) :
    ∀ {done : Nat} {state : HexState call.outLen}, call.Rendered done state →
      done ≤ call.count → done + turns = call.len.toNat →
      ∃ after, hexLoop call.input call.len turns (UInt32.ofNat done) state = .ok after ∧
        call.Rendered call.count after := by
  induction turns with
  | zero =>
      intro done state rendered inside all
      have last : done = call.count := by
        rw [count] at inside ⊢
        omega
      exact ⟨state, rfl, last ▸ rendered⟩
  | succ turns ih =>
      intro done state rendered inside all
      by_cases more : done < call.count
      · obtain ⟨next, pass, further⟩ := rendered.step more room turns
        rw [pass]
        exact ih further more (by omega)
      · have last : done = call.count := by omega
        have stop := (rendered.guard_iff inside room).not.mpr more
        refine ⟨state, ?_, last ▸ rendered⟩
        rw [hexLoop, if_neg stop]

end Loop

/-- The array holds the hex text and a zero behind it, and its further bytes are as before. -/
theorem HexCall.run_renders (call : HexCall) (room : 1 ≤ call.outLen) :
    ∃ after : Block call.outLen, call.run = .ok after ∧
      after.val = hexBytes (call.input.take call.count) ++
        0 :: call.out.val.drop (2 * call.count + 1) := by
  have start : call.Rendered 0 ⟨0, call.out⟩ := ⟨rfl, rfl⟩
  obtain ⟨state, loop, rendered⟩ := Rendered.run room call.len.toNat start (Nat.zero_le _) (by omega)
  have bounds := HexCall.bounds (Nat.le_refl call.count) room
  have pos : state.pos.toNat = 2 * call.count := by
    simpa using rendered.pos_to_nat (Nat.le_refl _) room 0 (Nat.zero_le 2)
  have length := HexCall.rendered_length (Nat.le_refl call.count)
  obtain ⟨after, stores, out⟩ := Cells.store_ok state.out rendered.out (length.trans pos.symm)
    (by omega) 0
  rw [List.drop_drop] at out
  have loop : hexLoop call.input call.len call.len.toNat 0 ⟨0, call.out⟩ = .ok state := loop
  refine ⟨after, ?_, out⟩
  rw [run, bytesToHexIn, if_neg (by omega), loop, ok_bind, stores]

/-! ## What is printed -/

theorem hex_bytes_nonzero (bytes : Bytes) : ∀ byte ∈ hexBytes bytes, byte ≠ 0 := by
  have digits : ∀ nibble < 16, UInt8.ofNat (hexDigit nibble).toNat ≠ 0 := by decide
  intro byte member
  obtain ⟨c, known, rfl⟩ := List.mem_map.mp member
  obtain ⟨source, _, here⟩ := List.mem_flatMap.mp known
  have bounded : source.toNat < 256 := source.toNat_lt
  simp only [List.mem_cons, List.not_mem_nil, or_false] at here
  rcases here with rfl | rfl
  · exact digits _ (by omega)
  · exact digits _ (by omega)

theorem c_string_hex (bytes rest : Bytes) : cString (hexBytes bytes ++ 0 :: rest) = hexBytes bytes := by
  have front := hex_bytes_nonzero bytes
  rw [cString, List.takeWhile_append_of_pos (by simpa using front), List.takeWhile_cons,
    if_neg (by decide), List.append_nil]

theorem bytes_to_hex_from_eq (outLen : Nat) (bytes : Bytes) : ∀ pos,
    bytesToHexFrom outLen pos bytes = hexText (bytes.take ((outLen - 1 - pos) / 2)) := by
  induction bytes with
  | nil =>
      intro pos
      rw [List.take_nil]
      rfl
  | cons byte rest ih =>
      intro pos
      rw [bytesToHexFrom]
      split_ifs with fits
      · have count : (outLen - 1 - pos) / 2 = (outLen - 1 - (pos + 2)) / 2 + 1 := by omega
        rw [ih, count, List.take_succ_cons]
        rfl
      · have none : (outLen - 1 - pos) / 2 = 0 := by omega
        rw [none]
        rfl

theorem HexCall.run_text (call : HexCall) (room : 1 ≤ call.outLen) :
    ∃ after : Block call.outLen, call.run = .ok after ∧
      cString after.val = textBytes (bytesToHex (call.input.take call.len.toNat) call.outLen) := by
  obtain ⟨after, run, out⟩ := call.run_renders room
  refine ⟨after, run, ?_⟩
  rw [out, c_string_hex, bytesToHex, if_neg (by omega), bytes_to_hex_from_eq, List.take_take,
    Nat.sub_zero, Nat.min_comm]
  rfl

/-! ## Calls of `bytes_to_hex` -/

/-- A whole array into one of `sizeof(in) * 2 + 1`. -/
def renderWhole {size : Nat} (block : Block size) (out : Block (size * 2 + 1)) :
    Checked (Block (size * 2 + 1)) :=
  bytesToHexIn block.val (UInt32.ofNat size) out

/-- The arrays of `run_trial` that hold text. -/
structure ResultHexes where
  nonceHex : Block (16 * 2 + 1)
  rawHex : Block (32 * 2 + 1)
  jitterHex : Block (32 * 2 + 1)
  responseHex : Block (32 * 2 + 1)
  seedHashHex : Block (32 * 2 + 1)

def renderResult (fields : ResultFields) (arrays : ResultHexes) : Checked ResultHexes := do
  let nonceHex ← renderWhole fields.nonce arrays.nonceHex
  let rawHex ← renderWhole fields.rawSha256 arrays.rawHex
  let jitterHex ← renderWhole fields.jitterSha256 arrays.jitterHex
  let responseHex ← renderWhole fields.responseSha256 arrays.responseHex
  let seedHashHex ← renderWhole fields.seedSha256 arrays.seedHashHex
  return ⟨nonceHex, rawHex, jitterHex, responseHex, seedHashHex⟩

def ResultHexes.texts (arrays : ResultHexes) : List Bytes :=
  [cString arrays.nonceHex.val, cString arrays.rawHex.val, cString arrays.jitterHex.val,
    cString arrays.responseHex.val, cString arrays.seedHashHex.val]

def ResultFields.digests (fields : ResultFields) : List Bytes :=
  [fields.nonce.val, fields.rawSha256.val, fields.jitterSha256.val, fields.responseSha256.val,
    fields.seedSha256.val]

/-- What `maybe_dump_seed` prints behind `seed=`. -/
def maybeDumpSeed (seed : Block aebSeedLen) (seedHex : Block (aebSeedLen * 2 + 1)) :
    Checked Bytes := do
  let rendered ← renderWhole seed seedHex
  return cString rendered.val

def hexLineSize : Nat := 129

/-- The loop of `maybe_dump_raw_hex` with what it prints as `offset=` and behind `hex=`.
Each pass moves `off` forward, so `raw_len` passes are enough. -/
def dumpLoop (raw : Bytes) (rawLen : Nat) :
    Nat → Nat → Block hexLineSize → Checked (List (Nat × Bytes))
  | 0, _, _ => .ok []
  | turns + 1, off, line =>
      if off < rawLen then do
        let rest ← checkedSub rawLen off
        let chunk := if hexLineBytes < rest then hexLineBytes else rest
        let rendered ← bytesToHexIn (raw.drop off) (UInt32.ofNat chunk) line
        let next ← checkedAdd 32 off hexLineBytes
        let later ← dumpLoop raw rawLen turns next rendered
        return (off, cString rendered.val) :: later
      else .ok []

def maybeDumpRawHex (raw : Bytes) (rawLen : Nat) (line : Block hexLineSize) :
    Checked (List (Nat × Bytes)) :=
  dumpLoop raw rawLen rawLen 0 line

theorem render_whole {size : Nat} (small : 3 * size + 1 ≤ 2 ^ 32) (block : Block size)
    (out : Block (size * 2 + 1)) :
    ∃ after, renderWhole block out = .ok after ∧ cString after.val = hexBytes block.val := by
  have length := block.property
  have len : (UInt32.ofNat size).toNat = size := by
    rw [UInt32.toNat_ofNat', Nat.mod_eq_of_lt (by omega)]
  let call : HexCall := ⟨block.val, UInt32.ofNat size, size * 2 + 1, out, by omega, by omega, by omega⟩
  have count : call.count = block.val.length := by
    show min (UInt32.ofNat size).toNat ((size * 2 + 1 - 1) / 2) = block.val.length
    omega
  obtain ⟨after, run, text⟩ := call.run_renders (Nat.le_add_left 1 (size * 2))
  refine ⟨after, run, ?_⟩
  rw [text, c_string_hex, count, List.take_length]

theorem render_result_hexes (fields : ResultFields) (arrays : ResultHexes) :
    ∃ after, renderResult fields arrays = .ok after ∧
      after.texts = fields.digests.map hexBytes := by
  obtain ⟨nonceHex, nonce, nonceText⟩ := render_whole (by decide) fields.nonce arrays.nonceHex
  obtain ⟨rawHex, raw, rawText⟩ := render_whole (by decide) fields.rawSha256 arrays.rawHex
  obtain ⟨jitterHex, jitter, jitterText⟩ :=
    render_whole (by decide) fields.jitterSha256 arrays.jitterHex
  obtain ⟨responseHex, response, responseText⟩ :=
    render_whole (by decide) fields.responseSha256 arrays.responseHex
  obtain ⟨seedHashHex, seed, seedText⟩ :=
    render_whole (by decide) fields.seedSha256 arrays.seedHashHex
  refine ⟨⟨nonceHex, rawHex, jitterHex, responseHex, seedHashHex⟩, ?_, ?_⟩
  · rw [renderResult, nonce, ok_bind, raw, ok_bind, jitter, ok_bind, response, ok_bind, seed, ok_bind]
    rfl
  · simp only [ResultHexes.texts, ResultFields.digests, List.map_cons, List.map_nil, nonceText,
      rawText, jitterText, responseText, seedText]

theorem render_chunk_line {raw : Bytes} {rawLen : Nat} (small : raw.length < 2 ^ 31)
    (inside : rawLen ≤ raw.length) (index : Nat) (line : Block hexLineSize) :
    ∃ after, bytesToHexIn (raw.drop (index * hexLineBytes))
        (UInt32.ofNat (chunk hexLineBytes (raw.take rawLen) index).length) line = .ok after ∧
      cString after.val = hexBytes (chunk hexLineBytes (raw.take rawLen) index) := by
  have length := chunk_length hexLineBytes (raw.take rawLen) index
  rw [List.length_take, Nat.min_eq_left inside] at length
  generalize size : (chunk hexLineBytes (raw.take rawLen) index).length = chunked at length ⊢
  have few : chunked ≤ 64 := length ▸ Nat.min_le_left ..
  have within : chunked ≤ rawLen - index * hexLineBytes := length ▸ Nat.min_le_right ..
  have len : (UInt32.ofNat chunked).toNat = chunked := by
    rw [UInt32.toNat_ofNat', Nat.mod_eq_of_lt (by omega)]
  have behind : (raw.drop (index * hexLineBytes)).length = raw.length - index * hexLineBytes :=
    List.length_drop
  let call : HexCall := ⟨raw.drop (index * hexLineBytes), UInt32.ofNat chunked, hexLineSize, line,
    by decide, by rw [hexLineSize]; omega, by rw [hexLineSize]; omega⟩
  have count : call.count = chunked := by
    show min (UInt32.ofNat chunked).toNat ((129 - 1) / 2) = chunked
    omega
  have room : 1 ≤ hexLineSize := by decide
  obtain ⟨after, run, text⟩ := call.run_renders room
  have rendered : call.input.take call.count = chunk hexLineBytes (raw.take rawLen) index := by
    show (raw.drop (index * hexLineBytes)).take call.count = _
    rw [count, chunk, List.drop_take, List.take_take, length]
  refine ⟨after, run, ?_⟩
  rw [text, c_string_hex, rendered]

theorem dump_loop_lines {raw : Bytes} {rawLen : Nat} (small : raw.length < 2 ^ 31)
    (inside : rawLen ≤ raw.length) (turns : Nat) :
    ∀ (index : Nat) (line : Block hexLineSize), rawLen ≤ turns + index * hexLineBytes →
      dumpLoop raw rawLen turns (index * hexLineBytes) line =
        .ok ((List.range' index (chunkCount hexLineBytes rawLen - index)).map fun k =>
          (k * hexLineBytes, hexBytes (chunk hexLineBytes (raw.take rawLen) k))) := by
  induction turns with
  | zero =>
      intro index line enough
      have none : chunkCount hexLineBytes rawLen - index = 0 := by
        rw [chunkCount, hexLineBytes] at *
        omega
      rw [none]
      rfl
  | succ turns ih =>
      intro index line enough
      rw [dumpLoop]
      by_cases more : index * hexLineBytes < rawLen
      · have rest : checkedSub rawLen (index * hexLineBytes) = .ok (rawLen - index * hexLineBytes) :=
          if_pos (by omega)
        have length := chunk_length hexLineBytes (raw.take rawLen) index
        rw [List.length_take, Nat.min_eq_left inside] at length
        have cut : (if hexLineBytes < rawLen - index * hexLineBytes then hexLineBytes
            else rawLen - index * hexLineBytes) =
            (chunk hexLineBytes (raw.take rawLen) index).length := by
          rw [length]
          split_ifs <;> omega
        have next : checkedAdd 32 (index * hexLineBytes) hexLineBytes =
            .ok ((index + 1) * hexLineBytes) := by
          rw [Nat.succ_mul]
          exact if_pos (by rw [hexLineBytes] at *; omega)
        have count : chunkCount hexLineBytes rawLen - index =
            (chunkCount hexLineBytes rawLen - (index + 1)) + 1 := by
          rw [chunkCount, hexLineBytes] at *
          omega
        obtain ⟨rendered, run, text⟩ := render_chunk_line small inside index line
        have later := ih (index + 1) rendered (by rw [Nat.succ_mul, hexLineBytes] at *; omega)
        dsimp only
        rw [if_pos more, rest, ok_bind, cut, run, ok_bind, next, ok_bind, later, ok_bind, text, count,
          List.range'_succ, List.map_cons]
        rfl
      · have none : chunkCount hexLineBytes rawLen - index = 0 := by
          rw [chunkCount, hexLineBytes] at *
          omega
        rw [if_neg more, none]
        rfl

/-- The lines of a dump render the whole window, each with its offset. -/
theorem maybe_dump_raw_hex_lines {raw : Bytes} {rawLen : Nat} (small : raw.length < 2 ^ 31)
    (inside : rawLen ≤ raw.length) (line : Block hexLineSize) :
    ∃ lines, maybeDumpRawHex raw rawLen line = .ok lines ∧
      lines = (List.range (chunkCount hexLineBytes rawLen)).map (fun index =>
        (index * hexLineBytes, hexBytes (chunk hexLineBytes (raw.take rawLen) index))) ∧
      lines.flatMap Prod.snd = hexBytes (raw.take rawLen) := by
  have loop := dump_loop_lines small inside rawLen 0 line (Nat.le_add_right ..)
  rw [Nat.zero_mul, Nat.sub_zero, ← List.range_eq_range'] at loop
  refine ⟨_, loop, rfl, ?_⟩
  have length : (raw.take rawLen).length = rawLen := List.length_take_of_le inside
  have whole := flat_map_chunk (show 0 < hexLineBytes by decide) (raw.take rawLen)
  rw [length] at whole
  have bytes (part : Nat → Bytes) (items : List Nat) :
      items.flatMap (fun item => hexBytes (part item)) = hexBytes (items.flatMap part) := by
    rw [hexBytes, ← hex_text_flat_map, textBytes, List.map_flatMap]
    rfl
  rw [List.flatMap_map, bytes, whole]

/-- `bytes_to_hex` stores only inside its array, ends the text with a zero, and renders the
bytes that there is room for; all its calls render whole arrays. -/
theorem hex_rendering_exact :
    (∀ call : HexCall, 1 ≤ call.outLen → ∃ after : Block call.outLen, call.run = .ok after ∧
      after.val = hexBytes (call.input.take (min call.len.toNat ((call.outLen - 1) / 2))) ++
        0 :: call.out.val.drop (2 * min call.len.toNat ((call.outLen - 1) / 2) + 1)) ∧
    (∀ (fields : ResultFields) (arrays : ResultHexes), ∃ after,
      renderResult fields arrays = .ok after ∧ after.texts = fields.digests.map hexBytes) ∧
    (∀ (seed : Block aebSeedLen) (seedHex : Block (aebSeedLen * 2 + 1)),
      maybeDumpSeed seed seedHex = .ok (hexBytes seed.val)) ∧
    ∀ (cfg : Config) (start : AebMsg) (rawBuf : Block cfg.maxSampleBytes)
      (line : Block hexLineSize), ∃ lines,
        maybeDumpRawHex rawBuf.val (requestedBytes cfg start) line = .ok lines ∧
        lines = (List.range (chunkCount hexLineBytes (requestedBytes cfg start))).map (fun index =>
          (index * hexLineBytes,
            hexBytes (chunk hexLineBytes (rawBuf.val.take (requestedBytes cfg start)) index))) ∧
        lines.flatMap Prod.snd = hexBytes (rawBuf.val.take (requestedBytes cfg start)) := by
  refine ⟨fun call room => call.run_renders room, render_result_hexes, ?_, ?_⟩
  · intro seed seedHex
    obtain ⟨after, run, text⟩ := render_whole (by decide) seed seedHex
    rw [maybeDumpSeed, run, ok_bind, text]
    rfl
  · intro cfg start rawBuf line
    have size := rawBuf.property
    have fits := cfg.rawBufFits
    have requested := requested_bytes_le cfg start
    exact maybe_dump_raw_hex_lines (by omega) (by omega) line

/-- Room for two bytes and a half: the array is not filled. -/
def oddHexCall : HexCall where
  input := [0xC0, 0xFF, 0xEE]
  len := 3
  outLen := 6
  out := Cells.fill 6 0x20
  addressed := by decide
  apart := by decide
  enough := by decide

theorem odd_hex_call_rendered :
    ∃ after : Block 6, oddHexCall.run = .ok after ∧
      after.val = hexBytes [0xC0, 0xFF] ++ [0, 0x20] :=
  hex_rendering_exact.1 oddHexCall (by decide)

end BootEntropy.Aeb
