import BootEntropy.Aeb.Wire
import BootEntropy.Lib.Chunk

/-!
# Upload of one trial

`send_binary_msg` and `send_raw_stream`. A build is a `Config`; its arrays are
objects the compiler accepted, so their sizes fit a signed 32-bit size. Unsigned
32-bit arithmetic of the source is written with `u32`.
-/

namespace BootEntropy.Aeb

open BootEntropy.Lib

set_option autoImplicit false

def eIo : Int := 5
def eMSGSIZE : Int := 122

def u32 (value : Nat) : Nat := value % 2 ^ 32

/-- The build-time macros, and what the compiler has checked about them. -/
structure Config where
  maxSampleBytes : Nat
  maxBursts : Nat
  rawChunkBytes : Nat
  chunkPositive : 0 < rawChunkBytes
  rawBufFits : maxSampleBytes < 2 ^ 31
  jitterUsFits : 4 * maxBursts < 2 ^ 31
  txBufFits : aebHeaderLen + rawChunkBytes < 2 ^ 31

/-- One `zsock_send`: its return value, and `errno` when that is negative. -/
structure SendCall where
  ret : Int
  errno : Int
  deriving DecidableEq, Repr

def sendBinaryMsg (cfg : Config) (call : SendCall) (msg : AebMsg) (payload : Bytes) :
    Int × List Bytes :=
  if cfg.rawChunkBytes < payload.length then (-eMSGSIZE, [])
  else if call.ret < 0 then (-call.errno, [])
  else if call.ret ≠ aebHeaderLen + payload.length then (-eIo, [])
  else (0, [buildMsg msg ++ payload])

/-- What the firmware measured in one trial, in its own static arrays. -/
structure Trial (cfg : Config) where
  start : AebMsg
  raw : Bytes
  deltas : List UInt32
  rawFits : raw.length ≤ cfg.maxSampleBytes
  deltasFit : deltas.length ≤ cfg.maxBursts

section Upload

variable {cfg : Config} (trial : Trial cfg)

def uploadMsg (type seqOrCount sampleBytes : Nat) : AebMsg :=
  { trial.start with
    type := UInt16.ofNat type
    seqOrCount := UInt32.ofNat seqOrCount
    sampleBytes := UInt32.ofNat sampleBytes }

def rawChunks : Nat := u32 (u32 (trial.raw.length + cfg.rawChunkBytes) + 2 ^ 32 - 1) / cfg.rawChunkBytes

def rawChunkMsg (index : Nat) : AebMsg × Bytes :=
  let off := u32 (index * cfg.rawChunkBytes)
  let rest := u32 (trial.raw.length + 2 ^ 32 - off)
  let chunk := if cfg.rawChunkBytes < rest then cfg.rawChunkBytes else rest
  (uploadMsg trial aebTypeRawChunk index chunk, slice trial.raw off chunk)

def jitterValuesPerChunk (cfg : Config) : Nat :=
  if cfg.rawChunkBytes / 4 = 0 then 1 else cfg.rawChunkBytes / 4

def packDeltas (deltas : List UInt32) : Bytes := deltas.flatMap fun delta => leBytes 4 delta.toNat

def jitterChunkMsg (off chunkIndex : Nat) : AebMsg × Bytes :=
  let rest := u32 (trial.deltas.length + 2 ^ 32 - off)
  let values := if jitterValuesPerChunk cfg < rest then jitterValuesPerChunk cfg else rest
  (uploadMsg trial aebTypeJitterChunk chunkIndex (values * 4),
    packDeltas ((trial.deltas.drop off).take values))

/-- The loop over the deltas. Each pass moves `off` forward, so `delta_count`
passes are enough. -/
def jitterChunkMsgs : Nat → Nat → Nat → List (AebMsg × Bytes)
  | 0, _, _ => []
  | passes + 1, off, chunkIndex =>
      if off < trial.deltas.length then
        jitterChunkMsg trial off chunkIndex ::
          jitterChunkMsgs passes (u32 (off + jitterValuesPerChunk cfg)) (u32 (chunkIndex + 1))
      else []

def rawStreamMsgs : List (AebMsg × Bytes) :=
  (uploadMsg trial aebTypeRawBegin (rawChunks trial) trial.raw.length, []) ::
    ((List.range (rawChunks trial)).map (rawChunkMsg trial) ++
      (jitterChunkMsgs trial trial.deltas.length 0 0 ++
        [(uploadMsg trial aebTypeRawEnd (rawChunks trial) trial.raw.length, [])]))

/-- Send in order until a call fails. -/
def sendMsgs (cfg : Config) (calls : Nat → SendCall) : Nat → List (AebMsg × Bytes) → Int × List Bytes
  | _, [] => (0, [])
  | sent, (msg, payload) :: rest =>
      let (ret, datagram) := sendBinaryMsg cfg (calls sent) msg payload
      if ret ≠ 0 then (ret, datagram)
      else
        let (last, datagrams) := sendMsgs cfg calls (sent + 1) rest
        (last, datagram ++ datagrams)

/-- Return value of `send_raw_stream` and the datagrams that left. -/
def sendRawStream (calls : Nat → SendCall) : Int × List Bytes :=
  sendMsgs cfg calls 0 (rawStreamMsgs trial)

def datagram (message : AebMsg × Bytes) : Bytes := buildMsg message.1 ++ message.2

end Upload

def goodSends {cfg : Config} (trial : Trial cfg) (sent : Nat) : SendCall :=
  ⟨((aebHeaderLen + (((rawStreamMsgs trial)[sent]?.map (·.2.length)).getD 0) : Nat) : Int), 0⟩

section Upload

variable {cfg : Config} (trial : Trial cfg)

/-! ## What is in an upload -/

theorem send_msgs_sublist (cfg : Config) (calls : Nat → SendCall)
    (messages : List (AebMsg × Bytes)) :
    ∀ sent, (sendMsgs cfg calls sent messages).2.Sublist (messages.map datagram) := by
  induction messages with
  | nil => exact fun _ => List.Sublist.refl []
  | cons message rest ih =>
      intro sent
      obtain ⟨msg, payload⟩ := message
      have one : (sendBinaryMsg cfg (calls sent) msg payload).2.Sublist
          [datagram (msg, payload)] := by
        rw [sendBinaryMsg]
        split_ifs
        · exact List.nil_sublist _
        · exact List.nil_sublist _
        · exact List.nil_sublist _
        · exact List.Sublist.refl _
      rw [sendMsgs, List.map_cons]
      by_cases failed : (sendBinaryMsg cfg (calls sent) msg payload).1 ≠ 0
      · simp only [failed, if_true, ne_eq, not_false_eq_true]
        exact one.trans (List.singleton_sublist.mpr List.mem_cons_self)
      · simp only [failed, if_false]
        exact List.Sublist.append one (ih (sent + 1))

/-- The messages of an upload: two frames, the raw chunks and the jitter chunks by
index. -/
inductive Part where
  | rawBegin
  | rawChunk (index : Nat)
  | jitterChunk (index : Nat)
  | rawEnd
  deriving DecidableEq, Repr

def Part.type : Part → Nat
  | .rawBegin => aebTypeRawBegin
  | .rawChunk _ => aebTypeRawChunk
  | .jitterChunk _ => aebTypeJitterChunk
  | .rawEnd => aebTypeRawEnd

def rawCount : Nat := chunkCount cfg.rawChunkBytes trial.raw.length

def jitterCount : Nat := chunkCount (jitterValuesPerChunk cfg) trial.deltas.length

def rawPart (index : Nat) : Bytes := chunk cfg.rawChunkBytes trial.raw index

def jitterPart (index : Nat) : Bytes :=
  packDeltas (chunk (jitterValuesPerChunk cfg) trial.deltas index)

def parts : List Part :=
  .rawBegin :: ((List.range (rawCount trial)).map .rawChunk ++
    ((List.range (jitterCount trial)).map .jitterChunk ++ [.rawEnd]))

def partMsg : Part → AebMsg × Bytes
  | .rawBegin => (uploadMsg trial aebTypeRawBegin (rawCount trial) trial.raw.length, [])
  | .rawChunk index =>
      (uploadMsg trial aebTypeRawChunk index (rawPart trial index).length, rawPart trial index)
  | .jitterChunk index =>
      (uploadMsg trial aebTypeJitterChunk index (jitterPart trial index).length,
        jitterPart trial index)
  | .rawEnd => (uploadMsg trial aebTypeRawEnd (rawCount trial) trial.raw.length, [])

@[simp] theorem pack_deltas_length (deltas : List UInt32) :
    (packDeltas deltas).length = 4 * deltas.length := by
  induction deltas with
  | nil => rfl
  | cons delta rest ih =>
      rw [packDeltas, List.flatMap_cons, List.length_append, le_bytes_length, List.length_cons]
      rw [packDeltas] at ih
      omega

theorem jitter_values_per_chunk_pos (cfg : Config) : 0 < jitterValuesPerChunk cfg := by
  rw [jitterValuesPerChunk]
  split_ifs <;> omega

theorem jitter_values_per_chunk_le (cfg : Config) :
    jitterValuesPerChunk cfg ≤ cfg.rawChunkBytes := by
  have positive := cfg.chunkPositive
  rw [jitterValuesPerChunk]
  split_ifs <;> omega

theorem raw_chunks_eq : rawChunks trial = rawCount trial := by
  have rawFits := trial.rawFits
  have bufFits := cfg.rawBufFits
  have txFits := cfg.txBufFits
  have positive := cfg.chunkPositive
  rw [aebHeaderLen] at txFits
  have sum : u32 (u32 (trial.raw.length + cfg.rawChunkBytes) + 2 ^ 32 - 1) =
      trial.raw.length + cfg.rawChunkBytes - 1 := by
    rw [u32, u32]
    omega
  rw [rawChunks, sum, rawCount, chunkCount]

theorem raw_chunk_msg_eq {index : Nat} (inside : index < rawCount trial) :
    rawChunkMsg trial index = partMsg trial (.rawChunk index) := by
  have start := chunk_start_lt cfg.chunkPositive inside
  have rawFits := trial.rawFits
  have bufFits := cfg.rawBufFits
  have off : u32 (index * cfg.rawChunkBytes) = index * cfg.rawChunkBytes := by
    rw [u32]
    omega
  have rest : u32 (trial.raw.length + 2 ^ 32 - index * cfg.rawChunkBytes) =
      trial.raw.length - index * cfg.rawChunkBytes := by
    rw [u32]
    omega
  have size : (if cfg.rawChunkBytes < trial.raw.length - index * cfg.rawChunkBytes then
      cfg.rawChunkBytes else trial.raw.length - index * cfg.rawChunkBytes) =
      (rawPart trial index).length := by
    rw [rawPart, chunk_length]
    split_ifs <;> omega
  have bytes : slice trial.raw (index * cfg.rawChunkBytes) (rawPart trial index).length =
      rawPart trial index := by
    rw [slice, rawPart, chunk, List.length_take, List.take_eq_take_min, Nat.min_assoc, Nat.min_self,
      ← List.take_eq_take_min]
  simp only [rawChunkMsg, off, rest, size, bytes, partMsg]

theorem jitter_chunk_msg_eq {index : Nat} (inside : index < jitterCount trial) :
    jitterChunkMsg trial (index * jitterValuesPerChunk cfg) index =
      partMsg trial (.jitterChunk index) := by
  have start := chunk_start_lt (jitter_values_per_chunk_pos cfg) inside
  have deltasFit := trial.deltasFit
  have bufFits := cfg.jitterUsFits
  have rest : u32 (trial.deltas.length + 2 ^ 32 - index * jitterValuesPerChunk cfg) =
      trial.deltas.length - index * jitterValuesPerChunk cfg := by
    rw [u32]
    omega
  have size : (if jitterValuesPerChunk cfg <
        trial.deltas.length - index * jitterValuesPerChunk cfg then jitterValuesPerChunk cfg
      else trial.deltas.length - index * jitterValuesPerChunk cfg) =
      (chunk (jitterValuesPerChunk cfg) trial.deltas index).length := by
    rw [chunk_length]
    split_ifs <;> omega
  have values : (trial.deltas.drop (index * jitterValuesPerChunk cfg)).take
      (chunk (jitterValuesPerChunk cfg) trial.deltas index).length =
      chunk (jitterValuesPerChunk cfg) trial.deltas index := by
    rw [chunk, List.length_take, List.take_eq_take_min, Nat.min_assoc, Nat.min_self,
      ← List.take_eq_take_min]
  simp only [jitterChunkMsg, rest, size, values, partMsg, jitterPart, pack_deltas_length,
    Nat.mul_comm 4]

theorem jitter_count_past {index : Nat}
    (beyond : trial.deltas.length ≤ index * jitterValuesPerChunk cfg) :
    jitterCount trial - index = 0 := by
  by_contra inside
  have start : index * jitterValuesPerChunk cfg < trial.deltas.length :=
    chunk_start_lt (jitter_values_per_chunk_pos cfg) (Nat.lt_of_sub_ne_zero inside)
  omega

theorem jitter_chunk_msgs_eq (passes : Nat) : ∀ index,
    trial.deltas.length ≤ passes + index * jitterValuesPerChunk cfg →
    jitterChunkMsgs trial passes (index * jitterValuesPerChunk cfg) index =
      (List.range' index (jitterCount trial - index)).map fun k => partMsg trial (.jitterChunk k) := by
  have positive := jitter_values_per_chunk_pos cfg
  have bounded := jitter_values_per_chunk_le cfg
  have deltasFit := trial.deltasFit
  have bufFits := cfg.jitterUsFits
  have txFits := cfg.txBufFits
  rw [aebHeaderLen] at txFits
  induction passes with
  | zero =>
      intro index enough
      rw [jitter_count_past trial (by omega)]
      rfl
  | succ passes ih =>
      intro index enough
      rw [jitterChunkMsgs]
      by_cases more : index * jitterValuesPerChunk cfg < trial.deltas.length
      · have covers := length_le_chunk_count_mul positive trial.deltas.length
        have inside : index < jitterCount trial :=
          Nat.lt_of_mul_lt_mul_right (Nat.lt_of_lt_of_le more covers)
        have steps : index ≤ index * jitterValuesPerChunk cfg := Nat.le_mul_of_pos_right _ positive
        have off : u32 (index * jitterValuesPerChunk cfg + jitterValuesPerChunk cfg) =
            (index + 1) * jitterValuesPerChunk cfg := by
          rw [u32, Nat.succ_mul]
          omega
        have next : u32 (index + 1) = index + 1 := by
          rw [u32]
          omega
        rw [if_pos more, jitter_chunk_msg_eq trial inside, off, next,
          ih (index + 1) (by rw [Nat.succ_mul]; omega),
          show jitterCount trial - index = (jitterCount trial - (index + 1)) + 1 by omega,
          List.range'_succ, List.map_cons]
      · rw [if_neg more, jitter_count_past trial (by omega)]
        rfl

theorem raw_stream_msgs_eq : rawStreamMsgs trial = (parts trial).map (partMsg trial) := by
  have jitter := jitter_chunk_msgs_eq trial trial.deltas.length 0 (by omega)
  rw [Nat.zero_mul, Nat.sub_zero, ← List.range_eq_range'] at jitter
  have raw : (List.range (rawCount trial)).map (rawChunkMsg trial) =
      (List.range (rawCount trial)).map fun index => partMsg trial (.rawChunk index) := by
    apply List.map_congr_left
    intro index member
    exact raw_chunk_msg_eq trial (List.mem_range.mp member)
  rw [rawStreamMsgs, raw_chunks_eq, raw, jitter, parts]
  simp only [List.map_cons, List.map_append, List.map_map, List.map_nil, partMsg]
  rfl

theorem send_raw_stream_subset (calls : Nat → SendCall) {sent : Bytes}
    (member : sent ∈ (sendRawStream trial calls).2) :
    ∃ part ∈ parts trial, sent = datagram (partMsg trial part) := by
  have inside := (send_msgs_sublist cfg calls (rawStreamMsgs trial) 0).subset member
  rw [raw_stream_msgs_eq, List.map_map, List.mem_map] at inside
  obtain ⟨part, partMember, eq⟩ := inside
  exact ⟨part, partMember, eq.symm⟩

end Upload

end BootEntropy.Aeb
