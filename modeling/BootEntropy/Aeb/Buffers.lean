import BootEntropy.Aeb.Codec
import BootEntropy.Lib.Checked

/-!
# The buffers of an upload

`send_binary_msg` and `send_raw_stream` again, with every store into `tx_buf` and
`jitter_payload`, every load and every 32-bit operation checked. Where the checks
hold, the upload is the one without buffers.
-/

namespace BootEntropy.Aeb

open BootEntropy.Lib

set_option autoImplicit false

/-! ## Firmware -/

abbrev TxBuf (cfg : Config) := Block (aebHeaderLen + cfg.rawChunkBytes)

/-- `tx_buf`, and account of the calls of `zsock_send` and the datagrams that left. -/
structure Uploading (cfg : Config) where
  txBuf : TxBuf cfg
  sent : Nat
  datagrams : List Bytes

abbrev Sender (cfg : Config) := Uploading cfg → Checked (Int × Uploading cfg)

/-- `if (ret != 0) return ret;` between two statements -/
def Sender.andThen {cfg : Config} (first second : Sender cfg) : Sender cfg := fun state => do
  let done ← first state
  if done.1 ≠ 0 then .ok done else second done.2

section Buffers

variable {cfg : Config} (trial : Trial cfg) (calls : Nat → SendCall)

/-- `payload` is loaded only when there is something to copy. -/
def copyPayload (txBuf : TxBuf cfg) (payloadLen : Nat) (payload : Checked Bytes) :
    Checked (TxBuf cfg) :=
  if 0 < payloadLen then do
    let bytes ← payload
    Cells.write txBuf aebHeaderLen bytes
  else .ok txBuf

def sendBinaryMsgIn (msg : AebMsg) (payloadLen : Nat) (payload : Checked Bytes) : Sender cfg :=
  fun state =>
    if cfg.rawChunkBytes < payloadLen then .ok (-eMSGSIZE, state)
    else do
      let call := calls state.sent
      let headed ← Cells.write state.txBuf 0 (buildMsg msg)
      let txBuf ← copyPayload headed payloadLen payload
      let frame ← Cells.read txBuf 0 (aebHeaderLen + payloadLen)
      let after := { state with txBuf := txBuf, sent := state.sent + 1 }
      return if call.ret < 0 then (-call.errno, after)
        else if call.ret ≠ aebHeaderLen + payloadLen then (-eIo, after)
        else (0, { after with datagrams := state.datagrams ++ [frame] })

/-- The loop over the raw chunks with `left` passes to go. -/
def rawLoop : Nat → Nat → Sender cfg
  | 0, _ => fun state => .ok (0, state)
  | left + 1, i => fun state => do
      let off ← checkedMul 32 i cfg.rawChunkBytes
      let rest ← checkedSub trial.raw.length off
      let chunk := if cfg.rawChunkBytes < rest then cfg.rawChunkBytes else rest
      let send := sendBinaryMsgIn calls (uploadMsg trial aebTypeRawChunk i chunk) chunk
        (Cells.read (⟨trial.raw, rfl⟩ : Block trial.raw.length) off chunk)
      Sender.andThen send (rawLoop left (i + 1)) state

/-- The inner loop: the deltas from `off` on into `jitter_payload`. -/
def packValues (off : Nat) :
    Nat → Nat → Block cfg.rawChunkBytes → Checked (Block cfg.rawChunkBytes)
  | 0, _, payload => .ok payload
  | left + 1, i, payload => do
      let index ← checkedAdd 32 off i
      let delta ← Cells.read (⟨trial.deltas, rfl⟩ : Cells UInt32 trial.deltas.length) index 1
      let place ← checkedMul 32 i 4
      let stored ← Cells.write payload place (packDeltas delta)
      packValues off left (i + 1) stored

/-- The loop over the deltas. Each pass moves `off` forward, so `delta_count` passes are
enough. -/
def jitterLoop : Nat → Nat → Nat → Block cfg.rawChunkBytes → Sender cfg
  | 0, _, _, _ => fun state => .ok (0, state)
  | passes + 1, off, chunkIndex, payload => fun state =>
      if off < trial.deltas.length then do
        let rest ← checkedSub trial.deltas.length off
        let values := if jitterValuesPerChunk cfg < rest then jitterValuesPerChunk cfg else rest
        let packed ← packValues trial off values 0 payload
        let payloadLen ← checkedMul 32 values 4
        let send := sendBinaryMsgIn calls (uploadMsg trial aebTypeJitterChunk chunkIndex payloadLen)
          payloadLen (Cells.read packed 0 payloadLen)
        let next : Sender cfg := fun state => do
          let nextOff ← checkedAdd 32 off (jitterValuesPerChunk cfg)
          let nextIndex ← checkedAdd 32 chunkIndex 1
          jitterLoop passes nextOff nextIndex packed state
        Sender.andThen send next state
      else .ok (0, state)

/-- `send_raw_stream` with what `jitter_payload` holds at first. -/
def sendRawStreamIn (payload : Block cfg.rawChunkBytes) : Sender cfg := fun state => do
  let sum ← checkedAdd 32 trial.raw.length cfg.rawChunkBytes
  let sum ← checkedSub sum 1
  let rawChunks ← checkedDiv sum cfg.rawChunkBytes
  let frame (type : Nat) : Sender cfg :=
    sendBinaryMsgIn calls (uploadMsg trial type rawChunks trial.raw.length) 0 (.ok [])
  Sender.andThen (frame aebTypeRawBegin)
    (Sender.andThen (rawLoop trial calls rawChunks 0)
      (Sender.andThen (jitterLoop trial calls trial.deltas.length 0 0 payload)
        (frame aebTypeRawEnd))) state

/-! ## Without buffers -/

/-- The sender does not fault, returns what `sendMsgs` returns, and the same datagrams
leave. -/
def Plays (sender : Sender cfg) (messages : List (AebMsg × Bytes)) : Prop :=
  ∀ state, ∃ after,
    sender state = .ok ((sendMsgs cfg calls state.sent messages).1, after) ∧
    after.datagrams = state.datagrams ++ (sendMsgs cfg calls state.sent messages).2 ∧
    ((sendMsgs cfg calls state.sent messages).1 = 0 → after.sent = state.sent + messages.length)

theorem send_msgs_cons (cfg : Config) (calls : Nat → SendCall) (sent : Nat)
    (message : AebMsg × Bytes) (rest : List (AebMsg × Bytes)) :
    sendMsgs cfg calls sent (message :: rest) =
      if (sendBinaryMsg cfg (calls sent) message.1 message.2).1 ≠ 0 then
        sendBinaryMsg cfg (calls sent) message.1 message.2
      else ((sendMsgs cfg calls (sent + 1) rest).1,
        (sendBinaryMsg cfg (calls sent) message.1 message.2).2 ++
          (sendMsgs cfg calls (sent + 1) rest).2) := rfl

theorem send_msgs_append (cfg : Config) (calls : Nat → SendCall)
    (front back : List (AebMsg × Bytes)) : ∀ sent,
    sendMsgs cfg calls sent (front ++ back) =
      if (sendMsgs cfg calls sent front).1 ≠ 0 then sendMsgs cfg calls sent front
      else ((sendMsgs cfg calls (sent + front.length) back).1,
        (sendMsgs cfg calls sent front).2 ++ (sendMsgs cfg calls (sent + front.length) back).2) := by
  induction front with
  | nil =>
      intro sent
      rw [sendMsgs, if_neg (by decide)]
      rfl
  | cons message front ih =>
      intro sent
      rw [List.cons_append, send_msgs_cons, send_msgs_cons, ih (sent + 1), List.length_cons,
        Nat.add_assoc, Nat.add_comm 1]
      by_cases failed : (sendBinaryMsg cfg (calls sent) message.1 message.2).1 = 0
      · by_cases later : (sendMsgs cfg calls (sent + 1) front).1 = 0
        · simp [failed, later]
        · simp [failed, later]
      · simp [failed]

theorem send_msgs_singleton (cfg : Config) (calls : Nat → SendCall) (sent : Nat)
    (message : AebMsg × Bytes) :
    sendMsgs cfg calls sent [message] = sendBinaryMsg cfg (calls sent) message.1 message.2 := by
  rw [send_msgs_cons]
  by_cases failed : (sendBinaryMsg cfg (calls sent) message.1 message.2).1 ≠ 0
  · rw [if_pos failed]
  · rw [if_neg failed, sendMsgs, List.append_nil, ← not_not.mp failed]

variable {calls}

theorem plays_nothing : Plays calls (fun state : Uploading cfg => .ok (0, state)) [] := by
  intro state
  exact ⟨state, rfl, (List.append_nil _).symm, fun _ => rfl⟩

theorem Plays.andThen {first second : Sender cfg} {front back : List (AebMsg × Bytes)}
    (left : Plays calls first front) (right : Plays calls second back) :
    Plays calls (first.andThen second) (front ++ back) := by
  intro state
  obtain ⟨middle, run, datagrams, sent⟩ := left state
  rw [send_msgs_append, Sender.andThen, run, ok_bind]
  by_cases failed : (sendMsgs cfg calls state.sent front).1 ≠ 0
  · rw [if_pos failed, if_pos failed]
    exact ⟨middle, rfl, datagrams, fun none => absurd none failed⟩
  · obtain ⟨after, rest, behind, count⟩ := right middle
    have counted := sent (not_not.mp failed)
    rw [counted] at rest behind count
    rw [if_neg failed, if_neg failed]
    refine ⟨after, rest, ?_, ?_⟩
    · rw [behind, datagrams, List.append_assoc]
    · intro none
      rw [count none, List.length_append, Nat.add_assoc]

theorem copy_payload_ok {headed : TxBuf cfg} {header payload : Bytes}
    (front : headed.val.take aebHeaderLen = header) (fits : payload.length ≤ cfg.rawChunkBytes) :
    ∃ txBuf, copyPayload headed payload.length (.ok payload) = .ok txBuf ∧
      txBuf.val.take (aebHeaderLen + payload.length) = header ++ payload := by
  rw [copyPayload]
  by_cases some : 0 < payload.length
  · have room : aebHeaderLen + payload.length ≤ aebHeaderLen + cfg.rawChunkBytes := by omega
    have whole := Cells.take_written headed room
    rw [front] at whole
    rw [if_pos some, ok_bind, Cells.write_ok _ room]
    exact ⟨_, rfl, whole⟩
  · have none : payload = [] := List.length_eq_zero_iff.mp (by omega)
    rw [if_neg some]
    refine ⟨headed, rfl, ?_⟩
    rw [none, List.append_nil]
    exact front

theorem plays_send (msg : AebMsg) (payload : Bytes) (fits : payload.length ≤ cfg.rawChunkBytes) :
    Plays calls (sendBinaryMsgIn calls msg payload.length (.ok payload) : Sender cfg)
      [(msg, payload)] := by
  intro state
  have header : (buildMsg msg).length = aebHeaderLen := build_msg_length msg
  have roomHeader : 0 + (buildMsg msg).length ≤ aebHeaderLen + cfg.rawChunkBytes := by omega
  have front := Cells.take_written state.txBuf roomHeader
  rw [Nat.zero_add, List.take_zero, List.nil_append, header] at front
  obtain ⟨txBuf, copying, frame⟩ := copy_payload_ok front fits
  have loaded : Cells.read txBuf 0 (aebHeaderLen + payload.length) =
      .ok (buildMsg msg ++ payload) := by
    rw [Cells.read_ok _ (by omega), List.drop_zero, frame]
  rw [sendBinaryMsgIn, if_neg (Nat.not_lt_of_le fits), Cells.write_ok _ roomHeader, ok_bind,
    copying, ok_bind, loaded, ok_bind, send_msgs_singleton, sendBinaryMsg,
    if_neg (Nat.not_lt_of_le fits)]
  split_ifs
  · exact ⟨_, rfl, (List.append_nil _).symm, fun _ => rfl⟩
  · exact ⟨_, rfl, (List.append_nil _).symm, fun _ => rfl⟩
  · exact ⟨_, rfl, rfl, fun _ => rfl⟩

/-! ## The loops -/

theorem raw_part_length_le (index : Nat) : (rawPart trial index).length ≤ cfg.rawChunkBytes := by
  rw [rawPart, chunk_length]
  exact Nat.min_le_left ..

/-- Neither the offset nor the rest of a chunk wraps. -/
theorem raw_loop_plays (left : Nat) : ∀ i, i + left ≤ rawCount trial →
    Plays calls (rawLoop trial calls left i)
      ((List.range' i left).map fun index => partMsg trial (.rawChunk index)) := by
  have rawFits := trial.rawFits
  have bufFits := cfg.rawBufFits
  induction left with
  | zero => exact fun _ _ => plays_nothing
  | succ left ih =>
      intro i inside state
      have start := chunk_start_lt cfg.chunkPositive (show i < rawCount trial by omega)
      have size : (if cfg.rawChunkBytes < trial.raw.length - i * cfg.rawChunkBytes then
          cfg.rawChunkBytes else trial.raw.length - i * cfg.rawChunkBytes) =
          (rawPart trial i).length := by
        rw [rawPart, chunk_length]
        split_ifs <;> omega
      have off : checkedMul 32 i cfg.rawChunkBytes = .ok (i * cfg.rawChunkBytes) :=
        if_pos (by omega)
      have rest : checkedSub trial.raw.length (i * cfg.rawChunkBytes) =
          .ok (trial.raw.length - i * cfg.rawChunkBytes) := if_pos (by omega)
      have last : i * cfg.rawChunkBytes + (rawPart trial i).length ≤ trial.raw.length := by
        rw [rawPart, chunk_length]
        omega
      have loaded : Cells.read (⟨trial.raw, rfl⟩ : Block trial.raw.length) (i * cfg.rawChunkBytes)
          (rawPart trial i).length = .ok (rawPart trial i) := by
        rw [Cells.read_ok _ last, rawPart, chunk, List.length_take, List.take_eq_take_min,
          Nat.min_assoc, Nat.min_self, ← List.take_eq_take_min]
      have one := @plays_send cfg calls (partMsg trial (.rawChunk i)).1 (rawPart trial i)
        (raw_part_length_le trial i)
      have both := one.andThen (ih (i + 1) (by omega))
      rw [rawLoop]
      dsimp only
      rw [off, ok_bind, rest, ok_bind, size, loaded, List.range'_succ, List.map_cons]
      exact both state

theorem pack_deltas_append (front back : List UInt32) :
    packDeltas (front ++ back) = packDeltas front ++ packDeltas back := List.flatMap_append

theorem pack_values_ok (off : Nat) (left : Nat) : ∀ (i : Nat) (payload : Block cfg.rawChunkBytes),
    off + i + left ≤ trial.deltas.length → (i + left) * 4 ≤ cfg.rawChunkBytes →
    payload.val.take (i * 4) = packDeltas ((trial.deltas.drop off).take i) →
    ∃ packed, packValues trial off left i payload = .ok packed ∧
      packed.val.take ((i + left) * 4) = packDeltas ((trial.deltas.drop off).take (i + left)) := by
  have deltasFit := trial.deltasFit
  have bufFits := cfg.jitterUsFits
  have txFits := cfg.txBufFits
  rw [aebHeaderLen] at txFits
  induction left with
  | zero => exact fun _ payload _ _ filled => ⟨payload, rfl, filled⟩
  | succ left ih =>
      intro i payload inside fits filled
      have index : checkedAdd 32 off i = .ok (off + i) := if_pos (by omega)
      have place : checkedMul 32 i 4 = .ok (i * 4) := if_pos (by omega)
      have loaded : Cells.read (⟨trial.deltas, rfl⟩ : Cells UInt32 trial.deltas.length) (off + i) 1 =
          .ok ((trial.deltas.drop (off + i)).take 1) := Cells.read_ok _ (by omega)
      have four : (packDeltas ((trial.deltas.drop (off + i)).take 1)).length = 4 := by
        rw [pack_deltas_length, List.length_take, List.length_drop]
        omega
      have room : i * 4 + (packDeltas ((trial.deltas.drop (off + i)).take 1)).length ≤
          cfg.rawChunkBytes := by omega
      have grown := Cells.take_written payload room
      have next : (trial.deltas.drop off).take i ++ (trial.deltas.drop (off + i)).take 1 =
          (trial.deltas.drop off).take (i + 1) := by
        rw [← List.drop_drop, ← List.take_add]
      rw [four, ← Nat.succ_mul, filled, ← pack_deltas_append, next] at grown
      obtain ⟨packed, run, done⟩ := ih (i + 1) _ (by omega) (by omega) grown
      rw [packValues, index, ok_bind, loaded, ok_bind, place, ok_bind, Cells.write_ok _ room,
        ok_bind, show i + (left + 1) = i + 1 + left by omega]
      exact ⟨packed, run, done⟩

theorem jitter_part_eq (index : Nat) {values : Nat}
    (size : values = (chunk (jitterValuesPerChunk cfg) trial.deltas index).length) :
    packDeltas ((trial.deltas.drop (index * jitterValuesPerChunk cfg)).take values) =
      jitterPart trial index := by
  rw [jitterPart, size, chunk, List.length_take, List.take_eq_take_min, Nat.min_assoc,
    Nat.min_self, ← List.take_eq_take_min]

theorem values_fit (room : 4 ≤ cfg.rawChunkBytes) :
    jitterValuesPerChunk cfg * 4 ≤ cfg.rawChunkBytes := by
  rw [jitterValuesPerChunk, if_neg (by omega)]
  omega

theorem jitter_loop_plays (room : 4 ≤ cfg.rawChunkBytes) (passes : Nat) :
    ∀ (index : Nat) (payload : Block cfg.rawChunkBytes),
    trial.deltas.length ≤ passes + index * jitterValuesPerChunk cfg →
    Plays calls (jitterLoop trial calls passes (index * jitterValuesPerChunk cfg) index payload)
      ((List.range' index (jitterCount trial - index)).map fun k =>
        partMsg trial (.jitterChunk k)) := by
  have positive := jitter_values_per_chunk_pos cfg
  have deltasFit := trial.deltasFit
  have bufFits := cfg.jitterUsFits
  have txFits := cfg.txBufFits
  have valuesFit := values_fit room
  rw [aebHeaderLen] at txFits
  induction passes with
  | zero =>
      intro index payload enough
      rw [jitter_count_past trial (by omega)]
      exact plays_nothing
  | succ passes ih =>
      intro index payload enough state
      by_cases more : index * jitterValuesPerChunk cfg < trial.deltas.length
      · have steps : index ≤ index * jitterValuesPerChunk cfg := Nat.le_mul_of_pos_right _ positive
        have covers := length_le_chunk_count_mul positive trial.deltas.length
        have inside : index < jitterCount trial :=
          Nat.lt_of_mul_lt_mul_right (Nat.lt_of_lt_of_le more covers)
        have length := chunk_length (jitterValuesPerChunk cfg) trial.deltas index
        generalize values : (chunk (jitterValuesPerChunk cfg) trial.deltas index).length = count
          at length
        have bytes := jitter_part_eq trial index values.symm
        have size : (jitterPart trial index).length = count * 4 := by
          rw [jitterPart, pack_deltas_length, values, Nat.mul_comm]
        have fits : count * 4 ≤ cfg.rawChunkBytes :=
          (Nat.mul_le_mul_right 4 (length ▸ Nat.min_le_left ..)).trans valuesFit
        have rest : checkedSub trial.deltas.length (index * jitterValuesPerChunk cfg) =
            .ok (trial.deltas.length - index * jitterValuesPerChunk cfg) := if_pos (by omega)
        have cut : (if jitterValuesPerChunk cfg <
            trial.deltas.length - index * jitterValuesPerChunk cfg then jitterValuesPerChunk cfg
            else trial.deltas.length - index * jitterValuesPerChunk cfg) = count := by
          rw [length]
          split_ifs <;> omega
        have payloadLen : checkedMul 32 count 4 = .ok (jitterPart trial index).length := by
          rw [size]
          exact if_pos (by omega)
        have nextOff : checkedAdd 32 (index * jitterValuesPerChunk cfg) (jitterValuesPerChunk cfg) =
            .ok ((index + 1) * jitterValuesPerChunk cfg) := by
          rw [Nat.succ_mul]
          exact if_pos (by omega)
        have nextIndex : checkedAdd 32 index 1 = .ok (index + 1) := if_pos (by omega)
        obtain ⟨packed, packing, filled⟩ := pack_values_ok trial
          (index * jitterValuesPerChunk cfg) count 0 payload (by omega) (by omega) rfl
        rw [Nat.zero_add, bytes, ← size] at filled
        have loaded : Cells.read packed 0 (jitterPart trial index).length =
            .ok (jitterPart trial index) := by
          rw [Cells.read_ok _ (by omega), List.drop_zero, filled]
        have one := @plays_send cfg calls (partMsg trial (.jitterChunk index)).1
          (jitterPart trial index) (by omega)
        have later : Plays calls (fun state => do
            let nextOff ← checkedAdd 32 (index * jitterValuesPerChunk cfg) (jitterValuesPerChunk cfg)
            let nextIndex ← checkedAdd 32 index 1
            jitterLoop trial calls passes nextOff nextIndex packed state)
            ((List.range' (index + 1) (jitterCount trial - (index + 1))).map fun k =>
              partMsg trial (.jitterChunk k)) := by
          rw [nextOff, nextIndex]
          exact ih (index + 1) packed (by rw [Nat.succ_mul]; omega)
        have both := one.andThen later
        rw [jitterLoop]
        dsimp only
        rw [if_pos more, rest, ok_bind, cut, packing, ok_bind, payloadLen, ok_bind, loaded,
          show jitterCount trial - index = (jitterCount trial - (index + 1)) + 1 by omega,
          List.range'_succ, List.map_cons]
        exact both state
      · rw [jitter_count_past trial (by omega), jitterLoop]
        dsimp only
        rw [if_neg more]
        exact plays_nothing state

/-! ## The whole upload -/

/-- The condition on the build and the trial: a value fits, or there is none. -/
def ValuesFit : Prop := 4 ≤ cfg.rawChunkBytes ∨ trial.deltas = []

theorem send_raw_stream_in_eq (payload : Block cfg.rawChunkBytes) :
    sendRawStreamIn trial calls payload =
      Sender.andThen (sendBinaryMsgIn calls (partMsg trial .rawBegin).1 0 (.ok []))
        (Sender.andThen (rawLoop trial calls (rawCount trial) 0)
          (Sender.andThen (jitterLoop trial calls trial.deltas.length 0 0 payload)
            (sendBinaryMsgIn calls (partMsg trial .rawEnd).1 0 (.ok [])))) := by
  have rawFits := trial.rawFits
  have bufFits := cfg.rawBufFits
  have txFits := cfg.txBufFits
  have positive := cfg.chunkPositive
  rw [aebHeaderLen] at txFits
  have sum : checkedAdd 32 trial.raw.length cfg.rawChunkBytes =
      .ok (trial.raw.length + cfg.rawChunkBytes) := if_pos (by omega)
  have less : checkedSub (trial.raw.length + cfg.rawChunkBytes) 1 =
      .ok (trial.raw.length + cfg.rawChunkBytes - 1) := if_pos (by omega)
  have chunks : checkedDiv (trial.raw.length + cfg.rawChunkBytes - 1) cfg.rawChunkBytes =
      .ok (rawCount trial) := checked_div_ok positive
  funext state
  rw [sendRawStreamIn, sum, ok_bind, less, ok_bind, chunks, ok_bind]
  rfl

theorem raw_begin_plays : Plays calls
    (sendBinaryMsgIn calls (partMsg trial .rawBegin).1 0 (.ok []) : Sender cfg)
    [partMsg trial .rawBegin] := plays_send _ [] (Nat.zero_le _)

theorem raw_end_plays : Plays calls
    (sendBinaryMsgIn calls (partMsg trial .rawEnd).1 0 (.ok []) : Sender cfg)
    [partMsg trial .rawEnd] := plays_send _ [] (Nat.zero_le _)

theorem raw_chunks_play : Plays calls (rawLoop trial calls (rawCount trial) 0)
    ((List.range (rawCount trial)).map fun k => partMsg trial (.rawChunk k)) := by
  have raw := @raw_loop_plays cfg trial calls (rawCount trial) 0 (by omega)
  rwa [← List.range_eq_range'] at raw

theorem jitter_chunks_play (fits : ValuesFit trial) (payload : Block cfg.rawChunkBytes) :
    Plays calls (jitterLoop trial calls trial.deltas.length 0 0 payload)
      ((List.range (jitterCount trial)).map fun k => partMsg trial (.jitterChunk k)) := by
  rcases fits with room | none
  · have loop := @jitter_loop_plays cfg trial calls room trial.deltas.length 0 payload (by omega)
    rwa [Nat.zero_mul, Nat.sub_zero, ← List.range_eq_range'] at loop
  · have nothing : jitterCount trial = 0 := by
      have past := @jitter_count_past cfg trial 0 (by rw [none]; exact Nat.zero_le _)
      omega
    rw [nothing, none]
    exact plays_nothing

theorem raw_stream_msgs_append :
    rawStreamMsgs trial = [partMsg trial .rawBegin] ++
      ((List.range (rawCount trial)).map (fun k => partMsg trial (.rawChunk k)) ++
        ((List.range (jitterCount trial)).map (fun k => partMsg trial (.jitterChunk k)) ++
          [partMsg trial .rawEnd])) := by
  rw [raw_stream_msgs_eq, parts]
  simp only [List.map_cons, List.map_append, List.map_map, List.map_nil, List.singleton_append]
  rfl

theorem send_raw_stream_in_plays (fits : ValuesFit trial) (payload : Block cfg.rawChunkBytes) :
    Plays calls (sendRawStreamIn trial calls payload) (rawStreamMsgs trial) := by
  rw [send_raw_stream_in_eq, raw_stream_msgs_append]
  exact (raw_begin_plays trial).andThen ((raw_chunks_play trial).andThen
    ((jitter_chunks_play trial fits payload).andThen (raw_end_plays trial)))

/-! ## What arrives -/

def AllSent (calls : Nat → SendCall) : Prop :=
  ∀ i message, (rawStreamMsgs trial)[i]? = some message →
    (calls i).ret = aebHeaderLen + message.2.length

theorem send_msgs_all {messages : List (AebMsg × Bytes)}
    (small : ∀ message ∈ messages, message.2.length ≤ cfg.rawChunkBytes) : ∀ sent,
    (∀ i message, messages[i]? = some message →
      (calls (sent + i)).ret = aebHeaderLen + message.2.length) →
    sendMsgs cfg calls sent messages = (0, messages.map datagram) := by
  induction messages with
  | nil => exact fun _ _ => rfl
  | cons message messages ih =>
      intro sent all
      have first := all 0 message rfl
      rw [Nat.add_zero] at first
      have one : sendBinaryMsg cfg (calls sent) message.1 message.2 = (0, [datagram message]) := by
        have fits := small message (List.mem_cons_self ..)
        rw [sendBinaryMsg, if_neg (by omega), if_neg (by omega), if_neg (by omega)]
        rfl
      have rest := ih (fun other member => small other (List.mem_cons_of_mem message member))
        (sent + 1) (by
          intro i other known
          rw [Nat.add_right_comm, Nat.add_assoc]
          exact all (i + 1) other known)
      rw [send_msgs_cons, one, rest]
      rfl

def payloadsOf (type : Nat) (sent : List Bytes) : Bytes :=
  sent.flatMap fun data =>
    match parseMsg data with
    | .error _ => []
    | .ok msg => if msg.type.toNat = type then data.drop aebHeaderLen else []

theorem payloads_of_datagrams (type : Nat) (messages : List (AebMsg × Bytes)) :
    payloadsOf type (messages.map datagram) =
      messages.flatMap fun message => if message.1.type.toNat = type then message.2 else [] := by
  rw [payloadsOf, List.flatMap_map]
  apply List.flatMap_congr
  intro message _
  obtain ⟨header, parsed⟩ := parse_msg_build_msg message.1 message.2
  rw [datagram, parsed]
  dsimp only
  rw [List.drop_left' (build_msg_length message.1)]

theorem part_payload_le (fits : ValuesFit trial) {part : Part} (member : part ∈ parts trial) :
    (partMsg trial part).2.length ≤ cfg.rawChunkBytes := by
  cases part with
  | rawBegin => exact Nat.zero_le _
  | rawChunk index => exact raw_part_length_le trial index
  | jitterChunk index =>
      have length := chunk_length (jitterValuesPerChunk cfg) trial.deltas index
      show (jitterPart trial index).length ≤ _
      rw [jitterPart, pack_deltas_length]
      rcases fits with room | none
      · have valuesFit := values_fit room
        omega
      · rw [none, List.length_nil] at length
        rw [none]
        omega
  | rawEnd => exact Nat.zero_le _

theorem part_type (part : Part) : (partMsg trial part).1.type.toNat = part.type := by
  cases part <;> rfl

theorem payloads_of_parts (type : Nat) :
    payloadsOf type ((rawStreamMsgs trial).map datagram) =
      (parts trial).flatMap fun part => if part.type = type then (partMsg trial part).2 else [] := by
  rw [payloads_of_datagrams, raw_stream_msgs_eq, List.flatMap_map]
  apply List.flatMap_congr
  intro part _
  rw [part_type]

/-- The chunks of an upload are the window and the deltas, each once and in order. -/
theorem upload_payloads :
    payloadsOf aebTypeRawChunk ((rawStreamMsgs trial).map datagram) = trial.raw ∧
      payloadsOf aebTypeJitterChunk ((rawStreamMsgs trial).map datagram) =
        packDeltas trial.deltas := by
  have raw := flat_map_chunk cfg.chunkPositive trial.raw
  have jitter := flat_map_chunk (jitter_values_per_chunk_pos cfg) trial.deltas
  have none (count : Nat) : (List.range count).flatMap (fun _ => ([] : Bytes)) = [] :=
    List.flatMap_eq_nil_iff.mpr fun _ _ => rfl
  constructor
  · rw [payloads_of_parts, parts, List.flatMap_cons, List.flatMap_append, List.flatMap_append,
      List.flatMap_map, List.flatMap_map]
    show [] ++ ((List.range (rawCount trial)).flatMap (rawPart trial) ++
      ((List.range (jitterCount trial)).flatMap (fun _ => []) ++ [])) = trial.raw
    rw [none, List.append_nil, List.append_nil, List.nil_append]
    exact raw
  · rw [payloads_of_parts, parts, List.flatMap_cons, List.flatMap_append, List.flatMap_append,
      List.flatMap_map, List.flatMap_map]
    show [] ++ ((List.range (rawCount trial)).flatMap (fun _ => []) ++
      ((List.range (jitterCount trial)).flatMap (jitterPart trial) ++ [])) = packDeltas trial.deltas
    rw [none, List.append_nil, List.nil_append, List.nil_append]
    calc (List.range (jitterCount trial)).flatMap (jitterPart trial)
        = packDeltas ((List.range (jitterCount trial)).flatMap
            (chunk (jitterValuesPerChunk cfg) trial.deltas)) := List.flatMap_assoc.symm
      _ = packDeltas trial.deltas := congrArg packDeltas jitter

/-! ## Without room for a value -/

theorem and_then_zero {first second : Sender cfg} {state middle : Uploading cfg}
    (run : first state = .ok (0, middle)) : first.andThen second state = second middle := by
  rw [Sender.andThen, run]
  rfl

/-- The fallback of one value a chunk writes four bytes into a shorter array. -/
theorem jitter_loop_faults (short : cfg.rawChunkBytes < 4) (some : trial.deltas ≠ [])
    (payload : Block cfg.rawChunkBytes) (state : Uploading cfg) :
    jitterLoop trial calls trial.deltas.length 0 0 payload state = .error .outOfBounds := by
  have one : jitterValuesPerChunk cfg = 1 := by
    rw [jitterValuesPerChunk, if_pos (by omega)]
  have positive : 0 < trial.deltas.length := List.length_pos_of_ne_nil some
  obtain ⟨passes, count⟩ := Nat.exists_eq_succ_of_ne_zero (Nat.ne_of_gt positive)
  have rest : checkedSub trial.deltas.length 0 = .ok trial.deltas.length := if_pos (by omega)
  have values : (if 1 < trial.deltas.length then 1 else trial.deltas.length) = 1 := by
    split_ifs <;> omega
  have loaded : Cells.read (⟨trial.deltas, rfl⟩ : Cells UInt32 trial.deltas.length) 0 1 =
      .ok (trial.deltas.take 1) := Cells.read_ok _ (by omega)
  have four : (packDeltas (trial.deltas.take 1)).length = 4 := by
    rw [pack_deltas_length, List.length_take]
    omega
  have beyond : packValues trial 0 1 0 payload = .error .outOfBounds := by
    rw [packValues, show checkedAdd 32 0 0 = .ok 0 from rfl, ok_bind, loaded, ok_bind,
      show checkedMul 32 0 4 = .ok 0 from rfl, ok_bind, Cells.write_fault _ (by omega)]
    rfl
  rw [count, jitterLoop]
  dsimp only
  rw [if_pos positive, rest, ok_bind, one, values, beyond]
  rfl

theorem good_sends_all (trial : Trial cfg) : AllSent trial (goodSends trial) := by
  intro i message known
  rw [goodSends, known]
  rfl

theorem sent_in_front (all : AllSent trial calls) {front back : List (AebMsg × Bytes)}
    {skipped : List (AebMsg × Bytes)} (place : rawStreamMsgs trial = skipped ++ (front ++ back))
    (small : ∀ message ∈ front, message.2.length ≤ cfg.rawChunkBytes) :
    (sendMsgs cfg calls skipped.length front).1 = 0 := by
  rw [send_msgs_all small skipped.length]
  intro i message known
  have inside : i < front.length := (List.getElem?_eq_some_iff.mp known).1
  apply all
  rw [place, List.getElem?_append_right (Nat.le_add_right _ _), Nat.add_sub_cancel_left,
    List.getElem?_append_left inside]
  exact known

theorem send_raw_stream_in_faults (short : cfg.rawChunkBytes < 4) (some : trial.deltas ≠ [])
    (all : AllSent trial calls) (payload : Block cfg.rawChunkBytes) (txBuf : TxBuf cfg) :
    sendRawStreamIn trial calls payload ⟨txBuf, 0, []⟩ = .error .outOfBounds := by
  have messages := raw_stream_msgs_append trial
  obtain ⟨begun, begins, _, counted⟩ := @raw_begin_plays cfg trial calls ⟨txBuf, 0, []⟩
  have empty : ∀ message ∈ [partMsg trial .rawBegin], message.2.length ≤ cfg.rawChunkBytes := by
    intro message member
    rw [List.mem_singleton.mp member]
    exact Nat.zero_le _
  have started : (sendMsgs cfg calls 0 [partMsg trial .rawBegin]).1 = 0 :=
    @sent_in_front cfg trial calls all _ _ [] messages empty
  dsimp only at begins counted
  rw [started] at begins counted
  obtain ⟨chunked, chunks, _, _⟩ := @raw_chunks_play cfg trial calls begun
  have rawSent := @sent_in_front cfg trial calls all _ _ [partMsg trial .rawBegin] messages
    (by
      intro message member
      obtain ⟨index, _, rfl⟩ := List.mem_map.mp member
      exact raw_part_length_le trial index)
  rw [counted rfl, Nat.zero_add, rawSent] at chunks
  rw [send_raw_stream_in_eq, and_then_zero begins, and_then_zero chunks, Sender.andThen,
    jitter_loop_faults trial short some]
  rfl

end Buffers

/-- No access beyond a buffer and no wrapped offset; and if every call sends its
message, everything arrives once. -/
def UploadSafe {cfg : Config} (trial : Trial cfg) : Prop :=
  ∀ (calls : Nat → SendCall) (payload : Block cfg.rawChunkBytes) (txBuf : TxBuf cfg),
    ∃ ret after, sendRawStreamIn trial calls payload ⟨txBuf, 0, []⟩ = .ok (ret, after) ∧
      (AllSent trial calls → ret = 0 ∧
        payloadsOf aebTypeRawChunk after.datagrams = trial.raw ∧
        payloadsOf aebTypeJitterChunk after.datagrams = packDeltas trial.deltas)

/-- An upload is safe exactly when a chunk has room for a delta or there is none. -/
theorem upload_safe_iff (cfg : Config) (trial : Trial cfg) :
    UploadSafe trial ↔ 4 ≤ cfg.rawChunkBytes ∨ trial.deltas = [] := by
  constructor
  · intro safe
    by_contra neither
    rw [not_or] at neither
    have fault := send_raw_stream_in_faults trial (by omega) neither.2 (good_sends_all trial)
      (zeroBlock cfg.rawChunkBytes) (zeroBlock _)
    obtain ⟨ret, after, run, _⟩ := safe (goodSends trial) (zeroBlock cfg.rawChunkBytes) (zeroBlock _)
    rw [fault] at run
    cases run
  · intro fits calls payload txBuf
    obtain ⟨after, run, datagrams, _⟩ :=
      send_raw_stream_in_plays trial fits payload ⟨txBuf, 0, []⟩
    refine ⟨_, after, run, fun all => ?_⟩
    have sent := @send_msgs_all cfg calls (rawStreamMsgs trial)
      (by
        rw [raw_stream_msgs_eq]
        intro message member
        obtain ⟨part, known, rfl⟩ := List.mem_map.mp member
        exact part_payload_le trial fits known)
      0 (by
        intro i message known
        rw [Nat.zero_add]
        exact all i message known)
    have payloads := upload_payloads trial
    rw [sent] at datagrams ⊢
    rw [datagrams, List.nil_append]
    exact ⟨rfl, payloads⟩

def narrowConfig : Config where
  maxSampleBytes := 4
  maxBursts := 1
  rawChunkBytes := 2
  chunkPositive := by decide
  rawBufFits := by decide
  jitterUsFits := by decide
  txBufFits := by decide

def narrowTrial : Trial narrowConfig where
  start := ⟨1, 0, 1, 0, 4, zeroBlock 16⟩
  raw := [1, 2, 3, 4]
  deltas := [7]
  rawFits := by decide
  deltasFit := by decide

/-- The first delta is written behind the end of the array. -/
theorem narrow_upload_faults :
    sendRawStreamIn narrowTrial (goodSends narrowTrial) (zeroBlock 2) ⟨zeroBlock 42, 0, []⟩ =
        .error .outOfBounds ∧
      ¬UploadSafe narrowTrial := by
  have fault := send_raw_stream_in_faults narrowTrial (by decide) (by decide)
    (good_sends_all narrowTrial) (zeroBlock 2) (zeroBlock 42)
  refine ⟨fault, fun safe => ?_⟩
  obtain ⟨ret, after, run, _⟩ := safe (goodSends narrowTrial) (zeroBlock 2) (zeroBlock 42)
  rw [fault] at run
  cases run

end BootEntropy.Aeb
