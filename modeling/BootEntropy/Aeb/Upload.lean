import BootEntropy.Aeb.Firmware
import BootEntropy.Aeb.Steps

/-!
# Delivery of one upload

What the collector holds of a trial after some of its datagrams were delivered,
each lost, repeated or reordered. `Held` is the invariant of one delivery step.
-/

namespace BootEntropy.Aeb

open BootEntropy.Lib

set_option autoImplicit false

/-! ## Parts as the collector receives them -/

section Delivery

variable {cfg : Config} (trial : Trial cfg)

def payloadLimit : Nat := recvLimit - aebHeaderLen

def receivedMsg (type seqOrCount sampleBytes : Nat) (payload : Bytes) : Message where
  msgType := type
  trial := trial.start.trialId.toNat
  seqOrCount := seqOrCount
  intervalUs := trial.start.intervalUs.toNat
  sampleBytes := sampleBytes
  nonce := trial.start.nonce.val
  payload := payload

def receivedPart : Part → Message
  | .rawBegin => receivedMsg trial aebTypeRawBegin (rawCount trial) trial.raw.length []
  | .rawChunk index =>
      receivedMsg trial aebTypeRawChunk index (rawPart trial index).length
        ((rawPart trial index).take payloadLimit)
  | .jitterChunk index =>
      receivedMsg trial aebTypeJitterChunk index (jitterPart trial index).length
        ((jitterPart trial index).take payloadLimit)
  | .rawEnd => receivedMsg trial aebTypeRawEnd (rawCount trial) trial.raw.length []

theorem received_upload_msg {type seqOrCount sampleBytes : Nat} (typeFits : type < 2 ^ 16)
    (seqFits : seqOrCount < 2 ^ 32) (bytesFit : sampleBytes < 2 ^ 32) (payload : Bytes) :
    (uploadMsg trial type seqOrCount sampleBytes).received payload =
      receivedMsg trial type seqOrCount sampleBytes payload := by
  have typeEq : (UInt16.ofNat type).toNat = type := UInt16.toNat_ofNat_of_lt typeFits
  have seqEq : (UInt32.ofNat seqOrCount).toNat = seqOrCount := UInt32.toNat_ofNat_of_lt seqFits
  have bytesEq : (UInt32.ofNat sampleBytes).toNat = sampleBytes :=
    UInt32.toNat_ofNat_of_lt bytesFit
  simp only [AebMsg.received, uploadMsg, typeEq, seqEq, bytesEq, receivedMsg]

theorem mem_parts {part : Part} :
    part ∈ parts trial ↔
      match part with
      | .rawBegin => True
      | .rawChunk index => index < rawCount trial
      | .jitterChunk index => index < jitterCount trial
      | .rawEnd => True := by
  cases part <;> simp [parts]

/-- What `parse_message` returns for a delivered part. -/
theorem parse_message_part {part : Part} (member : part ∈ parts trial) {rx : Rx}
    (sent : rx.sent = datagram (partMsg trial part)) :
    parseMessage rx.data = some (receivedPart trial part) := by
  have rawFits := trial.rawFits
  have rawBuf := cfg.rawBufFits
  have deltasFit := trial.deltasFit
  have jitterBuf := cfg.jitterUsFits
  have counts : rawCount trial ≤ trial.raw.length := chunk_count_le cfg.chunkPositive
  have jitters : jitterCount trial ≤ trial.deltas.length :=
    chunk_count_le (jitter_values_per_chunk_pos cfg)
  have data : rx.data =
      buildMsg (partMsg trial part).1 ++ (partMsg trial part).2.take payloadLimit := by
    rw [Rx.data, sent, datagram, show recvLimit = aebHeaderLen + payloadLimit from rfl,
      take_build_msg]
  rw [data, parse_message_build_msg]
  rw [mem_parts] at member
  congr 1
  cases part with
  | rawBegin => exact received_upload_msg trial (by decide) (by omega) (by omega) []
  | rawChunk index =>
      have length : (rawPart trial index).length ≤ trial.raw.length := by
        rw [rawPart, chunk_length]
        omega
      exact received_upload_msg trial (by decide) (by omega) (by omega) _
  | jitterChunk index =>
      have length : (jitterPart trial index).length ≤ 4 * trial.deltas.length := by
        rw [jitterPart, pack_deltas_length, chunk_length]
        omega
      exact received_upload_msg trial (by decide) (by omega) (by omega) _
  | rawEnd => exact received_upload_msg trial (by decide) (by omega) (by omega) []

/-! ## The state of a trial during delivery -/

/-- A state as `send_stimulus` opens it: nothing received yet. -/
structure Fresh (state : TrialState) : Prop where
  rawChunksExpected : state.rawChunksExpected = none
  rawLen : state.rawLen = none
  rawChunks : state.rawChunks = ∅
  jitterChunks : state.jitterChunks = ∅

/-- What is held of the upload after the parts in `delivered` have come in. -/
structure Held (opened : TrialState) (delivered : List Part) (state : TrialState) : Prop where
  captureId : state.captureId = opened.captureId
  intervalUs : state.intervalUs = opened.intervalUs
  result : state.result = opened.result
  rawChunksExpected : state.rawChunksExpected =
    if .rawBegin ∈ delivered then some (rawCount trial) else none
  rawLen : state.rawLen = if .rawBegin ∈ delivered then some trial.raw.length else none
  rawChunks : ∀ index, state.rawChunks.lookup index =
    if .rawChunk index ∈ delivered then some ((rawPart trial index).take payloadLimit) else none
  jitterChunks : ∀ index, state.jitterChunks.lookup index =
    if .jitterChunk index ∈ delivered then some ((jitterPart trial index).take payloadLimit)
    else none

variable {trial}

theorem Fresh.held {opened : TrialState} (fresh : Fresh opened) : Held trial opened [] opened where
  captureId := rfl
  intervalUs := rfl
  result := rfl
  rawChunksExpected := by rw [fresh.rawChunksExpected, if_neg List.not_mem_nil]
  rawLen := by rw [fresh.rawLen, if_neg List.not_mem_nil]
  rawChunks := by
    intro index
    rw [fresh.rawChunks, if_neg List.not_mem_nil, AList.lookup_empty]
  jitterChunks := by
    intro index
    rw [fresh.jitterChunks, if_neg List.not_mem_nil, AList.lookup_empty]

theorem lookup_insert_if {κ ν : Type} [DecidableEq κ] (dict : Dict κ ν) (key other : κ)
    (value : ν) :
    (dict.insert key value).lookup other = if other = key then some value else dict.lookup other := by
  split_ifs with same
  · rw [same, AList.lookup_insert]
  · exact AList.lookup_insert_ne same

private theorem take_received_payload (payload : Bytes) :
    (payload.take payloadLimit).take payload.length = payload.take payloadLimit := by
  apply List.take_of_length_le
  rw [List.length_take]
  exact Nat.min_le_right _ _

theorem store_raw_chunk (state : TrialState) (key : Nat) :
    storeMessage state (receivedPart trial (.rawChunk key)) =
      { state with
        rawChunks := state.rawChunks.insert key ((rawPart trial key).take payloadLimit) } := by
  rw [← take_received_payload (rawPart trial key)]
  rfl

theorem store_jitter_chunk (state : TrialState) (key : Nat) :
    storeMessage state (receivedPart trial (.jitterChunk key)) =
      { state with
        jitterChunks := state.jitterChunks.insert key
          ((jitterPart trial key).take payloadLimit) } := by
  rw [← take_received_payload (jitterPart trial key)]
  rfl

theorem Held.store {opened state : TrialState} {delivered : List Part}
    (held : Held trial opened delivered state) {part : Part} (unfinished : part ≠ .rawEnd) :
    Held trial opened (delivered ++ [part]) (storeMessage state (receivedPart trial part)) := by
  cases part with
  | rawBegin =>
      exact
        { captureId := held.captureId
          intervalUs := held.intervalUs
          result := held.result
          rawChunksExpected := by simp [storeMessage, receivedPart, receivedMsg]
          rawLen := by simp [storeMessage, receivedPart, receivedMsg]
          rawChunks := by simpa [storeMessage, receivedPart, receivedMsg] using held.rawChunks
          jitterChunks := by simpa [storeMessage, receivedPart, receivedMsg] using held.jitterChunks }
  | rawChunk key =>
      rw [store_raw_chunk]
      exact
        { captureId := held.captureId
          intervalUs := held.intervalUs
          result := held.result
          rawChunksExpected := by simpa using held.rawChunksExpected
          rawLen := by simpa using held.rawLen
          rawChunks := by
            intro index
            rw [lookup_insert_if, held.rawChunks]
            by_cases same : index = key <;> simp [same]
          jitterChunks := by simpa using held.jitterChunks }
  | jitterChunk key =>
      rw [store_jitter_chunk]
      exact
        { captureId := held.captureId
          intervalUs := held.intervalUs
          result := held.result
          rawChunksExpected := by simpa using held.rawChunksExpected
          rawLen := by simpa using held.rawLen
          rawChunks := by simpa using held.rawChunks
          jitterChunks := by
            intro index
            rw [lookup_insert_if, held.jitterChunks]
            by_cases same : index = key <;> simp [same] }
  | rawEnd => exact absurd rfl unfinished

end Delivery

/-! ## Runs of the main loop over one upload -/

section Run

variable (args : CollectorArgs) (host : Host) {cfg : Config} (trial : Trial cfg) (peer : Peer)

def uploadKey : StateKey := (peer, (trial.start.trialId.toNat : Int))

/-- A datagram from `peer` that carries `part`. -/
structure Delivers (rx : Rx) (part : Part) : Prop where
  peer : rx.peer = peer
  member : part ∈ parts trial
  sent : rx.sent = datagram (partMsg trial part)

/-- Whether a datagram of `part` is among `rxs`. -/
def Delivered (rxs : List Rx) (part : Part) : Prop :=
  ∃ rx ∈ rxs, rx.sent = datagram (partMsg trial part)

instance (rxs : List Rx) (part : Part) : Decidable (Delivered trial rxs part) :=
  inferInstanceAs (Decidable (∃ rx ∈ rxs, _))

def events (rxs : List Rx) : List Event := rxs.map .datagram

variable {trial peer}

theorem received_part_type (part : Part) : (receivedPart trial part).msgType = part.type := by
  cases part <;> rfl

theorem part_type_ne_hello (part : Part) : part.type ≠ aebTypeHello := by
  cases part <;> simp [Part.type, aebTypeHello, aebTypeRawBegin, aebTypeRawChunk,
    aebTypeJitterChunk, aebTypeRawEnd]

theorem part_type_ne_raw_end {part : Part} (unfinished : part ≠ .rawEnd) :
    part.type ≠ aebTypeRawEnd := by
  cases part with
  | rawBegin => simp [Part.type, aebTypeRawBegin, aebTypeRawEnd]
  | rawChunk index => simp [Part.type, aebTypeRawChunk, aebTypeRawEnd]
  | jitterChunk index => simp [Part.type, aebTypeJitterChunk, aebTypeRawEnd]
  | rawEnd => exact absurd rfl unfinished

theorem received_part_trial (part : Part) :
    (receivedPart trial part).trial = trial.start.trialId.toNat := by
  cases part <;> rfl

private theorem received_part_injective : Function.Injective (receivedPart trial) := by
  intro left right same
  have types := congrArg Message.msgType same
  have seqs := congrArg Message.seqOrCount same
  rw [received_part_type, received_part_type] at types
  cases left <;> cases right <;>
    simp_all [Part.type, aebTypeRawBegin, aebTypeRawChunk, aebTypeJitterChunk, aebTypeRawEnd,
      receivedPart, receivedMsg]

theorem Delivers.unique {rx : Rx} {part other : Part} (delivers : Delivers trial peer rx part)
    (member : other ∈ parts trial) (sent : rx.sent = datagram (partMsg trial other)) :
    part = other := by
  have parsed := parse_message_part trial delivers.member delivers.sent
  rw [parse_message_part trial member sent] at parsed
  exact received_part_injective (Option.some.inj parsed).symm

theorem exists_delivers (calls : Nat → SendCall) {rxs : List Rx}
    (upload : ∀ rx ∈ rxs, rx.peer = peer ∧ rx.sent ∈ (sendRawStream trial calls).2) :
    ∃ delivered, List.Forall₂ (Delivers trial peer) rxs delivered := by
  induction rxs with
  | nil => exact ⟨[], .nil⟩
  | cons rx rest ih =>
      obtain ⟨delivered, tail⟩ := ih fun other member => upload other (List.mem_cons_of_mem _ member)
      obtain ⟨source, sent⟩ := upload rx List.mem_cons_self
      obtain ⟨part, member, eq⟩ := send_raw_stream_subset trial calls sent
      exact ⟨part :: delivered, .cons ⟨source, member, eq⟩ tail⟩

theorem delivered_subset_parts {rxs : List Rx} {delivered : List Part}
    (delivers : List.Forall₂ (Delivers trial peer) rxs delivered) :
    ∀ part ∈ delivered, part ∈ parts trial := by
  induction delivers with
  | nil => exact List.forall_mem_nil _
  | cons head tail ih => exact List.forall_mem_cons.mpr ⟨head.member, ih⟩

theorem mem_delivered_iff {rxs : List Rx} {delivered : List Part}
    (delivers : List.Forall₂ (Delivers trial peer) rxs delivered) {part : Part}
    (member : part ∈ parts trial) : part ∈ delivered ↔ Delivered trial rxs part := by
  induction delivers with
  | nil => simp [Delivered]
  | cons head tail ih =>
      rw [List.mem_cons, ih, Delivered, Delivered, List.exists_mem_cons_iff]
      apply or_congr_left
      constructor
      · intro same
        rw [same]
        exact head.sent
      · intro sent
        exact (head.unique member sent).symm

theorem Delivers.key {rx : Rx} {part : Part} (delivers : Delivers trial peer rx part) :
    ((rx.peer, ((receivedPart trial part).trial : Int)) : StateKey) = uploadKey trial peer := by
  rw [received_part_trial, delivers.peer, uploadKey]

theorem Delivers.not_hello {rx : Rx} {part : Part} (_ : Delivers trial peer rx part) :
    (receivedPart trial part).msgType ≠ aebTypeHello := by
  rw [received_part_type]
  exact part_type_ne_hello part

theorem handle_part {collector : Collector} {state : TrialState} {rx : Rx} {part : Part}
    (delivers : Delivers trial peer rx part) (unfinished : part ≠ .rawEnd)
    (known : collector.states.lookup (uploadKey trial peer) = some state) :
    handleDatagram args host collector rx =
      (({ collector with lastRx := rx.now } : Collector).setState (uploadKey trial peer)
        (storeMessage state (receivedPart trial part)), none) := by
  rw [handle_datagram_message args host collector
    (parse_message_part trial delivers.member delivers.sent),
    handle_message_known args host delivers.key (by exact known) delivers.not_hello, if_neg]
  rw [received_part_type]
  exact part_type_ne_raw_end unfinished

theorem handle_raw_end {collector : Collector} {state : TrialState} {rx : Rx}
    (delivers : Delivers trial peer rx .rawEnd)
    (known : collector.states.lookup (uploadKey trial peer) = some state) :
    handleDatagram args host collector rx =
      handleRawEnd host { collector with lastRx := rx.now } (uploadKey trial peer) state
        (receivedPart trial .rawEnd) := by
  rw [handle_datagram_message args host collector
    (parse_message_part trial delivers.member delivers.sent),
    handle_message_known args host delivers.key (by exact known) delivers.not_hello, if_pos]
  rfl

theorem handle_stray {collector : Collector} {rx : Rx} {part : Part}
    (delivers : Delivers trial peer rx part)
    (unknown : collector.states.lookup (uploadKey trial peer) = none) :
    handleDatagram args host collector rx = ({ collector with lastRx := rx.now }, none) := by
  rw [handle_datagram_message args host collector
    (parse_message_part trial delivers.member delivers.sent)]
  apply handle_message_unknown args host _ delivers.not_hello
  rw [← delivers.key] at unknown
  exact unknown

theorem loop_datagram {collector after : Collector} {rx : Rx}
    (running : (collector.completed : Int) < args.trials)
    (step : handleDatagram args host collector rx = (after, none)) (more : List Event) :
    collectorLoop args host collector (.datagram rx :: more) =
      collectorLoop args host after more := by
  rw [collectorLoop, if_neg (by omega), step]

/-- The run up to the first RAW_END, by induction on the deliveries. -/
theorem loop_before_end {opened : TrialState} {rxs : List Rx} {new : List Part}
    (delivers : List.Forall₂ (Delivers trial peer) rxs new) (unfinished : .rawEnd ∉ new) :
    ∀ (collector : Collector) (state : TrialState) (delivered : List Part),
      (collector.completed : Int) < args.trials →
      collector.states.lookup (uploadKey trial peer) = some state →
      Held trial opened delivered state →
      ∃ (last : Collector) (held : TrialState),
        (∀ more, collectorLoop args host collector (events rxs ++ more) =
            collectorLoop args host last more) ∧
          last.disk = collector.disk ∧ last.completed = collector.completed ∧
          last.states.lookup (uploadKey trial peer) = some held ∧
          Held trial opened (delivered ++ new) held := by
  induction delivers with
  | nil =>
      intro collector state delivered _ known held
      exact ⟨collector, state, fun _ => rfl, rfl, rfl, known, by rwa [List.append_nil]⟩
  | @cons rx part rxs new head tail ih =>
      intro collector state delivered running known held
      have here : part ≠ .rawEnd := fun same => unfinished (same ▸ List.mem_cons_self)
      have step := handle_part args host head here known
      obtain ⟨last, final, run, disk, completed, lookup, holds⟩ :=
        ih (fun member => unfinished (List.mem_cons_of_mem _ member))
          (({ collector with lastRx := rx.now } : Collector).setState
            (uploadKey trial peer) (storeMessage state (receivedPart trial part)))
          (storeMessage state (receivedPart trial part)) (delivered ++ [part]) running (AList.lookup_insert _) (held.store here)
      refine ⟨last, final, ?_, disk, completed, lookup, ?_⟩
      · intro more
        rw [← run more]
        exact loop_datagram args host running step _
      · rwa [List.append_assoc] at holds

theorem loop_after_end {rxs : List Rx} {delivered : List Part}
    (delivers : List.Forall₂ (Delivers trial peer) rxs delivered) :
    ∀ collector : Collector, collector.states.lookup (uploadKey trial peer) = none →
      (collectorLoop args host collector (events rxs)).1.disk = collector.disk ∧
        ∀ error, (collectorLoop args host collector (events rxs)).2 ≠ .raised error := by
  induction delivers with
  | nil =>
      intro collector _
      rw [events, List.map_nil, collectorLoop]
      refine ⟨rfl, ?_⟩
      intro error
      dsimp only
      split_ifs <;> simp
  | @cons rx part rxs delivered head tail ih =>
      intro collector unknown
      by_cases running : (collector.completed : Int) < args.trials
      · have step := handle_stray args host head unknown
        rw [events, List.map_cons, loop_datagram args host running step]
        exact ih { collector with lastRx := rx.now } unknown
      · rw [events, List.map_cons, collectorLoop, if_pos (by omega)]
        exact ⟨rfl, fun error => LoopEnd.noConfusion⟩

end Run

end BootEntropy.Aeb
