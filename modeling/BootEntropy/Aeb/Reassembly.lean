import BootEntropy.Aeb.Upload

/-!
# Reassembly of one upload

The first RAW_END closes a trial. The collector calls it complete when every raw
chunk is in, and then the raw file is the firmware's buffer. Jitter chunks play
no part in that decision, so the joint stream of a complete trial can lack some.
-/

namespace BootEntropy.Aeb

open BootEntropy.Lib

set_option autoImplicit false

section Reassembly

variable {cfg : Config} {trial : Trial cfg} {opened state : TrialState} {delivered : List Part}

def closedState (trial : Trial cfg) (state : TrialState) : TrialState :=
  endFrame state (receivedPart trial .rawEnd)

/-! ## Raw bytes -/

theorem Held.closed_expected (held : Held trial opened delivered state) :
    expectedChunks (closedState trial state) = rawCount trial := by
  rw [expectedChunks, closedState, endFrame, held.rawChunksExpected]
  split_ifs <;> rfl

theorem Held.closed_length (held : Held trial opened delivered state) :
    declaredLength (closedState trial state) = some (trial.raw.length : Int) := by
  rw [declaredLength, closedState, endFrame, held.rawLen]
  split_ifs <;> rfl

theorem Held.missing_chunks (held : Held trial opened delivered state) :
    missingChunks (closedState trial state) = [] ↔
      ∀ index < rawCount trial, .rawChunk index ∈ delivered := by
  rw [missingChunks, held.closed_expected, List.filter_eq_nil_iff]
  simp only [List.mem_range]
  apply forall_congr'
  intro index
  apply imp_congr Iff.rfl
  rw [show (closedState trial state).rawChunks = state.rawChunks from rfl, held.rawChunks]
  split_ifs with here <;> simp [here]

theorem Held.join_raw (held : Held trial opened delivered state)
    (all : ∀ index < rawCount trial, .rawChunk index ∈ delivered) :
    (List.range (rawCount trial)).flatMap (chunkAt (closedState trial state).rawChunks) =
      joinReceived (fun _ => true) payloadLimit (rawPart trial) (List.range (rawCount trial)) := by
  rw [joinReceived, List.filter_true]
  apply List.flatMap_congr
  intro index member
  rw [chunkAt, show (closedState trial state).rawChunks = state.rawChunks from rfl, held.rawChunks,
    if_pos (all index (List.mem_range.mp member)), Option.getD_some]

/-- A raw chunk is cut by the receiver when the build's chunks exceed one read. -/
def RawFits (trial : Trial cfg) : Prop :=
  ∀ index < rawCount trial, (rawPart trial index).length ≤ payloadLimit

theorem raw_parts_join (trial : Trial cfg) :
    (List.range (rawCount trial)).flatMap (rawPart trial) = trial.raw :=
  flat_map_chunk cfg.chunkPositive trial.raw

theorem raw_part_ne_nil (trial : Trial cfg) :
    ∀ index ∈ List.range (rawCount trial), rawPart trial index ≠ [] :=
  fun _ member => chunk_ne_nil cfg.chunkPositive (List.mem_range.mp member)

theorem raw_count_pos (nonempty : 0 < trial.raw.length) : 0 < rawCount trial := by
  have positive := cfg.chunkPositive
  have covers := length_le_chunk_count_mul cfg.chunkPositive trial.raw.length
  apply Nat.pos_of_ne_zero
  intro none
  rw [show chunkCount cfg.rawChunkBytes trial.raw.length = 0 from none, Nat.zero_mul] at covers
  omega

/-- A complete trial holds the firmware's buffer, and it is complete exactly when
every raw chunk came in whole. -/
theorem Held.complete_raw_cases (held : Held trial opened delivered state)
    (nonempty : 0 < trial.raw.length) :
    (((∀ index < rawCount trial, .rawChunk index ∈ delivered) ∧ RawFits trial) ∧
        completeRaw (closedState trial state) (trial.raw.length : Int) = some trial.raw) ∨
      (¬((∀ index < rawCount trial, .rawChunk index ∈ delivered) ∧ RawFits trial) ∧
        completeRaw (closedState trial state) (trial.raw.length : Int) = none) := by
  have count := raw_count_pos nonempty
  have size := join_received_length_eq_iff (fun _ => true) payloadLimit (rawPart trial)
    (List.range (rawCount trial)) (raw_part_ne_nil trial)
  have shorter := join_received_length_le (fun _ => true) payloadLimit (rawPart trial)
    (List.range (rawCount trial))
  rw [raw_parts_join] at size shorter
  simp only [List.mem_range, true_and] at size
  by_cases all : ∀ index < rawCount trial, .rawChunk index ∈ delivered
  · have framed : 0 < expectedChunks (closedState trial state) ∧
        (0 : Int) < trial.raw.length ∧ missingChunks (closedState trial state) = [] :=
      ⟨by rw [held.closed_expected]; exact count, by omega, held.missing_chunks.mpr all⟩
    rw [completeRaw, if_pos framed, held.closed_expected, held.join_raw all, Int.toNat_natCast,
      List.take_of_length_le shorter]
    by_cases fits : RawFits trial
    · have whole := join_received_of_all (fun _ => true) payloadLimit (rawPart trial)
        (List.range (rawCount trial))
        fun index member => ⟨rfl, fits index (List.mem_range.mp member)⟩
      rw [raw_parts_join] at whole
      rw [whole]
      exact .inl ⟨⟨all, fits⟩, if_pos rfl⟩
    · exact .inr ⟨fun both => fits both.2, if_neg fun same => fits (size.mp (by omega))⟩
  · right
    refine ⟨fun both => all both.1, ?_⟩
    rw [completeRaw, if_neg]
    exact fun framed => all (held.missing_chunks.mp framed.2.2)

/-! ## Jitter values -/

/-- Delta values of one jitter chunk that fit one read. -/
def valueLimit : Nat := payloadLimit / 4

theorem pack_deltas_cons (delta : UInt32) (rest : List UInt32) :
    packDeltas (delta :: rest) = leBytes 4 delta.toNat ++ packDeltas rest := rfl

theorem unpack_u32s_le_bytes (value : Nat) (rest : Bytes) :
    unpackU32s (leBytes 4 value ++ rest) = leValue (leBytes 4 value) :: unpackU32s rest := rfl

theorem unpack_pack_deltas (deltas : List UInt32) :
    unpackU32s (packDeltas deltas) = deltas.map UInt32.toNat := by
  induction deltas with
  | nil => rfl
  | cons delta rest ih =>
      have word : leValue (leBytes 4 delta.toNat) = delta.toNat :=
        le_value_bytes_of_lt delta.toNat_lt
      rw [pack_deltas_cons, unpack_u32s_le_bytes, word, ih, List.map_cons]

theorem take_pack_deltas (deltas : List UInt32) (count : Nat) :
    (packDeltas deltas).take (4 * count) = packDeltas (deltas.take count) := by
  induction deltas generalizing count with
  | nil => simp [packDeltas]
  | cons delta rest ih =>
      cases count with
      | zero => rfl
      | succ count =>
          have word := le_bytes_length 4 delta.toNat
          rw [List.take_succ_cons, pack_deltas_cons, pack_deltas_cons, Nat.mul_succ, Nat.add_comm,
            ← ih, List.take_append, word, Nat.add_sub_cancel_left,
            List.take_of_length_le (by rw [word]; exact Nat.le_add_right _ _)]

theorem pack_unpacked (deltas : List UInt32) :
    packJitterDeltaU32le (deltas.map UInt32.toNat) = packDeltas deltas := by
  rw [packJitterDeltaU32le, packDeltas, List.flatMap_map]

def receivedDeltas (trial : Trial cfg) (present : Nat → Bool) : List UInt32 :=
  joinReceived present valueLimit (chunk (jitterValuesPerChunk cfg) trial.deltas)
    (List.range (jitterCount trial))

theorem Held.sorted_jitter_keys (held : Held trial opened delivered state)
    (sent : ∀ part ∈ delivered, part ∈ parts trial) :
    sortedKeys state.jitterChunks =
      (List.range (jitterCount trial)).filter fun index => .jitterChunk index ∈ delivered := by
  have key (index : Nat) : index ∈ state.jitterChunks.keys ↔ .jitterChunk index ∈ delivered := by
    rw [← AList.mem_keys, ← AList.lookup_isSome, held.jitterChunks]
    split_ifs with here <;> simp [here]
  rw [sortedKeys, insertion_sort_eq_filter_range state.jitterChunks.keys_nodup
    (fun index member => (mem_parts trial).mp (sent _ ((key index).mp member)))]
  apply List.filter_congr
  intro index _
  exact decide_eq_decide.mpr (key index)

theorem Held.jitter_values (held : Held trial opened delivered state)
    (sent : ∀ part ∈ delivered, part ∈ parts trial) :
    jitterValues (closedState trial state) =
      (receivedDeltas trial fun index => decide (.jitterChunk index ∈ delivered)).map
        UInt32.toNat := by
  rw [jitterValues, show (closedState trial state).jitterChunks = state.jitterChunks from rfl,
    held.sorted_jitter_keys sent, receivedDeltas, joinReceived, List.map_flatMap]
  apply List.flatMap_congr
  intro index member
  have here : .jitterChunk index ∈ delivered := by
    simpa using (List.mem_filter.mp member).2
  rw [chunkAt, held.jitterChunks, if_pos here, Option.getD_some, jitterPart,
    show payloadLimit = 4 * valueLimit from rfl, take_pack_deltas, unpack_pack_deltas]

theorem jitter_parts_join (trial : Trial cfg) :
    (List.range (jitterCount trial)).flatMap (chunk (jitterValuesPerChunk cfg) trial.deltas) =
      trial.deltas :=
  flat_map_chunk (jitter_values_per_chunk_pos cfg) trial.deltas

/-- All deltas arrived exactly when every jitter chunk came in whole. -/
theorem received_deltas_eq_iff (trial : Trial cfg) (present : Nat → Bool) :
    receivedDeltas trial present = trial.deltas ↔
      ∀ index < jitterCount trial, present index = true ∧
        (jitterPart trial index).length ≤ payloadLimit := by
  have joined := join_received_eq_iff present valueLimit
    (chunk (jitterValuesPerChunk cfg) trial.deltas) (List.range (jitterCount trial))
    fun _ member => chunk_ne_nil (jitter_values_per_chunk_pos cfg) (List.mem_range.mp member)
  rw [jitter_parts_join] at joined
  rw [receivedDeltas, joined]
  simp only [List.mem_range, jitterPart, pack_deltas_length]
  apply forall_congr'
  intro index
  apply imp_congr Iff.rfl
  apply and_congr Iff.rfl
  rw [show payloadLimit = 4 * valueLimit from rfl]
  omega

theorem received_deltas_congr {present other : Nat → Bool}
    (same : ∀ index < jitterCount trial, present index = other index) :
    receivedDeltas trial present = receivedDeltas trial other := by
  rw [receivedDeltas, receivedDeltas, joinReceived, joinReceived,
    List.filter_congr fun index member => same index (List.mem_range.mp member)]

theorem pack_deltas_injective : Function.Injective packDeltas := by
  intro left right same
  have values := congrArg unpackU32s same
  rw [unpack_pack_deltas, unpack_pack_deltas] at values
  exact List.map_injective_iff.mpr (fun _ _ => UInt32.toNat_inj.mp) values

/-! ## Closing the trial -/

theorem Held.effective_interval (held : Held trial opened delivered state) :
    effectiveInterval (closedState trial state) = effectiveInterval opened := by
  rw [effectiveInterval, effectiveInterval, resultInt, resultInt,
    show (closedState trial state).result = state.result from rfl,
    show (closedState trial state).intervalUs = state.intervalUs from rfl, held.result,
    held.intervalUs]

theorem received_deltas_subset (present : Nat → Bool) :
    ∀ delta ∈ receivedDeltas trial present, delta ∈ trial.deltas := by
  intro delta member
  rw [receivedDeltas, joinReceived, List.mem_flatMap] at member
  obtain ⟨index, _, inside⟩ := member
  exact List.mem_of_mem_drop (List.mem_of_mem_take (List.mem_of_mem_take inside))

/-- The state a RAW_END finalizes after the datagrams `before`. -/
structure Closing (trial : Trial cfg) (opened : TrialState) (before : List Rx)
    (state : TrialState) : Prop where
  captureId : state.captureId = opened.captureId
  interval : effectiveInterval state = effectiveInterval opened
  length : declaredLength state = some (trial.raw.length : Int)
  raw : (((∀ index < rawCount trial, Delivered trial before (.rawChunk index)) ∧ RawFits trial) ∧
      completeRaw state (trial.raw.length : Int) = some trial.raw) ∨
    (¬((∀ index < rawCount trial, Delivered trial before (.rawChunk index)) ∧ RawFits trial) ∧
      completeRaw state (trial.raw.length : Int) = none)
  jitter : jitterValues state =
    (receivedDeltas trial fun index => decide (Delivered trial before (.jitterChunk index))).map
      UInt32.toNat

theorem raw_fits_of_one_read (oneRead : cfg.rawChunkBytes ≤ 4056) : RawFits trial := by
  intro index _
  rw [rawPart, chunk_length, show payloadLimit = 4056 from rfl]
  omega

theorem jitter_fits_of_one_read (oneRead : cfg.rawChunkBytes ≤ 4056) (index : Nat) :
    (jitterPart trial index).length ≤ payloadLimit := by
  rw [jitterPart, pack_deltas_length, chunk_length, jitterValuesPerChunk,
    show payloadLimit = 4056 from rfl]
  split_ifs <;> omega

theorem received_deltas_of_one_read (trial : Trial cfg) (oneRead : cfg.rawChunkBytes ≤ 4056)
    (present : Nat → Bool) :
    receivedDeltas trial present =
      ((List.range (jitterCount trial)).filter present).flatMap
        (chunk (jitterValuesPerChunk cfg) trial.deltas) := by
  rw [receivedDeltas, joinReceived]
  apply List.flatMap_congr
  intro index _
  have fits := @jitter_fits_of_one_read cfg trial oneRead index
  rw [jitterPart, pack_deltas_length, show payloadLimit = 4 * valueLimit from rfl] at fits
  exact List.take_of_length_le (by omega)

theorem Closing.residuals_fit {before : List Rx} {intervalUs : Int}
    (closing : Closing trial opened before state)
    (deltasSmall : ∀ delta ∈ trial.deltas, delta.toNat < 2 ^ 31)
    (intervalBounds : 0 ≤ intervalUs ∧ intervalUs < 2 ^ 31) :
    ∀ value ∈ jitterValues state, residualFits intervalUs value := by
  intro value member
  rw [closing.jitter, List.mem_map] at member
  obtain ⟨delta, inside, rfl⟩ := member
  have small := deltasSmall delta (received_deltas_subset _ delta inside)
  rw [residualFits]
  omega

theorem Held.closing {before : List Rx} (held : Held trial opened delivered state)
    (sent : ∀ part ∈ delivered, part ∈ parts trial)
    (members : ∀ part ∈ parts trial, part ∈ delivered ↔ Delivered trial before part)
    (nonempty : 0 < trial.raw.length) : Closing trial opened before (closedState trial state) where
  captureId := held.captureId
  interval := held.effective_interval
  length := held.closed_length
  raw := by
    have chunks : (∀ index < rawCount trial, .rawChunk index ∈ delivered) ↔
        ∀ index < rawCount trial, Delivered trial before (.rawChunk index) := by
      apply forall_congr'
      intro index
      apply forall_congr'
      intro inside
      exact members _ ((mem_parts trial).mpr inside)
    have cases := held.complete_raw_cases nonempty
    rwa [chunks] at cases
  jitter := by
    rw [held.jitter_values sent, received_deltas_congr]
    intro index inside
    exact decide_eq_decide.mpr (members _ ((mem_parts trial).mpr inside))

end Reassembly

/-! ## Whole runs -/

section Run

variable (args : CollectorArgs) (host : Host) {cfg : Config} {trial : Trial cfg} {peer : Peer}

/-- A run over some datagrams of one upload up to its first RAW_END: the state it
finalizes, and how `finalize_trial` ends. -/
theorem loop_to_end (calls : Nat → SendCall) {collector : Collector} {opened : TrialState}
    {before : List Rx} {finish : Rx} (running : (collector.completed : Int) < args.trials)
    (known : collector.states.lookup (uploadKey trial peer) = some opened) (fresh : Fresh opened)
    (upload : ∀ rx ∈ before ++ [finish],
      rx.peer = peer ∧ rx.sent ∈ (sendRawStream trial calls).2)
    (first : ¬Delivered trial before .rawEnd)
    (ends : finish.sent = datagram (partMsg trial .rawEnd)) :
    ∃ (last : Collector) (state : TrialState) (delivered : List Part),
      (∀ part ∈ parts trial, part ∈ delivered ↔ Delivered trial before part) ∧
        (∀ part ∈ delivered, part ∈ parts trial) ∧
        Held trial opened delivered state ∧
        last.disk = collector.disk ∧ last.completed = collector.completed ∧
        last.states.lookup (uploadKey trial peer) = some state ∧
        (collectorLoop args host collector (events before)).1 = last ∧
        ∀ more, collectorLoop args host collector (events (before ++ [finish]) ++ more) =
          match handleRawEnd host { last with lastRx := finish.now } (uploadKey trial peer) state
            (receivedPart trial .rawEnd) with
          | (after, none) => collectorLoop args host after more
          | (after, some error) => (after, .raised error) := by
  obtain ⟨delivered, delivers⟩ := exists_delivers calls
    fun rx member => upload rx (List.mem_append_left [finish] member)
  have sent := delivered_subset_parts delivers
  have unfinished : .rawEnd ∉ delivered := by
    intro member
    exact first ((mem_delivered_iff delivers ((mem_parts trial).mpr trivial)).mp member)
  obtain ⟨last, state, run, disk, completed, lookup, held⟩ :=
    loop_before_end args host delivers unfinished collector opened [] running known fresh.held
  have closing : Delivers trial peer finish .rawEnd :=
    ⟨(upload finish (List.mem_append_right _ List.mem_cons_self)).1, (mem_parts trial).mpr trivial,
      ends⟩
  refine ⟨last, state, delivered, fun part member => mem_delivered_iff delivers member, sent, held,
    disk, completed, lookup, ?_, ?_⟩
  · have alone := run []
    rw [List.append_nil] at alone
    rw [alone, collectorLoop]
  intro more
  have split : events (before ++ [finish]) ++ more =
      events before ++ (Event.datagram finish :: more) := by
    rw [events, List.map_append, List.append_assoc]
    rfl
  have going : ¬args.trials ≤ last.completed := by
    rw [completed]
    omega
  have ended := handle_raw_end args host closing lookup
  rcases outcome : handleRawEnd host { last with lastRx := finish.now } (uploadKey trial peer) state
    (receivedPart trial .rawEnd) with ⟨after, _ | error⟩
  · rw [split, run, collectorLoop, if_neg going, ended, outcome]
  · rw [split, run, collectorLoop, if_neg going, ended, outcome]

theorem loop_closes (calls : Nat → SendCall) {collector : Collector} {opened : TrialState}
    {before : List Rx} {finish : Rx} (running : (collector.completed : Int) < args.trials)
    (known : collector.states.lookup (uploadKey trial peer) = some opened) (fresh : Fresh opened)
    (nonempty : 0 < trial.raw.length)
    (upload : ∀ rx ∈ before ++ [finish],
      rx.peer = peer ∧ rx.sent ∈ (sendRawStream trial calls).2)
    (first : ¬Delivered trial before .rawEnd)
    (ends : finish.sent = datagram (partMsg trial .rawEnd)) :
    ∃ held state, (collectorLoop args host collector (events before)).1.states.lookup
          (uploadKey trial peer) = some held ∧
      state = closedState trial held ∧ Closing trial opened before state ∧
      (∀ error, jitterStreams state = .error error → ∀ more,
        (collectorLoop args host collector (events (before ++ [finish]) ++ more)).1.disk.trials =
          collector.disk.trials) ∧
      ∀ streams, jitterStreams state = .ok streams →
        ∃ after : Collector, after.states.lookup (uploadKey trial peer) = none ∧
          finalizeTrial host.sha256 state collector.disk =
            (after.disk, .ok (completeRaw state (trial.raw.length : Int)).isSome) ∧
          after.disk = finishDisk host.sha256 state
            (completeRaw state (trial.raw.length : Int)) streams
            (writeRaw state (completeRaw state (trial.raw.length : Int)) collector.disk) ∧
          ∀ more, collectorLoop args host collector (events (before ++ [finish]) ++ more) =
            collectorLoop args host after more := by
  obtain ⟨last, state, delivered, members, sent, held, disk, completed, lookup, reached, run⟩ :=
    loop_to_end args host calls running known fresh upload first ends
  have closing := held.closing sent members nonempty
  refine ⟨state, closedState trial state, by rw [reached, lookup], rfl, closing, ?_, ?_⟩
  · intro error failed more
    have final : finalizeTrial host.sha256 (closedState trial state) collector.disk =
        (writeRaw (closedState trial state)
          (completeRaw (closedState trial state) (trial.raw.length : Int)) collector.disk,
          .error error) := by
      rw [finalizeTrial, closing.length]
      simp only [failed]
    rw [run, handleRawEnd, ← closedState]
    simp only [disk, final]
    exact write_raw_trials ..
  · intro streams packed
    have final : finalizeTrial host.sha256 (closedState trial state) collector.disk =
        (finishDisk host.sha256 (closedState trial state)
          (completeRaw (closedState trial state) (trial.raw.length : Int)) streams
          (writeRaw (closedState trial state)
            (completeRaw (closedState trial state) (trial.raw.length : Int)) collector.disk),
          .ok (completeRaw (closedState trial state) (trial.raw.length : Int)).isSome) := by
      rw [finalizeTrial, closing.length]
      simp only [packed]
    refine ⟨(handleRawEnd host { last with lastRx := finish.now } (uploadKey trial peer) state
      (receivedPart trial .rawEnd)).1, ?_, ?_, ?_, ?_⟩
    · rw [handleRawEnd, ← closedState]
      simp only [disk, final]
      exact AList.lookup_erase _ _
    · rw [handleRawEnd, ← closedState]
      simp only [disk, final]
    · rw [handleRawEnd, ← closedState]
      simp only [disk, final]
    · intro more
      rw [run, handleRawEnd, ← closedState]
      simp only [disk, final]

variable (trial peer) in
/-- Chunks of one read, whatever was lost, repeated or reordered. -/
theorem upload_reassembled (calls : Nat → SendCall) {collector : Collector} {opened : TrialState}
    {before after : List Rx} {finish : Rx} {intervalUs : Int}
    (oneRead : cfg.rawChunkBytes ≤ 4056) (nonempty : 0 < trial.raw.length)
    (deltasSmall : ∀ delta ∈ trial.deltas, delta.toNat < 2 ^ 31)
    (running : (collector.completed : Int) < args.trials)
    (known : collector.states.lookup (uploadKey trial peer) = some opened) (fresh : Fresh opened)
    (interval : effectiveInterval opened = some intervalUs)
    (intervalBounds : 0 ≤ intervalUs ∧ intervalUs < 2 ^ 31)
    (upload : ∀ rx ∈ before ++ finish :: after,
      rx.peer = peer ∧ rx.sent ∈ (sendRawStream trial calls).2)
    (first : ¬Delivered trial before .rawEnd)
    (ends : finish.sent = datagram (partMsg trial .rawEnd)) :
    ∃ (held : TrialState) (complete : Bool),
      (collectorLoop args host collector (events before)).1.states.lookup (uploadKey trial peer) =
          some held ∧
        finalizeTrial host.sha256 (closedState trial held) collector.disk =
          ((collectorLoop args host collector (events (before ++ [finish]))).1.disk,
            .ok complete) ∧
        (complete = true ↔ ∀ index < rawCount trial, Delivered trial before (.rawChunk index)) ∧
        (complete = true →
          (collectorLoop args host collector (events (before ++ [finish]))).1.disk.files
            (.raw opened.captureId) = some trial.raw) ∧
        jitterValues (closedState trial held) =
          (((List.range (jitterCount trial)).filter fun index =>
            decide (Delivered trial before (.jitterChunk index))).flatMap
            (chunk (jitterValuesPerChunk cfg) trial.deltas)).map UInt32.toNat ∧
        ((∀ index < jitterCount trial, Delivered trial before (.jitterChunk index)) →
          jitterValues (closedState trial held) = trial.deltas.map UInt32.toNat) ∧
        (collectorLoop args host collector (events (before ++ finish :: after))).1.disk =
          (collectorLoop args host collector (events (before ++ [finish]))).1.disk ∧
        ∀ error, (collectorLoop args host collector (events (before ++ finish :: after))).2 ≠
          .raised error := by
  have split : before ++ finish :: after = (before ++ [finish]) ++ after := by
    rw [List.append_assoc]
    rfl
  rw [split] at upload ⊢
  obtain ⟨held, state, lookup, rfl, closing, _, finishes⟩ := loop_closes args host calls running
    known fresh nonempty (fun rx member => upload rx (List.mem_append_left after member)) first ends
  have rawFits : RawFits trial := raw_fits_of_one_read oneRead
  have jitterFits (index : Nat) : (jitterPart trial index).length ≤ payloadLimit :=
    jitter_fits_of_one_read oneRead index
  have residuals := closing.residuals_fit deltasSmall intervalBounds
  obtain ⟨streams, packed⟩ := (jitter_packs_iff _).mp (.inr ⟨_, closing.interval.trans interval, residuals⟩)
  obtain ⟨closed, gone, final, disk, run⟩ := finishes streams packed
  have alone : (collectorLoop args host collector (events (before ++ [finish]))).1.disk =
      closed.disk := by
    have stop := run []
    rw [List.append_nil] at stop
    rw [stop, collectorLoop]
  obtain ⟨late, delivers⟩ := exists_delivers calls
    fun rx member => upload rx (List.mem_append_right (before ++ [finish]) member)
  have quiet := loop_after_end args host delivers closed gone
  have whole : collectorLoop args host collector (events ((before ++ [finish]) ++ after)) =
      collectorLoop args host closed (events after) := by
    rw [← run, events, events, events, ← List.map_append]
  have joined := received_deltas_of_one_read trial oneRead
    fun index => decide (Delivered trial before (.jitterChunk index))
  refine ⟨held, (completeRaw (closedState trial held) (trial.raw.length : Int)).isSome, lookup, ?_,
    ?_, ?_, ?_, ?_, ?_, ?_⟩
  · rw [alone]
    exact final
  · rcases closing.raw with ⟨whole, raw⟩ | ⟨lost, raw⟩
    · rw [raw]
      exact ⟨fun _ => whole.1, fun _ => rfl⟩
    · rw [raw]
      exact ⟨fun some => absurd some Bool.false_ne_true, fun all => absurd ⟨all, rawFits⟩ lost⟩
  · intro complete
    rcases closing.raw with ⟨_, raw⟩ | ⟨_, raw⟩
    · rw [alone, disk, ← closing.captureId, finish_disk_files _ _ _ _ _ OutFile.noConfusion
        OutFile.noConfusion OutFile.noConfusion, raw, write_raw_file]
    · rw [raw] at complete
      exact absurd complete Bool.false_ne_true
  · rw [closing.jitter, joined]
  · intro all
    rw [closing.jitter, (received_deltas_eq_iff trial _).mpr]
    intro index inside
    exact ⟨decide_eq_true (all index inside), jitterFits index⟩
  · rw [whole, quiet.1, alone]
  · rw [whole]
    exact quiet.2

end Run

/-! ## A small upload -/

def tinyConfig : Config := ⟨8, 4, 4, by decide, by decide, by decide, by decide⟩

def zeroStart : AebMsg := ⟨1, 0, 0, 1000, 0, zeroBlock 16⟩

def tinyTrial : Trial tinyConfig := ⟨zeroStart, [1, 2, 3, 4, 5], [7], by decide, by decide⟩

def otherTrial : Trial tinyConfig := ⟨zeroStart, [5, 4, 3, 2, 1], [7], by decide, by decide⟩

def quietHost : Host := ⟨fun _ => [], fun _ _ => true, fun _ _ => 0, fun _ _ => 0, fun _ _ => []⟩

def tinyPeer : Peer := ⟨"10.0.0.2".toList, 7778⟩

def helloMessage : Message := ⟨aebTypeHello, 0, 1, 1000, 8, List.replicate 16 0, []⟩

/-- State 0, as the HELLO of `tinyPeer` opens it. -/
def tinyOpened : TrialState :=
  openedState defaultCollectorArgs quietHost tinyPeer helloMessage (List.replicate 16 0) 0 0

def tinyCollector : Collector :=
  ⟨AList.insert (uploadKey tinyTrial tinyPeer) tinyOpened ∅, 0, 1, 0, emptyDisk⟩

def tinyRx (part : Part) : Rx := ⟨datagram (partMsg tinyTrial part), tinyPeer, 0⟩

def tinyHello : Rx := ⟨buildMsg ⟨3, 0, 1, 1000, 8, zeroBlock 16⟩, tinyPeer, 0⟩

/-- Chunks out of order, one twice, RAW_BEGIN lost, and a chunk behind the end. -/
theorem tiny_upload_reassembled :
    ∃ (held : TrialState) (complete : Bool),
      (collectorLoop defaultCollectorArgs quietHost tinyCollector
          (events [tinyRx (.rawChunk 1), tinyRx (.jitterChunk 0), tinyRx (.rawChunk 1),
            tinyRx (.rawChunk 0)])).1.states.lookup (uploadKey tinyTrial tinyPeer) = some held ∧
        finalizeTrial quietHost.sha256 (closedState tinyTrial held) emptyDisk =
          ((collectorLoop defaultCollectorArgs quietHost tinyCollector
            (events ([tinyRx (.rawChunk 1), tinyRx (.jitterChunk 0), tinyRx (.rawChunk 1),
              tinyRx (.rawChunk 0)] ++ [tinyRx .rawEnd]))).1.disk, .ok complete) ∧
        complete = true := by
  have known : tinyCollector.states.lookup (uploadKey tinyTrial tinyPeer) = some tinyOpened :=
    AList.lookup_insert _
  have interval : effectiveInterval tinyOpened = some 1000 := rfl
  have deltas : ∀ delta ∈ tinyTrial.deltas, delta.toNat < 2 ^ 31 :=
    List.forall_mem_singleton.mpr (by decide)
  have upload : ∀ rx ∈ [tinyRx (.rawChunk 1), tinyRx (.jitterChunk 0), tinyRx (.rawChunk 1),
        tinyRx (.rawChunk 0)] ++ tinyRx .rawEnd :: [tinyRx (.rawChunk 0)],
      rx.peer = tinyPeer ∧ rx.sent ∈ (sendRawStream tinyTrial (goodSends tinyTrial)).2 := by
    decide +kernel
  obtain ⟨held, complete, lookup, final, all, _⟩ :=
    upload_reassembled defaultCollectorArgs quietHost tinyTrial tinyPeer (goodSends tinyTrial)
      (by decide) (by decide) deltas (by decide) known ⟨rfl, rfl, rfl, rfl⟩ interval (by decide)
      upload (by decide +kernel) rfl
  exact ⟨held, complete, lookup, final, all.mpr (by decide +kernel)⟩

end BootEntropy.Aeb
