import BootEntropy.Aeb.Trial

/-!
# Sampling is total and in bounds

The three read sites of `run_trial` divide one window: the slices of the bursts, cut
at the end of the window, and the tail. With calls that succeed no trial faults.
-/

namespace BootEntropy.Aeb

open BootEntropy.Lib

set_option autoImplicit false

section Sampling

variable {cfg : Config} {env : TrialEnv}

/-! ## Entropy reads -/

/-- The reads so far lie side by side and end at `used`. -/
structure Covers (state : Sampling cfg) (used : Nat) : Prop where
  small : ∀ read ∈ state.reads, read.2 ≤ entropyReadMax
  order : state.reads.flatMap (fun read => List.range' read.1 read.2) = List.range used

/-- All that an entropy read leaves alone. -/
structure SameCounters (before after : Sampling cfg) : Prop where
  jitterUs : after.jitterUs = before.jitterUs
  packetsSeen : after.packetsSeen = before.packetsSeen
  sampleUsed : after.sampleUsed = before.sampleUsed
  prevCycle : after.prevCycle = before.prevCycle

theorem SameCounters.rfl {state : Sampling cfg} : SameCounters state state :=
  ⟨.refl _, .refl _, .refl _, .refl _⟩

theorem Covers.snoc {state : Sampling cfg} {used chunk : Nat} (covers : Covers state used)
    (small : chunk ≤ entropyReadMax) (rawBuf : Block cfg.maxSampleBytes) (calls : Nat) :
    Covers { state with rawBuf := rawBuf, calls := calls, reads := state.reads ++ [(used, chunk)] }
      (used + chunk) := by
  constructor
  · intro read member
    rcases List.mem_append.mp member with earlier | last
    · exact covers.small read earlier
    · rw [List.mem_singleton.mp last]
      exact small
  · show (state.reads ++ [(used, chunk)]).flatMap _ = _
    have behind := @List.range'_append_1 0 used chunk
    rw [Nat.zero_add] at behind
    rw [List.flatMap_append, covers.order, List.flatMap_cons, List.flatMap_nil, List.append_nil,
      List.range_eq_range', List.range_eq_range', behind]

theorem entropy_read_exact_from_ok (succeeds : env.Succeeds) {base len : Nat}
    (fits : base + len ≤ cfg.maxSampleBytes) (passes : Nat) :
    ∀ (off : Nat) (state : Sampling cfg), off ≤ len → len ≤ passes + off →
      Covers state (base + off) →
      ∃ after, entropyReadExactFrom env base len passes off state = .ok after ∧
        Covers after (base + len) ∧ SameCounters state after := by
  induction passes with
  | zero =>
      intro off state inside enough covers
      have whole : off = len := by omega
      exact ⟨state, rfl, whole ▸ covers, SameCounters.rfl⟩
  | succ passes ih =>
      intro off state inside enough covers
      rw [entropyReadExactFrom]
      by_cases more : off < len
      · rw [if_pos more]
        have positive : 0 < entropyReadMax := by decide
        generalize size : (if entropyReadMax < len - off then entropyReadMax else len - off) = chunk
        have bounds : 0 < chunk ∧ chunk ≤ entropyReadMax ∧ chunk ≤ len - off := by
          rw [← size]
          split_ifs <;> omega
        obtain ⟨positive, small, left⟩ := bounds
        have length := (env.entropy state.calls chunk).output.property
        have room : base + off + (env.entropy state.calls chunk).output.val.length ≤
            cfg.maxSampleBytes := by omega
        obtain ⟨after, run, covered, same⟩ := ih (off + chunk)
          { state with
            rawBuf := Cells.written state.rawBuf (base + off) _ room
            calls := state.calls + 1
            reads := state.reads ++ [(base + off, chunk)] }
          (by omega) (by omega) (by rw [← Nat.add_assoc]; exact covers.snoc small _ _)
        refine ⟨after, ?_, covered, same.jitterUs, same.packetsSeen, same.sampleUsed,
          same.prevCycle⟩
        dsimp only
        rw [Filled.result_ok (succeeds.entropy _ _), ok_bind, Cells.write_ok _ room, map_error_ok,
          ok_bind]
        exact run
      · rw [if_neg more]
        have whole : off = len := by omega
        exact ⟨state, rfl, whole ▸ covers, SameCounters.rfl⟩

theorem entropy_read_exact_ok (succeeds : env.Succeeds) {base len : Nat}
    (fits : base + len ≤ cfg.maxSampleBytes) {state : Sampling cfg} (covers : Covers state base) :
    ∃ after, entropyReadExact env base len state = .ok after ∧
      Covers after (base + len) ∧ SameCounters state after :=
  entropy_read_exact_from_ok succeeds fits len 0 state (Nat.zero_le len) (Nat.le_refl len) covers

/-! ## Sizes -/

theorem requested_bytes_pos (cfg : TrialConfig) (start : AebMsg) :
    0 < requestedBytes cfg.toConfig start := by
  have positive := cfg.samplePositive
  dsimp only [requestedBytes]
  split_ifs <;> omega

theorem requested_bytes_le (cfg : Config) (start : AebMsg) :
    requestedBytes cfg start ≤ cfg.maxSampleBytes := by
  dsimp only [requestedBytes]
  split_ifs <;> omega

theorem expected_packets_eq (cfg : Config) (start : AebMsg) :
    expectedPackets cfg start = min start.seqOrCount.toNat cfg.maxBursts := by
  dsimp only [expectedPackets]
  split_ifs <;> omega

theorem per_packet_bytes_ok {requested expected : Nat} (positive : 0 < requested) :
    ∃ perPacket, perPacketBytes requested expected = .ok perPacket ∧ 0 < perPacket ∧
      perPacket ≤ requested := by
  rw [perPacketBytes]
  by_cases idle : expected = 0
  · rw [if_pos idle, ok_bind]
    dsimp only
    rw [if_neg (by omega)]
    exact ⟨requested, rfl, positive, Nat.le_refl requested⟩
  · rw [if_neg idle, checked_div_ok (Nat.pos_of_ne_zero idle), ok_bind]
    dsimp only
    by_cases none : requested / expected = 0
    · rw [if_pos ⟨Nat.pos_of_ne_zero idle, none⟩]
      exact ⟨1, rfl, Nat.one_pos, positive⟩
    · rw [if_neg fun both => none both.2]
      exact ⟨requested / expected, rfl, Nat.pos_of_ne_zero none, Nat.div_le_self ..⟩

/-! ## The loop -/

/-- After `passes` passes. -/
structure Sampled (requested passes : Nat) (state : Sampling cfg) : Prop where
  covers : Covers state state.sampleUsed
  inside : state.sampleUsed ≤ requested
  counted : state.packetsSeen ≤ passes

theorem take_burst_ok (succeeds : env.Succeeds) {requested perPacket passes cycles : Nat}
    (fits : requested ≤ cfg.maxSampleBytes) (slice : perPacket ≤ requested)
    (room : passes < cfg.maxBursts) {state : Sampling cfg}
    (sampled : Sampled requested passes state) :
    ∃ after, takeBurst env requested perPacket cycles state = .ok after ∧
      Sampled requested (passes + 1) after ∧ after.packetsSeen = state.packetsSeen + 1 := by
  have rawFits := cfg.rawBufFits
  have jitterFits := cfg.jitterUsFits
  have inside := sampled.inside
  have counted := sampled.counted
  have one : state.packetsSeen + [cyclesToUs state.prevCycle (cyclesNow cycles)].length ≤
      cfg.maxBursts := by
    rw [List.length_singleton]
    omega
  have next : u32 (state.packetsSeen + 1) = state.packetsSeen + 1 := by
    rw [u32]
    omega
  rw [takeBurst]
  dsimp only
  rw [Cells.write_ok _ one, map_error_ok, ok_bind]
  generalize size : (if requested < u32 (state.sampleUsed + perPacket) then
    u32 (requested + 2 ^ 32 - state.sampleUsed) else perPacket) = toRead
  have cut : state.sampleUsed + toRead ≤ requested := by
    rw [← size, u32, u32]
    split_ifs <;> omega
  by_cases reads : 0 < toRead
  · obtain ⟨read, run, covered, same⟩ := @entropy_read_exact_ok cfg env succeeds state.sampleUsed
      toRead (by omega)
      { state with
        jitterUs := Cells.written state.jitterUs state.packetsSeen _ one
        prevCycle := cyclesNow cycles } ⟨sampled.covers.small, sampled.covers.order⟩
    have used : u32 (read.sampleUsed + toRead) = state.sampleUsed + toRead := by
      rw [same.sampleUsed, u32]
      dsimp only
      omega
    have seen : u32 (read.packetsSeen + 1) = state.packetsSeen + 1 := by
      rw [same.packetsSeen]
      exact next
    rw [if_pos reads, run, ok_bind]
    refine ⟨_, rfl, ⟨?_, ?_, ?_⟩, seen⟩
    · show Covers _ (u32 (read.sampleUsed + toRead))
      rw [used]
      exact ⟨covered.small, covered.order⟩
    · show u32 (read.sampleUsed + toRead) ≤ requested
      rwa [used]
    · show u32 (read.packetsSeen + 1) ≤ passes + 1
      omega
  · rw [if_neg reads]
    refine ⟨_, rfl, ⟨⟨sampled.covers.small, sampled.covers.order⟩, inside, ?_⟩, next⟩
    show u32 (state.packetsSeen + 1) ≤ passes + 1
    omega

theorem burst_loop_ok (succeeds : env.Succeeds) {start : AebMsg} {requested perPacket : Nat}
    (fits : requested ≤ cfg.maxSampleBytes) (slice : perPacket ≤ requested) (left : Nat) :
    ∀ (i : Nat) (state : Sampling cfg), i + left ≤ cfg.maxBursts → Sampled requested i state →
      ∃ after, burstLoop env start requested perPacket left i state = .ok after ∧
        Sampled requested (i + left) after := by
  induction left with
  | zero => exact fun i state _ sampled => ⟨state, rfl, sampled⟩
  | succ left ih =>
      intro i state room sampled
      have more : Sampled requested (i + (left + 1)) state :=
        ⟨sampled.covers, sampled.inside, sampled.counted.trans (Nat.le_add_right i _)⟩
      rw [burstLoop]
      by_cases silent : (env.turns i).ready ≤ 0
      · rw [if_pos silent]
        exact ⟨state, rfl, more⟩
      rw [if_neg silent]
      cases (env.turns i).received with
      | none => exact ⟨state, rfl, more⟩
      | some received =>
          dsimp only
          by_cases accepted : acceptsBurst start received = true
          · obtain ⟨next, taken, onward, _⟩ := take_burst_ok succeeds fits slice
              (show i < cfg.maxBursts by omega) sampled
            obtain ⟨after, run, done⟩ := ih (i + 1) next (by omega) onward
            rw [if_pos accepted, taken, ok_bind]
            exact ⟨after, run, by rwa [Nat.add_right_comm, Nat.add_assoc] at done⟩
          · obtain ⟨after, run, done⟩ := ih (i + 1) state (by omega)
              ⟨sampled.covers, sampled.inside, sampled.counted.trans (Nat.le_succ i)⟩
            rw [if_neg accepted]
            exact ⟨after, run, by rwa [Nat.add_right_comm, Nat.add_assoc] at done⟩

theorem sample_window_ok (succeeds : env.Succeeds) {start : AebMsg}
    {requested expected perPacket : Nat} (fits : requested ≤ cfg.maxSampleBytes)
    (room : expected ≤ cfg.maxBursts) (slice : perPacket ≤ requested) {state : Sampling cfg}
    (sampled : Sampled requested 0 state) (unread : state.sampleUsed = 0) :
    ∃ after, sampleWindow env start requested expected perPacket state = .ok after ∧
      Covers after requested ∧ after.packetsSeen ≤ expected := by
  have rawFits := cfg.rawBufFits
  have none : state.packetsSeen = 0 := Nat.le_zero.mp sampled.counted
  rw [sampleWindow]
  by_cases idle : expected = 0
  · have covers := sampled.covers
    rw [unread] at covers
    obtain ⟨read, run, covered, same⟩ := entropy_read_exact_ok succeeds
      (show 0 + requested ≤ cfg.maxSampleBytes by omega) covers
    rw [Nat.zero_add] at covered
    have seen : read.packetsSeen = 0 := same.packetsSeen.trans none
    rw [if_pos idle, run, ok_bind]
    exact ⟨_, rfl, ⟨covered.small, covered.order⟩, (Nat.le_of_eq seen).trans (Nat.zero_le _)⟩
  · obtain ⟨looped, run, done⟩ := burst_loop_ok succeeds fits slice expected 0 state
      (show 0 + expected ≤ cfg.maxBursts by omega) sampled
    have counted : looped.packetsSeen ≤ expected := by
      rw [← Nat.zero_add expected]
      exact done.counted
    have inside := done.inside
    rw [if_neg idle, run, ok_bind]
    by_cases missing : looped.sampleUsed < requested
    · have rest : u32 (requested + 2 ^ 32 - looped.sampleUsed) =
          requested - looped.sampleUsed := by
        rw [u32]
        omega
      obtain ⟨read, tail, covered, same⟩ := entropy_read_exact_ok succeeds
        (show looped.sampleUsed + (requested - looped.sampleUsed) ≤ cfg.maxSampleBytes by omega)
        done.covers
      rw [Nat.add_sub_cancel' inside] at covered
      rw [if_pos missing, rest, tail, ok_bind]
      exact ⟨_, rfl, ⟨covered.small, covered.order⟩, (Nat.le_of_eq same.packetsSeen).trans counted⟩
    · have whole : looped.sampleUsed = requested := by omega
      have covered := done.covers
      rw [whole] at covered
      rw [if_neg missing]
      exact ⟨looped, rfl, covered, counted⟩

/-! ## The whole trial -/

theorem jitter_stats_ok (deltas : List UInt32) : ∃ stats, jitterStats deltas = .ok stats := by
  cases deltas with
  | nil => exact ⟨_, rfl⟩
  | cons first rest =>
      rw [jitterStats, checked_div_ok (List.length_pos_of_ne_nil (List.cons_ne_nil _ _)), ok_bind]
      exact ⟨_, rfl⟩

theorem derive_seed_ok (succeeds : env.Succeeds) (responseHash transcriptHash : Block aebHashLen) :
    ∃ seed, deriveSeed env responseHash transcriptHash = .ok seed := by
  rw [deriveSeed, if_pos succeeds.mdKnown, Filled.result_ok (succeeds.hkdf ..)]
  exact ⟨_, rfl⟩

theorem finish_trial_ok (succeeds : env.Succeeds) {start : ParsedMsg}
    {transcriptHash : Block aebHashLen} {requested expected : Nat}
    (fits : requested ≤ cfg.maxSampleBytes) {state : Sampling cfg}
    (counted : state.packetsSeen ≤ cfg.maxBursts) :
    ∃ outcome, finishTrial env start transcriptHash requested expected state = .ok outcome ∧
      outcome.sampling = state ∧ outcome.rawLen = requested ∧
      outcome.jitterCount = state.packetsSeen ∧
      outcome.result.packetsSeen.toNat = state.packetsSeen := by
  have jitterFits := cfg.jitterUsFits
  have seen : (UInt32.ofNat state.packetsSeen).toNat = state.packetsSeen := by
    rw [UInt32.toNat_ofNat']
    omega
  rw [finishTrial, Cells.read_ok _ (by omega), map_error_ok, ok_bind,
    Cells.read_ok _ (by omega), map_error_ok, ok_bind, Filled.result_ok (succeeds.sha256 _), ok_bind,
    Filled.result_ok (succeeds.sha256 _), ok_bind, Filled.result_ok (succeeds.sha256 _), ok_bind]
  obtain ⟨seed, derived⟩ := derive_seed_ok succeeds
    (env.sha256 ((state.rawBuf.val.drop 0).take requested ++
      packDeltas ((state.jitterUs.val.drop 0).take state.packetsSeen))).output transcriptHash
  obtain ⟨stats, measured⟩ := jitter_stats_ok ((state.jitterUs.val.drop 0).take state.packetsSeen)
  rw [derived, ok_bind, Filled.result_ok (succeeds.sha256 _), ok_bind, measured, map_error_ok,
    ok_bind]
  exact ⟨_, rfl, rfl, rfl, rfl, seen⟩

theorem cleared_sampling_ok (env : TrialEnv) {requested : Nat} (rawBuf : Block cfg.maxSampleBytes)
    (fits : requested ≤ cfg.maxSampleBytes) :
    ∃ state, clearedSampling env requested rawBuf = .ok state ∧ Sampled requested 0 state ∧
      state.sampleUsed = 0 := by
  have room : 0 + (List.replicate requested (0 : UInt8)).length ≤ cfg.maxSampleBytes := by
    rw [List.length_replicate]
    omega
  have covers (state : Sampling cfg) (none : state.reads = []) : Covers state 0 := by
    constructor
    · rw [none]
      exact List.forall_mem_nil _
    · rw [none]
      rfl
  rw [clearedSampling, Cells.write_ok _ room, ok_bind]
  exact ⟨_, rfl, ⟨covers _ rfl, Nat.zero_le _, Nat.le_refl 0⟩, rfl⟩

theorem run_trial_ends (cfg : TrialConfig) {env : TrialEnv} (succeeds : env.Succeeds)
    (start : ParsedMsg) (rawBuf : Block cfg.maxSampleBytes) :
    ∃ outcome : TrialOutcome cfg.toConfig, runTrial env start rawBuf = .ok outcome ∧
      Covers outcome.sampling (requestedBytes cfg.toConfig start.toAebMsg) ∧
      outcome.rawLen = requestedBytes cfg.toConfig start.toAebMsg ∧
      outcome.jitterCount ≤ expectedPackets cfg.toConfig start.toAebMsg ∧
      outcome.result.packetsSeen.toNat = outcome.jitterCount := by
  have positive := requested_bytes_pos cfg start.toAebMsg
  have fits := requested_bytes_le cfg.toConfig start.toAebMsg
  have bursts := expected_packets_eq cfg.toConfig start.toAebMsg
  obtain ⟨state, cleared, sampled, unread⟩ := cleared_sampling_ok env rawBuf fits
  obtain ⟨perPacket, quotient, _, slice⟩ := @per_packet_bytes_ok
    (requestedBytes cfg.toConfig start.toAebMsg) (expectedPackets cfg.toConfig start.toAebMsg) positive
  obtain ⟨window, run, covered, counted⟩ := @sample_window_ok cfg.toConfig env succeeds
    start.toAebMsg _ (expectedPackets cfg.toConfig start.toAebMsg) perPacket fits (by omega) slice
    state sampled unread
  obtain ⟨outcome, done, sampling, rawLen, jitterCount, seen⟩ := @finish_trial_ok cfg.toConfig env
    succeeds start (env.sha256 start.header.val).output
    (requestedBytes cfg.toConfig start.toAebMsg) (expectedPackets cfg.toConfig start.toAebMsg)
    fits window (by omega)
  refine ⟨outcome, ?_, sampling ▸ covered, rawLen, jitterCount ▸ counted, seen.trans jitterCount.symm⟩
  rw [runTrial, cleared, map_error_ok, ok_bind, quotient, map_error_ok, ok_bind,
    Filled.result_ok (succeeds.sha256 _), ok_bind, run, ok_bind]
  exact done

/-- No trial faults, whatever is received: the reads are short, cover the window once
and in order, and the counts stay below their limits. -/
theorem run_trial_in_bounds (cfg : TrialConfig) (env : TrialEnv) (succeeds : env.Succeeds)
    (start : ParsedMsg) (rawBuf : Block cfg.maxSampleBytes) :
    ∃ outcome : TrialOutcome cfg.toConfig, runTrial env start rawBuf = .ok outcome ∧
      (∀ read ∈ outcome.sampling.reads, read.2 ≤ 64) ∧
      outcome.sampling.reads.flatMap (fun read => List.range' read.1 read.2) =
        List.range (requestedBytes cfg.toConfig start.toAebMsg) ∧
      outcome.rawLen = requestedBytes cfg.toConfig start.toAebMsg ∧
      1 ≤ outcome.rawLen ∧ outcome.rawLen ≤ cfg.maxSampleBytes ∧
      outcome.jitterCount ≤ min start.seqOrCount.toNat cfg.maxBursts ∧
      outcome.result.packetsSeen.toNat = outcome.jitterCount := by
  obtain ⟨outcome, run, covered, rawLen, counted, seen⟩ := run_trial_ends cfg succeeds start rawBuf
  have positive := requested_bytes_pos cfg start.toAebMsg
  have fits := requested_bytes_le cfg.toConfig start.toAebMsg
  rw [expected_packets_eq] at counted
  exact ⟨outcome, run, covered.small, covered.order, rawLen, by omega, by omega, counted, seen⟩

end Sampling

/-! ## A small build -/

def smallConfig : TrialConfig where
  maxSampleBytes := 4
  maxBursts := 3
  rawChunkBytes := 512
  chunkPositive := by decide
  rawBufFits := (by decide : 5 ≤ 2 ^ 31)
  jitterUsFits := by decide
  txBufFits := by decide
  samplePositive := Nat.succ_pos 3
  burstsPositive := by decide

def zeroEnv (turns : Nat → Turn) (sampleEnd : Nat) : TrialEnv where
  turns := turns
  entropy := fun _ len => ⟨0, zeroBlock len⟩
  sampleStart := 0
  sampleEnd := sampleEnd
  sha256 := fun _ => ⟨0, zeroBlock aebHashLen⟩
  mdKnown := true
  hkdf := fun _ _ _ => ⟨0, zeroBlock aebSeedLen⟩

theorem zero_env_succeeds (turns : Nat → Turn) (sampleEnd : Nat) :
    (zeroEnv turns sampleEnd).Succeeds :=
  ⟨fun _ _ => rfl, fun _ => rfl, rfl, fun _ _ _ => rfl⟩

def trialOneMsg (type seqOrCount sampleBytes : Nat) : AebMsg where
  type := UInt16.ofNat type
  trialId := 1
  seqOrCount := UInt32.ofNat seqOrCount
  intervalUs := 0
  sampleBytes := UInt32.ofNat sampleBytes
  nonce := zeroBlock 16

def trialOneStart (count sampleBytes : Nat) : ParsedMsg :=
  { trialOneMsg aebTypeStart count sampleBytes with
    header := ⟨buildMsg (trialOneMsg aebTypeStart count sampleBytes), build_msg_length _⟩ }

/-- Three bytes in slices of one, of two expected bursts one arrives. -/
theorem run_trial_in_bounds_small :
    ∃ outcome : TrialOutcome smallConfig.toConfig,
      runTrial (zeroEnv (fun i =>
        ⟨if i = 0 then 1 else 0, some (buildMsg (trialOneMsg aebTypeBurst 0 0)), 0⟩) 0)
        (trialOneStart 2 3) (zeroBlock 4) = .ok outcome ∧
      outcome.sampling.reads.flatMap (fun read => List.range' read.1 read.2) = List.range 3 ∧
      outcome.rawLen = 3 ∧ outcome.jitterCount ≤ 2 := by
  obtain ⟨outcome, run, _, order, rawLen, _, _, counted, _⟩ :=
    run_trial_in_bounds smallConfig _ (zero_env_succeeds (fun i =>
      ⟨if i = 0 then 1 else 0, some (buildMsg (trialOneMsg aebTypeBurst 0 0)), 0⟩) 0)
      (trialOneStart 2 3) (zeroBlock 4)
  exact ⟨outcome, run, order, rawLen, counted⟩

end BootEntropy.Aeb
