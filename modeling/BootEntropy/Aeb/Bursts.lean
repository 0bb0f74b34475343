import BootEntropy.Aeb.Sampling

/-!
# Bursts among other datagrams

The loop of `run_trial` makes one pass for each datagram, and as many passes as bursts
are expected. What it accepts is therefore among the first datagrams that arrive.
-/

namespace BootEntropy.Aeb

open BootEntropy.Lib

set_option autoImplicit false

/-! ## The socket -/

/-- A datagram and the cycle in which it reaches the socket. -/
structure Arrival where
  time : Nat
  datagram : Bytes

/-- `AEB_BURST_TIMEOUT_MS` at 240 MHz. -/
def burstTimeout : Nat := 2000 * 240000

/-- What the polls and receives of the loop return when it polls first in the cycle
`now`. A pass reads the counter `look` cycles behind its datagram and polls again
`work` cycles after that. -/
def socketTurns (look work : Nat → Nat) : Nat → Nat → List Arrival → Nat → Turn
  | _, now, [], _ => ⟨0, none, now + burstTimeout⟩
  | pass, now, arrival :: rest, i =>
      if now + burstTimeout ≤ arrival.time then ⟨0, none, now + burstTimeout⟩
      else
        let looked := max now arrival.time + look pass
        match i with
        | 0 => ⟨1, some arrival.datagram, looked⟩
        | i + 1 => socketTurns look work (pass + 1) (looked + work pass) rest i

/-- Each datagram arrives before the one in front of it is a timeout old. -/
def Steady : Nat → List Arrival → Prop
  | _, [] => True
  | previous, arrival :: rest =>
      arrival.time < previous + burstTimeout ∧ Steady arrival.time rest

instance steadyDecidable : ∀ (previous : Nat) (arrivals : List Arrival),
    Decidable (Steady previous arrivals)
  | _, [] => isTrue trivial
  | previous, arrival :: rest =>
      @instDecidableAnd (arrival.time < previous + burstTimeout) (Steady arrival.time rest) _
        (steadyDecidable arrival.time rest)

/-! ## Passes -/

/-- The datagrams of at most `left` passes. -/
def receivedIn (turns : Nat → Turn) : Nat → Nat → List Bytes
  | 0, _ => []
  | left + 1, i =>
      if (turns i).ready ≤ 0 then []
      else
        match (turns i).received with
        | none => []
        | some received => received :: receivedIn turns left (i + 1)

theorem received_in_congr {turns other : Nat → Turn} {shift : Nat}
    (same : ∀ i, turns (i + shift) = other i) (left : Nat) :
    ∀ i, receivedIn turns left (i + shift) = receivedIn other left i := by
  induction left with
  | zero => exact fun _ => rfl
  | succ left ih =>
      intro i
      rw [receivedIn, receivedIn, same, Nat.add_right_comm, ih (i + 1)]

/-- Without a gap every pass finds the next datagram. -/
theorem received_in_socket (look work : Nat → Nat) (left : Nat) :
    ∀ (pass now : Nat) (arrivals : List Arrival) (previous : Nat), previous ≤ now →
      Steady previous arrivals →
      receivedIn (socketTurns look work pass now arrivals) left 0 =
        (arrivals.map Arrival.datagram).take left := by
  induction left with
  | zero => exact fun _ _ _ _ _ _ => rfl
  | succ left ih =>
      intro pass now arrivals previous later steady
      cases arrivals with
      | nil => rfl
      | cons arrival rest =>
          have soon : ¬now + burstTimeout ≤ arrival.time := by
            have close := steady.1
            omega
          have first : socketTurns look work pass now (arrival :: rest) 0 =
              ⟨1, some arrival.datagram, max now arrival.time + look pass⟩ := by
            rw [socketTurns, if_neg soon]
          have shifted (i : Nat) : socketTurns look work pass now (arrival :: rest) (i + 1) =
              socketTurns look work (pass + 1) (max now arrival.time + look pass + work pass)
                rest i := by
            rw [socketTurns, if_neg soon]
          have ready : ¬(1 : Int) ≤ 0 := by decide
          rw [receivedIn, first, if_neg ready, received_in_congr shifted left 0,
            ih _ _ rest arrival.time (by omega) steady.2, List.map_cons, List.take_succ_cons]

section Count

variable {cfg : Config} {env : TrialEnv}

/-! ## What one pass changes -/

theorem entropy_read_exact_from_same {base len : Nat} (passes : Nat) :
    ∀ (off : Nat) (state after : Sampling cfg),
      entropyReadExactFrom env base len passes off state = .ok after →
      SameCounters state after := by
  induction passes with
  | zero =>
      intro off state after run
      cases run
      exact SameCounters.rfl
  | succ passes ih =>
      intro off state after run
      rw [entropyReadExactFrom] at run
      by_cases more : off < len
      · rw [if_pos more] at run
        obtain ⟨filled, _, run⟩ := bind_eq_ok run
        obtain ⟨rawBuf, _, run⟩ := bind_eq_ok run
        have rest := ih _ _ after run
        exact ⟨rest.jitterUs, rest.packetsSeen, rest.sampleUsed, rest.prevCycle⟩
      · rw [if_neg more] at run
        cases run
        exact SameCounters.rfl

theorem entropy_read_exact_same {base len : Nat} {state after : Sampling cfg}
    (run : entropyReadExact env base len state = .ok after) : SameCounters state after :=
  entropy_read_exact_from_same len 0 state after run

theorem take_burst_counters {requested perPacket cycles : Nat} {state after : Sampling cfg}
    (run : takeBurst env requested perPacket cycles state = .ok after) :
    Cells.write state.jitterUs state.packetsSeen
        [cyclesToUs state.prevCycle (cyclesNow cycles)] = .ok after.jitterUs ∧
      after.prevCycle = cyclesNow cycles ∧ after.packetsSeen = u32 (state.packetsSeen + 1) := by
  rw [takeBurst] at run
  obtain ⟨jitterUs, stored, run⟩ := bind_eq_ok run
  rw [map_error_eq_ok stored]
  dsimp only at run
  by_cases reads : 0 < (if requested < u32 (state.sampleUsed + perPacket) then
      u32 (requested + 2 ^ 32 - state.sampleUsed) else perPacket)
  · rw [if_pos reads] at run
    obtain ⟨read, reading, run⟩ := bind_eq_ok run
    have same := entropy_read_exact_same reading
    cases run
    refine ⟨congrArg Except.ok same.jitterUs.symm, same.prevCycle, ?_⟩
    exact congrArg (fun seen => u32 (seen + 1)) same.packetsSeen
  · rw [if_neg reads] at run
    cases run
    exact ⟨rfl, rfl, rfl⟩

theorem burst_loop_counts {start : AebMsg} {requested perPacket : Nat} (left : Nat) :
    ∀ (i : Nat) (state after : Sampling cfg), state.packetsSeen + left < 2 ^ 32 →
      burstLoop env start requested perPacket left i state = .ok after →
      after.packetsSeen =
        state.packetsSeen + (receivedIn env.turns left i).countP (acceptsBurst start) := by
  induction left with
  | zero =>
      intro i state after fits run
      cases run
      rfl
  | succ left ih =>
      intro i state after fits run
      rw [burstLoop] at run
      rw [receivedIn]
      by_cases silent : (env.turns i).ready ≤ 0
      · rw [if_pos silent] at run ⊢
        cases run
        rfl
      rw [if_neg silent] at run ⊢
      cases datagram : (env.turns i).received with
      | none =>
          rw [datagram] at run
          cases run
          rfl
      | some received =>
          rw [datagram] at run
          dsimp only at run ⊢
          by_cases accepted : acceptsBurst start received = true
          · rw [if_pos accepted] at run
            obtain ⟨next, taken, run⟩ := bind_eq_ok run
            have seen : next.packetsSeen = state.packetsSeen + 1 := by
              rw [(take_burst_counters taken).2.2, u32]
              omega
            rw [ih (i + 1) next after (by omega) run, seen, List.countP_cons_of_pos accepted]
            omega
          · rw [if_neg accepted] at run
            rw [ih (i + 1) state after (by omega) run, List.countP_cons_of_neg accepted]

/-! ## The trial -/

theorem run_trial_cases {start : ParsedMsg} {rawBuf : Block cfg.maxSampleBytes}
    {outcome : TrialOutcome cfg} (run : runTrial env start rawBuf = .ok outcome) :
    ∃ perPacket cleared,
      sampleWindow env start.toAebMsg (requestedBytes cfg start.toAebMsg)
        (expectedPackets cfg start.toAebMsg) perPacket cleared = .ok outcome.sampling ∧
      cleared.packetsSeen = 0 ∧ cleared.prevCycle = cyclesNow env.sampleStart ∧
      outcome.jitterCount = outcome.sampling.packetsSeen ∧
      outcome.result.sampleUs =
        cyclesToUs (cyclesNow env.sampleStart) (cyclesNow env.sampleEnd) := by
  rw [runTrial] at run
  obtain ⟨cleared, clearing, run⟩ := bind_eq_ok run
  obtain ⟨perPacket, _, run⟩ := bind_eq_ok run
  obtain ⟨transcriptHash, _, run⟩ := bind_eq_ok run
  obtain ⟨sampled, sampling, run⟩ := bind_eq_ok run
  have initial : cleared.packetsSeen = 0 ∧ cleared.prevCycle = cyclesNow env.sampleStart := by
    have fresh := map_error_eq_ok clearing
    rw [clearedSampling] at fresh
    obtain ⟨buffer, _, fresh⟩ := bind_eq_ok fresh
    cases fresh
    exact ⟨rfl, rfl⟩
  rw [finishTrial] at run
  obtain ⟨raw, _, run⟩ := bind_eq_ok run
  obtain ⟨deltas, _, run⟩ := bind_eq_ok run
  obtain ⟨rawHash, _, run⟩ := bind_eq_ok run
  obtain ⟨jitterHash, _, run⟩ := bind_eq_ok run
  obtain ⟨responseHash, _, run⟩ := bind_eq_ok run
  obtain ⟨seed, _, run⟩ := bind_eq_ok run
  obtain ⟨seedHash, _, run⟩ := bind_eq_ok run
  obtain ⟨stats, _, run⟩ := bind_eq_ok run
  cases run
  exact ⟨perPacket, cleared, sampling, initial.1, initial.2, rfl, rfl⟩

theorem sample_window_looped {start : AebMsg} {requested expected perPacket : Nat}
    {state after : Sampling cfg}
    (run : sampleWindow env start requested expected perPacket state = .ok after) :
    ∃ looped, burstLoop env start requested perPacket expected 0 state = .ok looped ∧
      after.jitterUs = looped.jitterUs ∧ after.packetsSeen = looped.packetsSeen := by
  rw [sampleWindow] at run
  by_cases idle : expected = 0
  · rw [if_pos idle] at run
    obtain ⟨read, reading, run⟩ := bind_eq_ok run
    have same := entropy_read_exact_same reading
    cases run
    rw [idle]
    exact ⟨state, rfl, same.jitterUs, same.packetsSeen⟩
  · rw [if_neg idle] at run
    obtain ⟨looped, looping, run⟩ := bind_eq_ok run
    split_ifs at run
    · obtain ⟨read, reading, run⟩ := bind_eq_ok run
      have same := entropy_read_exact_same reading
      cases run
      exact ⟨looped, looping, same.jitterUs, same.packetsSeen⟩
    · cases run
      exact ⟨_, looping, rfl, rfl⟩

theorem sample_window_counts {start : AebMsg} {requested expected perPacket : Nat}
    (fits : expected < 2 ^ 32) {state after : Sampling cfg} (none : state.packetsSeen = 0)
    (run : sampleWindow env start requested expected perPacket state = .ok after) :
    after.packetsSeen = (receivedIn env.turns expected 0).countP (acceptsBurst start) := by
  obtain ⟨looped, looping, _, seen⟩ := sample_window_looped run
  rw [seen, burst_loop_counts expected 0 state looped (by omega) looping, none, Nat.zero_add]

end Count

def TrialEnv.onSocket (env : TrialEnv) (look work : Nat → Nat) (firstPoll : Nat)
    (arrivals : List Arrival) : TrialEnv :=
  { env with turns := socketTurns look work 0 firstPoll arrivals }

theorem packets_seen_eq {cfg : Config} {env : TrialEnv} {start : ParsedMsg}
    {rawBuf : Block cfg.maxSampleBytes} {look work : Nat → Nat} {firstPoll : Nat}
    {arrivals : List Arrival} (later : env.sampleStart ≤ firstPoll)
    (steady : Steady env.sampleStart arrivals) {outcome : TrialOutcome cfg}
    (run : runTrial (env.onSocket look work firstPoll arrivals) start rawBuf = .ok outcome) :
    outcome.sampling.packetsSeen =
      ((arrivals.map Arrival.datagram).take (expectedPackets cfg start.toAebMsg)).countP
        (acceptsBurst start.toAebMsg) := by
  have jitterFits := cfg.jitterUsFits
  have bounded := expected_packets_eq cfg start.toAebMsg
  obtain ⟨perPacket, cleared, window, none, _, _⟩ := run_trial_cases run
  rw [sample_window_counts (by omega) none window, TrialEnv.onSocket,
    received_in_socket look work _ 0 firstPoll arrivals env.sampleStart later steady]

/-- Without a gap of a timeout, as many bursts are seen as are expected and arrive
exactly when strays take no pass from a burst: the first datagrams are all bursts, or
none of the others is one. -/
theorem stray_datagrams_iff (cfg : TrialConfig) (env : TrialEnv) (succeeds : env.Succeeds)
    (start : ParsedMsg) (rawBuf : Block cfg.maxSampleBytes) (look work : Nat → Nat)
    (firstPoll : Nat) (arrivals : List Arrival) (later : env.sampleStart ≤ firstPoll)
    (steady : Steady env.sampleStart arrivals) :
    ∃ outcome : TrialOutcome cfg.toConfig,
      runTrial (env.onSocket look work firstPoll arrivals) start rawBuf = .ok outcome ∧
      (outcome.sampling.packetsSeen =
          min (min start.seqOrCount.toNat cfg.maxBursts)
            ((arrivals.map Arrival.datagram).countP (acceptsBurst start.toAebMsg)) ↔
        (∀ datagram ∈ (arrivals.map Arrival.datagram).take
            (min start.seqOrCount.toNat cfg.maxBursts), acceptsBurst start.toAebMsg datagram) ∨
        ∀ datagram ∈ (arrivals.map Arrival.datagram).drop
            (min start.seqOrCount.toNat cfg.maxBursts),
          ¬acceptsBurst start.toAebMsg datagram) := by
  have polled : (env.onSocket look work firstPoll arrivals).Succeeds :=
    ⟨succeeds.entropy, succeeds.sha256, succeeds.mdKnown, succeeds.hkdf⟩
  obtain ⟨outcome, run, _⟩ := run_trial_ends cfg polled start rawBuf
  have seen := packets_seen_eq later steady run
  rw [expected_packets_eq] at seen
  exact ⟨outcome, run, by rw [seen]; exact count_take_eq_min_iff _ _ _⟩

/-- The host repeats the start message in front of the burst. -/
def repeatedStart : List Arrival :=
  [⟨0, buildMsg (trialOneMsg aebTypeStart 1 4)⟩, ⟨240000, buildMsg (trialOneMsg aebTypeBurst 0 0)⟩]

theorem stray_datagrams_repeated_start :
    Steady 0 repeatedStart ∧ ∃ outcome : TrialOutcome smallConfig.toConfig,
      runTrial ((zeroEnv (fun _ => ⟨0, none, 0⟩) 0).onSocket (fun _ => 1) (fun _ => 1) 0
        repeatedStart) (trialOneStart 1 4) (zeroBlock 4) = .ok outcome := by
  obtain ⟨outcome, run, _⟩ := stray_datagrams_iff smallConfig (zeroEnv (fun _ => ⟨0, none, 0⟩) 0)
    (zero_env_succeeds _ _) (trialOneStart 1 4) (zeroBlock 4) (fun _ => 1) (fun _ => 1) 0
    repeatedStart (by decide) (by decide)
  exact ⟨by decide, outcome, run⟩

/-- One burst is expected, one arrives, and none is seen. -/
theorem repeated_start_displaces_burst :
    Steady 0 repeatedStart ∧
    (repeatedStart.map Arrival.datagram).countP (acceptsBurst (trialOneStart 1 4).toAebMsg) = 1 ∧
    ∃ outcome : TrialOutcome smallConfig.toConfig,
      runTrial ((zeroEnv (fun _ => ⟨0, none, 0⟩) 0).onSocket (fun _ => 1) (fun _ => 1) 0
        repeatedStart) (trialOneStart 1 4) (zeroBlock 4) = .ok outcome ∧
      outcome.sampling.packetsSeen = 0 := by
  have steady : Steady 0 repeatedStart := by decide
  obtain ⟨outcome, run, _⟩ := @run_trial_ends smallConfig
    ((zeroEnv (fun _ => ⟨0, none, 0⟩) 0).onSocket (fun _ => 1) (fun _ => 1) 0 repeatedStart)
    (zero_env_succeeds _ _) (trialOneStart 1 4) (zeroBlock 4)
  have seen := packets_seen_eq (Nat.le_refl 0) steady run
  exact ⟨steady, by decide, outcome, run, seen⟩

end BootEntropy.Aeb
