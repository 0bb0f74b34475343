import BootEntropy.Aeb.Bursts
import BootEntropy.Lib.Counter

/-!
# Durations of a trial

Each accepted burst stores the time since the one before, and the trial reports the time
between its two outer readings. All of them are differences of 32-bit readings.
-/

namespace BootEntropy.Aeb

open BootEntropy.Lib

set_option autoImplicit false

/-- The cycles in which the bursts of at most `left` passes are accepted. -/
def burstTimes (start : AebMsg) (turns : Nat → Turn) : Nat → Nat → List Nat
  | 0, _ => []
  | left + 1, i =>
      if (turns i).ready ≤ 0 then []
      else
        match (turns i).received with
        | none => []
        | some received =>
            if acceptsBurst start received then
              (turns i).cycles :: burstTimes start turns left (i + 1)
            else burstTimes start turns left (i + 1)

def printedUs (interval : Nat × Nat) : UInt32 :=
  cyclesToUs (cyclesNow interval.1) (cyclesNow interval.2)

def trueUs (interval : Nat × Nat) : Nat := (interval.2 - interval.1) / 240

theorem printed_us_eq_iff {interval : Nat × Nat} (later : interval.1 ≤ interval.2) :
    (printedUs interval).toNat = trueUs interval ↔ interval.2 - interval.1 < 2 ^ 32 :=
  @reading_quotient_eq_iff interval.1 interval.2 later cyclesPerUs (by decide)

def Sampling.deltas {cfg : Config} (state : Sampling cfg) : List UInt32 :=
  state.jitterUs.val.take state.packetsSeen

section Deltas

variable {cfg : Config} {env : TrialEnv}

theorem take_burst_deltas {requested perPacket previous cycles : Nat} {state after : Sampling cfg}
    (fits : state.packetsSeen + 1 < 2 ^ 32) (reading : state.prevCycle = cyclesNow previous)
    (run : takeBurst env requested perPacket cycles state = .ok after) :
    after.deltas = state.deltas ++ [printedUs (previous, cycles)] := by
  obtain ⟨written, _, seen⟩ := take_burst_counters run
  rw [reading] at written
  have stored : Cells.write state.jitterUs state.packetsSeen [printedUs (previous, cycles)] =
      .ok after.jitterUs := written
  have counted : after.packetsSeen = state.packetsSeen + 1 := by
    rw [seen, u32]
    omega
  have room : state.packetsSeen + [printedUs (previous, cycles)].length ≤ cfg.maxBursts := by
    by_contra beyond
    rw [Cells.write_fault _ (Nat.lt_of_not_le beyond)] at stored
    cases stored
  rw [Cells.write_ok _ room] at stored
  rw [Sampling.deltas, counted, ← Except.ok.inj stored]
  exact Cells.take_written _ room

theorem burst_loop_deltas {start : AebMsg} {requested perPacket : Nat} (left : Nat) :
    ∀ (i previous : Nat) (state after : Sampling cfg), state.packetsSeen + left < 2 ^ 32 →
      state.prevCycle = cyclesNow previous →
      burstLoop env start requested perPacket left i state = .ok after →
      after.deltas = state.deltas ++
        (intervals previous (burstTimes start env.turns left i)).map printedUs := by
  induction left with
  | zero =>
      intro i previous state after fits reading run
      cases run
      exact (List.append_nil _).symm
  | succ left ih =>
      intro i previous state after fits reading run
      rw [burstLoop] at run
      rw [burstTimes]
      by_cases silent : (env.turns i).ready ≤ 0
      · rw [if_pos silent] at run ⊢
        cases run
        exact (List.append_nil _).symm
      rw [if_neg silent] at run ⊢
      cases datagram : (env.turns i).received with
      | none =>
          rw [datagram] at run
          cases run
          exact (List.append_nil _).symm
      | some received =>
          rw [datagram] at run
          dsimp only at run ⊢
          by_cases accepted : acceptsBurst start received = true
          · rw [if_pos accepted] at run ⊢
            obtain ⟨next, taken, run⟩ := bind_eq_ok run
            obtain ⟨_, nextReading, seen⟩ := take_burst_counters taken
            have counted : next.packetsSeen = state.packetsSeen + 1 := by
              rw [seen, u32]
              omega
            rw [ih (i + 1) (env.turns i).cycles next after (by omega) nextReading run,
              take_burst_deltas (by omega) reading taken, intervals, List.map_cons,
              List.append_assoc, List.singleton_append]
          · rw [if_neg accepted] at run ⊢
            exact ih (i + 1) previous state after (by omega) reading run

theorem sample_window_deltas {start : AebMsg} {requested expected perPacket previous : Nat}
    (fits : expected < 2 ^ 32) {state after : Sampling cfg} (none : state.packetsSeen = 0)
    (reading : state.prevCycle = cyclesNow previous)
    (run : sampleWindow env start requested expected perPacket state = .ok after) :
    after.deltas = (intervals previous (burstTimes start env.turns expected 0)).map printedUs := by
  have empty : state.deltas = [] := by
    rw [Sampling.deltas, none]
    rfl
  obtain ⟨looped, looping, same, seen⟩ := sample_window_looped run
  have stored := burst_loop_deltas expected 0 previous state looped (by omega) reading looping
  rw [empty, List.nil_append] at stored
  rw [← stored, Sampling.deltas, Sampling.deltas, same, seen]

end Deltas

/-! ## The trial -/

/-- The outer readings of a trial with those of its bursts between them. -/
def readingTimes (cfg : Config) (env : TrialEnv) (start : AebMsg) : List Nat :=
  env.sampleStart :: burstTimes start env.turns (expectedPackets cfg start) 0 ++ [env.sampleEnd]

/-- Every duration of the trial is that of the interval it measures. -/
structure DurationsRight {cfg : Config} (env : TrialEnv) (start : AebMsg)
    (outcome : TrialOutcome cfg) : Prop where
  sample : outcome.result.sampleUs.toNat = trueUs (env.sampleStart, env.sampleEnd)
  deltas : outcome.sampling.deltas.map UInt32.toNat =
    (intervals env.sampleStart (burstTimes start env.turns (expectedPackets cfg start) 0)).map trueUs

theorem trial_durations_right_iff {cfg : Config} {env : TrialEnv} {start : ParsedMsg}
    {rawBuf : Block cfg.maxSampleBytes} {outcome : TrialOutcome cfg}
    (ordered : (readingTimes cfg env start.toAebMsg).Pairwise (· ≤ ·))
    (run : runTrial env start rawBuf = .ok outcome) :
    DurationsRight env start.toAebMsg outcome ↔ env.sampleEnd - env.sampleStart < 2 ^ 32 := by
  have jitterFits := cfg.jitterUsFits
  have bounded := expected_packets_eq cfg start.toAebMsg
  have later : env.sampleStart ≤ env.sampleEnd :=
    (List.pairwise_cons.mp ordered).1 env.sampleEnd
      (List.mem_append_right _ (List.mem_singleton.mpr rfl))
  obtain ⟨perPacket, cleared, window, none, reading, _, sampleUs⟩ := run_trial_cases run
  have sample : outcome.result.sampleUs.toNat = trueUs (env.sampleStart, env.sampleEnd) ↔
      env.sampleEnd - env.sampleStart < 2 ^ 32 := by
    rw [sampleUs]
    exact @printed_us_eq_iff (env.sampleStart, env.sampleEnd) later
  have stored := sample_window_deltas (by omega) none reading window
  constructor
  · exact fun right => sample.mp right.sample
  · intro short
    refine ⟨sample.mpr short, ?_⟩
    rw [stored, List.map_map]
    apply List.map_congr_left
    intro interval member
    obtain ⟨behind, forward, before⟩ := intervals_inside _ _ ordered interval member
    exact (printed_us_eq_iff forward).mpr (by omega)

end BootEntropy.Aeb
