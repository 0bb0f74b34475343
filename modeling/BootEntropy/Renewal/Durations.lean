import BootEntropy.Aeb.Deltas
import BootEntropy.Renewal.Credit

/-!
# Printed durations

`elapsed_us` of a session and the durations of a trial are differences of 32-bit cycle
readings. They are those of the intervals they measure as long as the counter has not
wrapped between the two outer readings, after 17.9 s.
-/

namespace BootEntropy.Renewal

open BootEntropy.Lib BootEntropy.Aeb

set_option autoImplicit false

def Session.elapsedCycles (session : Session) (outcome : Mixed) : Nat :=
  session.cyclesAfter outcome.exchange.calls.length - session.startCycles

theorem Session.cycles_after_le (session : Session) (calls : Nat) :
    session.startCycles ≤ session.cyclesAfter calls := Nat.le_add_right _ _

theorem iter_line_printed {build : Build} {session : Session} {iter : Int} {measured : Bool}
    {response : Response} {outcome : Mixed} {line : IterLine}
    (run : runOneIteration build session iter measured response = .ok outcome)
    (printed : .iter line ∈ outcome.exchange.console) :
    ∃ mixed, line = iterLine session iter mixed ∧ mixed.exchange.calls = outcome.exchange.calls := by
  rcases run_one_iteration_cases build session iter measured response with
    ⟨ret, console, silent, stopped⟩ | began
  · cases Except.ok.inj (stopped.symm.trans run)
    exact absurd printed (silent line)
  · obtain ⟨ret, after, request, requested⟩ := @dtls_request_entropy_requested build session
      { response with calls := [], console := [] } rfl quiet_nil
    obtain ⟨mixed, mixing, silent, _⟩ := @mix_requested_credited build session ret after iter requested
    rw [began, measureSession, request, ok_bind, mixing, ok_bind] at run
    cases measured with
    | false =>
        cases run
        exact absurd printed (silent line)
    | true =>
        cases run
        rcases List.mem_append.mp printed with before | last
        · exact absurd before (silent line)
        · cases List.mem_singleton.mp last
          exact ⟨mixed, rfl, rfl⟩

theorem elapsed_us_right_iff {build : Build} {session : Session} {iter : Int} {measured : Bool}
    {response : Response} {outcome : Mixed} {line : IterLine}
    (run : runOneIteration build session iter measured response = .ok outcome)
    (printed : .iter line ∈ outcome.exchange.console) :
    line.elapsedUs.toNat = session.elapsedCycles outcome / 240 ↔
      session.elapsedCycles outcome < 2 ^ 32 := by
  obtain ⟨mixed, same, calls⟩ := iter_line_printed run printed
  rw [same, Session.elapsedCycles, ← calls]
  exact @reading_quotient_eq_iff session.startCycles _ (session.cycles_after_le _) 240 (by decide)

/-! ## Both programs -/

/-- The printed durations are right exactly for sessions and trials that last less than a
period of the counter. -/
theorem durations_right_iff (build : Build) (session : Session) (iter : Int) (measured : Bool)
    (response : Response) (cfg : TrialConfig) (env : TrialEnv) (start : ParsedMsg)
    (rawBuf : Block cfg.maxSampleBytes) :
    (∀ (outcome : Mixed) (line : IterLine),
      runOneIteration build session iter measured response = .ok outcome →
      .iter line ∈ outcome.exchange.console →
      (line.elapsedUs.toNat = session.elapsedCycles outcome / 240 ↔
        session.elapsedCycles outcome < 2 ^ 32)) ∧
    ∀ outcome : TrialOutcome cfg.toConfig,
      (readingTimes cfg.toConfig env start.toAebMsg).Pairwise (· ≤ ·) →
      runTrial env start rawBuf = .ok outcome →
      (DurationsRight env start.toAebMsg outcome ↔ env.sampleEnd - env.sampleStart < 2 ^ 32) :=
  ⟨fun _ _ run printed => elapsed_us_right_iff run printed,
    fun _ ordered run => trial_durations_right_iff ordered run⟩

/-! ## Slow networks -/

def plainBuild : Build where
  entropyBytes := 32
  entropyBytesInt := by decide
  networkInjection := false
  injectEvery := 1

def noStats : PoolStats := ⟨0, 0, 0, 0, 0, 0, 0, 0⟩

/-- The only read fills the space it is offered, after `wait` cycles. -/
def waitingSession (wait : Nat) : Session where
  ctxCreated := true
  fd := 3
  sslCreated := true
  configured := 0
  connectRet := wolfsslSuccess
  writeRet := fun request => request.length
  read := fun _ space => ⟨space, Int.le_refl _, zeroBlock space⟩
  sslError := 0
  addEntropy := fun _ _ => 0
  startCycles := 0
  callCycles := fun call => if call = 2 then wait else 240000
  pre := noStats
  post := noStats
  rng := ⟨0, 0, 0, 0, 0, 0, 0⟩

def emptyResponse : Response := ⟨zeroBlock responseBufferSize, 0⟩

theorem waiting_session_reads (wait : Nat) :
    ∃ after, readLoop plainBuild (waitingSession wait)
        ⟨⟨zeroBlock responseBufferSize, 0⟩, setupCalls plainBuild, []⟩ = .ok (0, after) ∧
      after.calls.length = 3 := by
  have room : 0 < plainBuild.entropyBytes ∧ 0 < responseBufferSize := by decide
  have full : ¬(0 + (responseBufferSize : Int).toNat < plainBuild.entropyBytes ∧
      0 + (responseBufferSize : Int).toNat < responseBufferSize) := by decide
  have some : ¬(responseBufferSize : Int) ≤ 0 := by decide
  obtain ⟨responseData, written, _⟩ := @one_read
    ⟨⟨zeroBlock responseBufferSize, 0⟩, setupCalls plainBuild, []⟩ (by decide)
    ((waitingSession wait).read 2 responseBufferSize)
  rw [readLoop, dif_pos room]
  dsimp only
  split
  · next fault stopped => cases stopped.symm.trans written
  · next data stored =>
      have read : ((waitingSession wait).read (setupCalls plainBuild).length
          (responseBufferSize - 0)).ret = (responseBufferSize : Int) := rfl
      rw [read, if_neg some, readLoop, dif_neg full]
      exact ⟨_, rfl, rfl⟩

theorem waiting_session_run (wait : Nat) :
    ∃ outcome line, runOneIteration plainBuild (waitingSession wait) 0 true emptyResponse =
        .ok outcome ∧ .iter line ∈ outcome.exchange.console ∧ line.ret = 0 ∧
      (waitingSession wait).elapsedCycles outcome = 480000 + wait := by
  have connected : ¬(waitingSession wait).connectRet ≠ wolfsslSuccess := not_not_intro rfl
  have short : ¬((requestText plainBuild).length ≤ 0 ∨
      dtlsRequestBufferSize ≤ (requestText plainBuild).length) := by decide
  have sent : ¬(waitingSession wait).writeRet (requestText plainBuild) ≠
      (requestText plainBuild).length := not_not_intro rfl
  obtain ⟨after, run, count⟩ := waiting_session_reads wait
  have request : dtlsRequestEntropy plainBuild (waitingSession wait)
      { emptyResponse with calls := [], console := [] } = .ok (0, after) := by
    rw [dtlsRequestEntropy]
    dsimp only
    rw [if_neg connected, if_neg short, if_neg sent]
    exact run
  have whole : runOneIteration plainBuild (waitingSession wait) 0 true emptyResponse =
      measureSession plainBuild (waitingSession wait) 0 true
        { emptyResponse with calls := [], console := [] } := rfl
  rw [whole, measureSession, request, ok_bind]
  refine ⟨_, _, rfl, List.mem_append_right _ (List.mem_singleton.mpr rfl), rfl, ?_⟩
  have elapsed : (waitingSession wait).cyclesAfter after.calls.length - 0 = 480000 + wait := by
    have sum : (waitingSession wait).cyclesAfter 3 = 0 + (240000 + (240000 + (wait + 0))) := rfl
    rw [count, sum]
    omega
  exact elapsed

def defaultConfig : TrialConfig where
  maxSampleBytes := 8192
  maxBursts := 256
  rawChunkBytes := 512
  chunkPositive := Nat.succ_pos 511
  rawBufFits := by decide
  jitterUsFits := by decide
  txBufFits := (by decide : aebHeaderLen + 513 ≤ 2 ^ 31)
  samplePositive := by decide
  burstsPositive := by decide

/-- Ten bursts, `gap` cycles apart. -/
def spacedBursts (gap : Nat) : List Arrival :=
  (List.range 10).map fun i => ⟨(i + 1) * gap, buildMsg (trialOneMsg aebTypeBurst 0 0)⟩

def spacedEnv (gap : Nat) : TrialEnv :=
  (zeroEnv (fun _ => ⟨0, none, 0⟩) (11 * gap)).onSocket (fun _ => 1) (fun _ => 1) 0 (spacedBursts gap)

theorem spaced_trial_run (gap : Nat) (rawBuf : Block defaultConfig.maxSampleBytes) :
    ∃ outcome : TrialOutcome defaultConfig.toConfig,
      runTrial (spacedEnv gap) (trialOneStart 10 32) rawBuf = .ok outcome := by
  obtain ⟨outcome, run, _⟩ := @run_trial_ends defaultConfig (spacedEnv gap)
    ⟨fun _ _ => rfl, fun _ => rfl, rfl, fun _ _ _ => rfl⟩ (trialOneStart 10 32) rawBuf
  exact ⟨outcome, run⟩

def slowGap : Nat := 456000000

/-- A session that waits a second for its answer, and bursts a tenth of a second apart. -/
theorem durations_right_quick :
    (∃ outcome line, runOneIteration plainBuild (waitingSession 240000000) 0 true emptyResponse =
        .ok outcome ∧ .iter line ∈ outcome.exchange.console ∧
      line.elapsedUs.toNat = (waitingSession 240000000).elapsedCycles outcome / 240) ∧
    ∃ outcome : TrialOutcome defaultConfig.toConfig,
      runTrial (spacedEnv 24000000) (trialOneStart 10 32) (zeroBlock _) = .ok outcome ∧
      DurationsRight (spacedEnv 24000000) (trialOneStart 10 32).toAebMsg outcome := by
  have right := durations_right_iff plainBuild (waitingSession 240000000) 0 true emptyResponse
    defaultConfig (spacedEnv 24000000) (trialOneStart 10 32) (zeroBlock _)
  constructor
  · obtain ⟨outcome, line, run, printed, _, elapsed⟩ := waiting_session_run 240000000
    refine ⟨outcome, line, run, printed, (right.1 outcome line run printed).mpr ?_⟩
    rw [elapsed]
    decide
  · obtain ⟨outcome, run⟩ := spaced_trial_run 24000000 (zeroBlock _)
    exact ⟨outcome, run, (right.2 outcome (by decide +kernel) run).mpr (by decide)⟩

/-- An answer that takes 20 s, and bursts 1.9 s apart. -/
theorem slow_durations_wrap :
    (∃ outcome line, runOneIteration plainBuild (waitingSession 4800000000) 0 true emptyResponse =
        .ok outcome ∧ .iter line ∈ outcome.exchange.console ∧ line.ret = 0 ∧
      (waitingSession 4800000000).elapsedCycles outcome / 240 = 20002000 ∧
      line.elapsedUs.toNat ≠ 20002000) ∧
    (spacedEnv slowGap).sampleStart = 0 ∧ Steady 0 (spacedBursts slowGap) ∧
    ∃ outcome : TrialOutcome defaultConfig.toConfig,
      runTrial (spacedEnv slowGap) (trialOneStart 10 32) (zeroBlock _) = .ok outcome ∧
      outcome.result.sampleUs.toNat ≠
        trueUs ((spacedEnv slowGap).sampleStart, (spacedEnv slowGap).sampleEnd) := by
  constructor
  · obtain ⟨outcome, line, run, printed, succeeded, elapsed⟩ := waiting_session_run 4800000000
    have right := elapsed_us_right_iff run printed
    rw [elapsed] at right
    refine ⟨outcome, line, run, printed, succeeded, by rw [elapsed], fun same => ?_⟩
    exact absurd (right.mp same) (by decide)
  · obtain ⟨outcome, run⟩ := spaced_trial_run slowGap (zeroBlock _)
    refine ⟨rfl, by decide, outcome, run, fun same => ?_⟩
    obtain ⟨_, _, _, _, _, _, sampleUs⟩ := run_trial_cases run
    rw [sampleUs] at same
    exact absurd same (by decide +kernel)

end BootEntropy.Renewal
