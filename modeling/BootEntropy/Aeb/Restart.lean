import BootEntropy.Aeb.Streams

/-!
# The restart experiment

`run_restart_experiment.py`, the collector it starts, and a device that it resets:
three parties whose steps interleave freely. The device may send any datagrams; the
network may lose, repeat and reorder them. Clock texts of the two tables are left
out.
-/

namespace BootEntropy.Aeb

open BootEntropy.Lib

set_option autoImplicit false

/-! ## The runner -/

/-- Arguments that passed the checks of `main`. -/
structure RestartArgs where
  trials : Nat
  maxAttempts : Nat
  trialTimeout : Int
  sampleBytes : Int
  bursts : Int
  intervalUs : Int
  nonce : Block 16
  trialsPositive : 0 < trials
  attemptsCover : trials ≤ maxAttempts
  timeoutPositive : 0 < trialTimeout

def collectorCommand (args : RestartArgs) : CollectorArgs where
  trials := args.trials
  sampleBytes := some args.sampleBytes
  bursts := some args.bursts
  intervalUs := some args.intervalUs
  payloadBytes := 64
  payloadMode := .constant
  intervalJitterUs := 0
  startDelayMs := 20
  nonce := some args.nonce.val
  idleTimeout := max 300000000 (args.trialTimeout * 2)
  append := false

inductive Outcome where
  | complete
  | timeout
  deriving DecidableEq, Repr

/-- A row of `restart_trials.csv`. `none` is an empty cell. -/
structure RestartRow where
  resetAttempt : Nat
  successfulRestartIndex : Option Nat
  captureId : Option Nat
  outcome : Outcome
  deriving DecidableEq, Repr

/-- `phase` of `status.json`. -/
inductive StatusPhase where
  | waitingForCollector
  | waitingForTrial
  | running
  | finishing
  | complete
  | failed
  deriving DecidableEq, Repr

/-- Where `main` is. -/
inductive Point where
  | starting
  | loopTop
  | armed
  | pulsed
  | waiting
  | sleeping
  | left
  | returned
  deriving DecidableEq, Repr

structure Runner where
  point : Point
  phase : StatusPhase
  completed : Nat
  attempts : Nat
  before : Nat
  rows : List RestartRow

def startRunner : Runner := ⟨.starting, .waitingForCollector, 0, 0, 0, []⟩

inductive RunnerAct where
  /-- The collector listens: the reset loop starts. -/
  | begin
  /-- The loop condition holds and the collector is alive. -/
  | check
  | pulse
  /-- `complete_rows` of the CSV. -/
  | read
  /-- `complete_rows` of a CSV that cannot be read: an empty list. -/
  | misread
  /-- No new row, the deadline is not over, the collector is alive. -/
  | poll
  /-- No new row, and the deadline is over. -/
  | giveUp
  | leave
  | finish
  /-- An exception: a dead collector, a lost serial port. -/
  | fail
  deriving DecidableEq, Repr

section Runner

variable (args : RestartArgs)

def Runner.endAttempt (runner : Runner) (completed : Nat) (row : RestartRow) : Runner where
  point := .loopTop
  phase := if completed < args.trials then .running else .finishing
  completed := completed
  attempts := runner.attempts
  before := runner.before
  rows := runner.rows ++ [row]

def completeRow (runner : Runner) (rows : List TrialRow) : RestartRow where
  resetAttempt := runner.attempts
  successfulRestartIndex := some (rows.length - 1)
  captureId := rows.getLast?.map (·.captureId)
  outcome := .complete

def timeoutRow (runner : Runner) : RestartRow where
  resetAttempt := runner.attempts
  successfulRestartIndex := none
  captureId := none
  outcome := .timeout

/-- One step of `main`, given the complete rows of the CSV and how the collector
ended. `none` where the step is not possible. -/
def Runner.act (runner : Runner) (rows : List TrialRow) (ended : Option LoopEnd) :
    RunnerAct → Option Runner
  | .begin =>
      if runner.point = .starting then
        some { runner with point := .loopTop, completed := rows.length }
      else none
  | .check =>
      if runner.point = .loopTop ∧ runner.completed < args.trials ∧
          runner.attempts < args.maxAttempts ∧ ended = none then
        some { runner with point := .armed }
      else none
  | .pulse =>
      if runner.point = .armed then
        some { runner with
          point := .pulsed
          phase := .waitingForTrial
          attempts := runner.attempts + 1
          before := runner.completed }
      else none
  | .read =>
      if runner.point = .pulsed ∨ runner.point = .sleeping then
        if runner.before < rows.length then
          some (runner.endAttempt args rows.length (completeRow runner rows))
        else some { runner with point := .waiting }
      else none
  | .misread =>
      if runner.point = .pulsed ∨ runner.point = .sleeping then
        some { runner with point := .waiting }
      else none
  | .poll =>
      if runner.point = .waiting ∧ ended = none then some { runner with point := .sleeping }
      else none
  | .giveUp =>
      if runner.point = .waiting then
        some (runner.endAttempt args runner.completed (timeoutRow runner))
      else none
  | .leave =>
      if runner.point = .loopTop ∧
          ¬(runner.completed < args.trials ∧ runner.attempts < args.maxAttempts) then
        some { runner with point := .left }
      else none
  | .finish =>
      if runner.point = .left ∧ runner.completed = args.trials ∧
          (ended = some .finished ∨ ended = some .idle) then
        some { runner with point := .returned, phase := .complete }
      else none
  | .fail =>
      if runner.point ≠ .returned then some { runner with point := .returned, phase := .failed }
      else none

end Runner

/-! ## The three parties -/

/-- A datagram on the network, and how many resets came before it was sent. -/
structure Transmission where
  boot : Nat
  peer : Peer
  bytes : Bytes

/-- `helloBoots` remembers of each capture id which boot sent its HELLO. -/
structure Experiment where
  runner : Runner
  collector : Collector
  ended : Option LoopEnd
  sent : List Transmission
  helloBoots : List Nat

inductive Action where
  | runner (act : RunnerAct)
  /-- The device sends, in the boot it is in. -/
  | send (peer : Peer) (bytes : Bytes)
  /-- A datagram that was sent at some time reaches the collector. -/
  | deliver (index : Nat) (now : Int)
  | silence (now : Int)

section Experiment

variable (args : RestartArgs) (host : Host)

def startExperiment (startTime : Int) : Experiment where
  runner := startRunner
  collector := startCollector (collectorCommand args) startTime emptyDisk
  ended := none
  sent := []
  helloBoots := []

def isHello (rx : Rx) : Bool :=
  match parseMessage rx.data with
  | none => false
  | some msg => msg.msgType = aebTypeHello

def helloBootsAfter (experiment : Experiment) (boot : Nat) (rx : Rx) : List Nat :=
  if (collectorCommand args).trials ≤ experiment.collector.completed then experiment.helloBoots
  else if isHello rx then experiment.helloBoots ++ [boot]
  else experiment.helloBoots

def Experiment.withRunner (experiment : Experiment) (runner : Runner) : Experiment :=
  { experiment with runner := runner }

def Experiment.collect (experiment : Experiment) (event : Event) (helloBoots : List Nat) :
    Option Experiment :=
  if experiment.ended = none then
    match collectorStep (collectorCommand args) host experiment.collector event with
    | .go after => some { experiment with collector := after, helloBoots := helloBoots }
    | .stop after result =>
        some { experiment with
          collector := after
          ended := some result
          helloBoots := helloBoots }
  else none

def Experiment.act (experiment : Experiment) : Action → Option Experiment
  | .runner act =>
      (experiment.runner.act args (completeRows experiment.collector.disk) experiment.ended act).map
        experiment.withRunner
  | .send peer bytes =>
      some { experiment with
        sent := experiment.sent ++ [⟨experiment.runner.attempts, peer, bytes⟩] }
  | .deliver index now =>
      match experiment.sent[index]? with
      | none => none
      | some transmission =>
          experiment.collect args host (.datagram ⟨transmission.bytes, transmission.peer, now⟩)
            (helloBootsAfter args experiment transmission.boot
              ⟨transmission.bytes, transmission.peer, now⟩)
  | .silence now => experiment.collect args host (.silence now) experiment.helloBoots

/-- An action that is not possible ends the run. -/
def experimentStep (experiment : Experiment) (action : Action) : Next Experiment Unit :=
  match experiment.act args host action with
  | some after => .go after
  | none => .stop experiment ()

def runExperiment (startTime : Int) (actions : List Action) : Experiment :=
  (run (experimentStep args host) (startExperiment args startTime) actions).1

end Experiment

end BootEntropy.Aeb
