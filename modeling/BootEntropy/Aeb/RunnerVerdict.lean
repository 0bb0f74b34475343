import BootEntropy.Aeb.Pairing

/-!
# Verdict of the restart runner

`run_restart_experiment.py` learns of the collector in two ways, at different times:
it reads the CSV, and it polls the process. `Look` remembers the last reading. The
SIGINT of `stop_collector` comes behind the verdict and is left out.
-/

namespace BootEntropy.Aeb

open BootEntropy.Lib

set_option autoImplicit false

/-! ## Exceptions of `main` -/

def LoopEnd.exitStatus : LoopEnd → Nat
  | .raised _ => 1
  | .running => 0
  | .finished => 0
  | .idle => 0

/-- The `error` of `status.json`. `elsewhere`: the collector is not ready or does not
end in time, or a serial port or a file is lost. -/
inductive Failure where
  | collectorExited (status : Nat)
  | stopped (attempts completed : Nat)
  | elsewhere
  deriving DecidableEq, Repr

section Runner

variable (args : RestartArgs) (runner : Runner)

/-- `collector.poll()`: in `wait_for_collector`, at the top of the reset loop, and
while the runner waits for a row. -/
def Runner.polls : RunnerAct → Prop
  | .poll => runner.point = .starting ∨ runner.point = .waiting
  | .check => runner.point = .loopTop ∧ runner.completed < args.trials ∧
      runner.attempts < args.maxAttempts
  | _ => False

instance (act : RunnerAct) : Decidable (runner.polls args act) :=
  match act with
  | .poll => inferInstanceAs (Decidable (_ ∨ _))
  | .check => inferInstanceAs (Decidable (_ ∧ _))
  | .begin => isFalse id
  | .pulse => isFalse id
  | .read => isFalse id
  | .misread => isFalse id
  | .giveUp => isFalse id
  | .leave => isFalse id
  | .finish => isFalse id
  | .fail => isFalse id

/-- Behind the reset loop: the count, then the status of `collector.wait`. -/
def Runner.finalError (ended : Option LoopEnd) : Option Failure :=
  if runner.completed ≠ args.trials then some (.stopped runner.attempts runner.completed)
  else
    match ended with
    | none => none
    | some result =>
        if result.exitStatus = 0 then none else some (.collectorExited result.exitStatus)

/-- What the next statement of `main` raises. -/
def Runner.raised (ended : Option LoopEnd) (act : RunnerAct) : Option Failure :=
  if runner.polls args act then ended.map fun result => .collectorExited result.exitStatus
  else
    match act with
    | .finish => if runner.point = .left then runner.finalError args ended else none
    | .fail => if runner.point = .returned then none else some .elsewhere
    | _ => none

end Runner

/-! ## The supervised experiment -/

/-- Complete rows of the CSV when the runner last read it, and how the collector had
ended by then. -/
structure Look where
  rows : Nat
  ended : Option LoopEnd

/-- The plain experiment, the `error` of `status.json`, and an account of the last look. -/
structure Supervision where
  experiment : Experiment
  error : Option Failure
  look : Look

def Experiment.completeCount (experiment : Experiment) : Nat :=
  (completeRows experiment.collector.disk).length

section Supervision

variable (args : RestartArgs) (host : Host)

def startSupervision (startTime : Int) : Supervision :=
  ⟨startExperiment args startTime, none, ⟨0, none⟩⟩

/-- The handler of `main`. -/
def Supervision.fail (state : Supervision) (failure : Failure) : Supervision where
  experiment := state.experiment.withRunner
    { state.experiment.runner with point := .returned, phase := .failed }
  error := some failure
  look := state.look

def RunnerAct.looks : RunnerAct → Bool
  | .begin => true
  | .read => true
  | _ => false

def Supervision.lookAfter (state : Supervision) (act : RunnerAct) : Look :=
  if act.looks then ⟨state.experiment.completeCount, state.experiment.ended⟩ else state.look

/-- A statement of `main`. A poll of `wait_for_collector` that finds the process alive
changes nothing. -/
def Supervision.actRunner (state : Supervision) (act : RunnerAct) : Option Supervision :=
  match state.experiment.runner.raised args state.experiment.ended act with
  | some failure => some (state.fail failure)
  | none =>
      if act = .poll ∧ state.experiment.runner.point = .starting then some state
      else
        (state.experiment.act args host (.runner act)).map fun after =>
          ⟨after, state.error, state.lookAfter act⟩

def Supervision.withExperiment (state : Supervision) (experiment : Experiment) : Supervision :=
  { state with experiment := experiment }

def Supervision.act (state : Supervision) : Action → Option Supervision
  | .runner act => state.actRunner args host act
  | action => (state.experiment.act args host action).map state.withExperiment

def supervisionStep (state : Supervision) (action : Action) : Next Supervision Unit :=
  match state.act args host action with
  | some after => .go after
  | none => .stop state ()

def runSupervision (startTime : Int) (actions : List Action) : Supervision :=
  (run (supervisionStep args host) (startSupervision args startTime) actions).1

end Supervision

/-! ## Statement -/

section Statement

variable (args : RestartArgs) (state : Supervision)

/-- The CSV has all its complete rows, and the collector exited with status 0. -/
def Accomplished : Prop :=
  state.experiment.completeCount = args.trials ∧
    state.experiment.ended.map LoopEnd.exitStatus = some 0

def ReportsExit : Prop :=
  state.experiment.runner.phase = .failed ∧ ∃ status, state.error = some (.collectorExited status)

def VerdictRight : Prop := Accomplished args state → ¬ReportsExit state

/-- The row that completes the CSV and the exit with status 0 have both come since
the runner last read the CSV. -/
structure Overtaken : Prop where
  unread : state.look.rows < args.trials
  written : state.experiment.completeCount = args.trials
  alive : state.look.ended = none
  exited : state.experiment.ended.map LoopEnd.exitStatus = some 0

/-- No poll comes behind both. -/
def Timely : Action → Prop
  | .runner act => state.experiment.runner.polls args act → ¬Overtaken args state
  | _ => True

end Statement

/-! ## What one step can do -/

section Steps

variable {args : RestartArgs} {host : Host} {state after : Supervision}

/-- A step of the supervised experiment, by what it is to the runner. -/
inductive Supervised (args : RestartArgs) (host : Host) (state : Supervision) :
    Action → Supervision → Prop where
  | raised {act : RunnerAct} {failure : Failure}
      (raises : state.experiment.runner.raised args state.experiment.ended act = some failure) :
      Supervised args host state (.runner act) (state.fail failure)
  | awaited (quiet : state.experiment.runner.raised args state.experiment.ended .poll = none) :
      Supervised args host state (.runner .poll) state
  | moved {act : RunnerAct} {runner : Runner}
      (quiet : state.experiment.runner.raised args state.experiment.ended act = none)
      (acts : state.experiment.runner.act args (completeRows state.experiment.collector.disk)
        state.experiment.ended act = some runner) :
      Supervised args host state (.runner act)
        ⟨state.experiment.withRunner runner, state.error, state.lookAfter act⟩
  | beside {action : Action} {experiment : Experiment}
      (other : ∀ act, action ≠ .runner act)
      (acts : state.experiment.act args host action = some experiment) :
      Supervised args host state action (state.withExperiment experiment)

theorem supervision_act_cases {action : Action} (acts : state.act args host action = some after) :
    Supervised args host state action after := by
  cases action with
  | runner act =>
      rw [Supervision.act, Supervision.actRunner] at acts
      cases raises : state.experiment.runner.raised args state.experiment.ended act with
      | some failure =>
          rw [raises] at acts
          obtain rfl := Option.some.inj acts
          exact .raised raises
      | none =>
          rw [raises] at acts
          dsimp only at acts
          split_ifs at acts with waits
          · obtain rfl := Option.some.inj acts
            obtain ⟨rfl, _⟩ := waits
            exact .awaited raises
          · obtain ⟨experiment, moves, rfl⟩ := Option.map_eq_some_iff.mp acts
            rw [Experiment.act, Option.map_eq_some_iff] at moves
            obtain ⟨runner, taken, rfl⟩ := moves
            exact .moved raises taken
  | send peer bytes =>
      unfold Supervision.act at acts
      obtain ⟨experiment, taken, rfl⟩ := Option.map_eq_some_iff.mp acts
      exact .beside (fun _ => Action.noConfusion) taken
  | deliver index now =>
      unfold Supervision.act at acts
      obtain ⟨experiment, taken, rfl⟩ := Option.map_eq_some_iff.mp acts
      exact .beside (fun _ => Action.noConfusion) taken
  | silence now =>
      unfold Supervision.act at acts
      obtain ⟨experiment, taken, rfl⟩ := Option.map_eq_some_iff.mp acts
      exact .beside (fun _ => Action.noConfusion) taken

/-- The process table and the CSV of two experiments agree once the collector has
ended in the first. -/
structure Beside (before after : Experiment) : Prop where
  runner : after.runner = before.runner
  ended : before.ended ≠ none → after.ended = before.ended
  collector : before.ended ≠ none → after.collector = before.collector

theorem Experiment.collect_beside {experiment next : Experiment} {event : Event}
    {helloBoots : List Nat} (collects : experiment.collect args host event helloBoots = some next) :
    Beside experiment next := by
  unfold Experiment.collect at collects
  split_ifs at collects with alive
  have running (ended : experiment.ended ≠ none) : False := ended alive
  split at collects
  · obtain rfl := Option.some.inj collects
    exact ⟨rfl, fun ended => (running ended).elim, fun ended => (running ended).elim⟩
  · obtain rfl := Option.some.inj collects
    exact ⟨rfl, fun ended => (running ended).elim, fun ended => (running ended).elim⟩

theorem Experiment.act_beside {experiment next : Experiment} {action : Action}
    (other : ∀ act, action ≠ .runner act)
    (acts : experiment.act args host action = some next) : Beside experiment next := by
  cases action with
  | runner act => exact absurd rfl (other act)
  | send peer bytes =>
      rw [Experiment.act] at acts
      obtain rfl := Option.some.inj acts
      exact ⟨rfl, fun _ => rfl, fun _ => rfl⟩
  | deliver index now =>
      rw [Experiment.act] at acts
      split at acts
      · cases acts
      · exact Experiment.collect_beside acts
  | silence now =>
      rw [Experiment.act] at acts
      exact Experiment.collect_beside acts

end Steps

/-! ## What the runner knows -/

/-- The runner may still poll the collector before it reads the CSV again. -/
def Point.polling (point : Point) : Prop :=
  point = .starting ∨ point = .armed ∨ point.awaiting

instance (point : Point) : Decidable point.polling := inferInstanceAs (Decidable (_ ∨ _ ∨ _))

/-- The count of the runner against the rows it saw last. -/
structure Runner.Counts (args : RestartArgs) (runner : Runner) (seen : Nat) : Prop where
  counted : seen ≤ runner.completed
  short : runner.point.polling → runner.completed < args.trials
  begun : runner.point.awaiting → runner.before = runner.completed

section Counts

variable {args : RestartArgs} {runner after : Runner} {seen : Nat}

theorem Runner.Counts.settle (counted : seen ≤ runner.completed) (idle : ¬runner.point.polling) :
    runner.Counts args seen := by
  constructor
  · exact counted
  · exact fun polling => absurd polling idle
  · exact fun awaiting => absurd (.inr (.inr awaiting)) idle

theorem Runner.Counts.move (counts : runner.Counts args seen) {point next : Point} {last : Nat}
    (at_point : runner.point = point) (awaiting : point.awaiting) (fresh : last ≤ runner.completed) :
    ({ runner with point := next } : Runner).Counts args last := by
  subst at_point
  constructor
  · exact fresh
  · exact fun _ => counts.short (.inr (.inr awaiting))
  · exact fun _ => counts.begun awaiting

theorem Runner.Counts.act (counts : runner.Counts args seen) {act : RunnerAct}
    {rows : List TrialRow} {ended : Option LoopEnd}
    (acts : runner.act args rows ended act = some after) :
    after.Counts args (if act.looks then rows.length else seen) := by
  cases act with
  | begin =>
      rw [Runner.act] at acts
      split_ifs at acts with point
      obtain rfl := Option.some.inj acts
      exact .settle (le_refl _) (show ¬Point.loopTop.polling by decide)
  | check =>
      rw [Runner.act] at acts
      split_ifs at acts with ready
      obtain rfl := Option.some.inj acts
      constructor
      · exact counts.counted
      · exact fun _ => ready.2.1
      · exact fun awaiting => absurd awaiting (show ¬Point.armed.awaiting by decide)
  | pulse =>
      rw [Runner.act] at acts
      split_ifs at acts with point
      obtain rfl := Option.some.inj acts
      constructor
      · exact counts.counted
      · exact fun _ => counts.short (.inr (.inl point))
      · exact fun _ => rfl
  | read =>
      rw [Runner.act] at acts
      split_ifs at acts with point new
      · obtain rfl := Option.some.inj acts
        exact .settle (le_refl _) (show ¬Point.loopTop.polling by decide)
      · obtain rfl := Option.some.inj acts
        have awaiting : runner.point.awaiting := point.imp id .inr
        apply counts.move rfl awaiting
        rw [← counts.begun awaiting]
        exact Nat.le_of_not_lt new
  | misread =>
      rw [Runner.act] at acts
      split_ifs at acts with point
      obtain rfl := Option.some.inj acts
      exact counts.move rfl (point.imp id .inr) counts.counted
  | poll =>
      rw [Runner.act] at acts
      split_ifs at acts with ready
      obtain rfl := Option.some.inj acts
      exact counts.move ready.1 (by decide) counts.counted
  | giveUp =>
      rw [Runner.act] at acts
      split_ifs at acts with point
      obtain rfl := Option.some.inj acts
      exact .settle counts.counted (show ¬Point.loopTop.polling by decide)
  | leave =>
      rw [Runner.act] at acts
      split_ifs at acts with ready
      obtain rfl := Option.some.inj acts
      exact .settle counts.counted (show ¬Point.left.polling by decide)
  | finish =>
      rw [Runner.act] at acts
      split_ifs at acts with ready
      obtain rfl := Option.some.inj acts
      exact .settle counts.counted (show ¬Point.returned.polling by decide)
  | fail =>
      rw [Runner.act] at acts
      split_ifs at acts with going
      obtain rfl := Option.some.inj acts
      exact .settle counts.counted (show ¬Point.returned.polling by decide)

theorem Runner.Counts.unread (counts : runner.Counts args seen) {act : RunnerAct}
    (polls : runner.polls args act) : seen < args.trials := by
  have short : runner.completed < args.trials := by
    cases act with
    | poll =>
        rcases polls with starting | waiting
        · exact counts.short (.inl starting)
        · exact counts.short (.inr (.inr (.inr (.inl waiting))))
    | check => exact polls.2.1
    | _ => exact polls.elim
  exact lt_of_le_of_lt counts.counted short

end Counts

/-- At any time of a run: the last look against the CSV and the process table, and
the exception against both. -/
structure Watched (args : RestartArgs) (state : Supervision) : Prop where
  counts : state.experiment.runner.Counts args state.look.rows
  unchanged : state.look.ended ≠ none → state.look.ended = state.experiment.ended ∧
    state.look.rows = state.experiment.completeCount
  returned : state.error ≠ none → state.experiment.runner.point = .returned
  exited : ∀ status, state.error = some (.collectorExited status) → state.experiment.ended ≠ none

section Watched

variable {args : RestartArgs} {host : Host} {state after : Supervision}

theorem Runner.raised_of_polls {runner : Runner} {act : RunnerAct}
    (polls : runner.polls args act) (ended : Option LoopEnd) :
    runner.raised args ended act =
      ended.map fun result => .collectorExited result.exitStatus := by
  unfold Runner.raised
  exact if_pos polls

theorem Runner.raised_going {runner : Runner} {ended : Option LoopEnd} {act : RunnerAct}
    {failure : Failure} (raises : runner.raised args ended act = some failure) :
    runner.point ≠ .returned := by
  intro returned
  unfold Runner.raised Runner.polls at raises
  cases act <;> simp [returned] at raises

theorem Runner.act_going {runner next : Runner} {rows : List TrialRow} {ended : Option LoopEnd}
    {act : RunnerAct} (acts : runner.act args rows ended act = some next) :
    runner.point ≠ .returned := by
  intro returned
  unfold Runner.act at acts
  cases act <;> simp [returned] at acts

/-- An exception that names a status comes from a poll, or it names a failure. -/
theorem Runner.raised_exit {runner : Runner} {ended : Option LoopEnd} {act : RunnerAct}
    {status : Nat} (raises : runner.raised args ended act = some (.collectorExited status)) :
    ended.map LoopEnd.exitStatus = some status ∧ (runner.polls args act ∨ status ≠ 0) := by
  by_cases polls : runner.polls args act
  · rw [Runner.raised_of_polls polls, Option.map_eq_some_iff] at raises
    obtain ⟨result, rfl, named⟩ := raises
    obtain rfl := Failure.collectorExited.inj named
    exact ⟨rfl, .inl polls⟩
  · unfold Runner.raised Runner.finalError at raises
    rw [if_neg polls] at raises
    cases act with
    | finish =>
        dsimp only at raises
        split_ifs at raises
        · cases Option.some.inj raises
        · cases ended with
          | none => cases raises
          | some result =>
              dsimp only at raises
              split_ifs at raises with clean
              obtain rfl := Failure.collectorExited.inj (Option.some.inj raises)
              exact ⟨rfl, .inr clean⟩
    | fail =>
        dsimp only at raises
        split_ifs at raises
        cases Option.some.inj raises
    | _ => cases raises

theorem Watched.fail (watched : Watched args state) {failure : Failure}
    (exited : ∀ status, failure = .collectorExited status → state.experiment.ended ≠ none) :
    Watched args (state.fail failure) where
  counts := .settle watched.counts.counted (show ¬Point.returned.polling by decide)
  unchanged := watched.unchanged
  returned := fun _ => rfl
  exited := fun status named => exited status (Option.some.inj named)

theorem Watched.move (watched : Watched args state) {act : RunnerAct} {runner : Runner}
    (acts : state.experiment.runner.act args (completeRows state.experiment.collector.disk)
      state.experiment.ended act = some runner) :
    Watched args ⟨state.experiment.withRunner runner, state.error, state.lookAfter act⟩ := by
  have silent : state.error = none := by
    by_contra raised
    exact Runner.act_going acts (watched.returned raised)
  have counts := watched.counts.act acts
  constructor
  · unfold Supervision.lookAfter
    split_ifs at counts ⊢
    · exact counts
    · exact counts
  · unfold Supervision.lookAfter
    split_ifs
    · exact fun _ => ⟨rfl, rfl⟩
    · exact watched.unchanged
  · exact fun raised => absurd silent raised
  · intro status named
    rw [silent] at named
    cases named

theorem Watched.beside (watched : Watched args state) {experiment : Experiment}
    (beside : Beside state.experiment experiment) :
    Watched args (state.withExperiment experiment) := by
  constructor
  · have counts := watched.counts
    rw [← beside.runner] at counts
    exact counts
  · intro gone
    obtain ⟨ended, rows⟩ := watched.unchanged gone
    have stopped : state.experiment.ended ≠ none := by
      rw [← ended]
      exact gone
    unfold Supervision.withExperiment Experiment.completeCount
    rw [beside.ended stopped, beside.collector stopped]
    exact ⟨ended, rows⟩
  · intro raised
    have returned := watched.returned raised
    rw [← beside.runner] at returned
    exact returned
  · intro status named
    have stopped := watched.exited status named
    rw [← beside.ended stopped] at stopped
    exact stopped

theorem Watched.step (watched : Watched args state) {action : Action}
    (acts : state.act args host action = some after) : Watched args after := by
  cases supervision_act_cases acts with
  | raised raises =>
      apply watched.fail
      intro status named
      rw [named] at raises
      have exit := (Runner.raised_exit raises).1
      intro running
      rw [running] at exit
      cases exit
  | awaited quiet => exact watched
  | moved quiet moves => exact watched.move moves
  | beside other moves => exact watched.beside (Experiment.act_beside other moves)

theorem watched_start (args : RestartArgs) (startTime : Int) :
    Watched args (startSupervision args startTime) where
  counts := ⟨Nat.zero_le _, fun _ => args.trialsPositive, fun _ => rfl⟩
  unchanged := fun gone => absurd rfl gone
  returned := fun raised => absurd rfl raised
  exited := fun _ named => nomatch named

theorem supervision_act_plain {action : Action} (acts : state.act args host action = some after) :
    after.experiment = state.experiment ∨
      ∃ plain, state.experiment.act args host plain = some after.experiment := by
  cases supervision_act_cases acts with
  | raised raises =>
      right
      refine ⟨.runner .fail, ?_⟩
      rw [Experiment.act, Runner.act, if_pos (Runner.raised_going raises)]
      rfl
  | awaited quiet => exact .inl rfl
  | @moved act runner quiet moves =>
      right
      refine ⟨.runner act, ?_⟩
      rw [Experiment.act, moves]
      rfl
  | beside other moves => exact .inr ⟨action, moves⟩

theorem run_supervision_plain (args : RestartArgs) (host : Host) (startTime : Int)
    (actions : List Action) :
    ∃ plain, runExperiment args host startTime plain =
      (runSupervision args host startTime actions).experiment := by
  have simulates (state : Supervision) (action : Action) :
      (supervisionStep args host state action).state.experiment = state.experiment ∨
        ∃ plain, experimentStep args host state.experiment plain =
          .go (supervisionStep args host state action).state.experiment := by
    unfold supervisionStep experimentStep
    cases acts : state.act args host action with
    | none => exact .inl rfl
    | some after =>
        rcases supervision_act_plain acts with same | ⟨plain, taken⟩
        · exact .inl same
        · right
          refine ⟨plain, ?_⟩
          rw [taken]
          rfl
  exact run_simulated Supervision.experiment simulates actions (startSupervision args startTime)

/-! ## The verdict -/

theorem verdict_right_of_silent
    (silent : ∀ status, state.error ≠ some (.collectorExited status)) : VerdictRight args state := by
  intro accomplished reports
  obtain ⟨failed, status, named⟩ := reports
  exact silent status named

theorem Watched.silent (watched : Watched args state)
    (going : state.experiment.runner.point ≠ .returned) : state.error = none := by
  by_contra raised
  exact going (watched.returned raised)

/-- A poll that finds the collector with its work done finds both news since the look. -/
theorem Watched.overtaken_iff (watched : Watched args state) {act : RunnerAct}
    (polls : state.experiment.runner.polls args act) :
    Overtaken args state ↔ Accomplished args state := by
  constructor
  · exact fun overtaken => ⟨overtaken.written, overtaken.exited⟩
  · intro accomplished
    have unread := watched.counts.unread polls
    refine ⟨unread, accomplished.1, ?_, accomplished.2⟩
    by_contra gone
    have rows := (watched.unchanged gone).2
    rw [accomplished.1] at rows
    exact absurd rows (Nat.ne_of_lt unread)

theorem Watched.verdict_of_raised (watched : Watched args state) {act : RunnerAct}
    {failure : Failure}
    (raises : state.experiment.runner.raised args state.experiment.ended act = some failure) :
    VerdictRight args (state.fail failure) ↔ Timely args state (.runner act) := by
  by_cases polls : state.experiment.runner.polls args act
  · have result := raises
    rw [Runner.raised_of_polls polls, Option.map_eq_some_iff] at result
    obtain ⟨_, _, rfl⟩ := result
    constructor
    · intro right _ overtaken
      exact right ((watched.overtaken_iff polls).mp overtaken) ⟨rfl, _, rfl⟩
    · intro timely accomplished _
      exact timely polls ((watched.overtaken_iff polls).mpr accomplished)
  · apply iff_of_true
    · intro accomplished reports
      obtain ⟨_, _, named⟩ := reports
      obtain rfl := Option.some.inj named
      obtain ⟨exit, polled | dirty⟩ := Runner.raised_exit raises
      · exact polls polled
      · have clean : state.experiment.ended.map LoopEnd.exitStatus = some 0 := accomplished.2
        rw [exit] at clean
        exact dirty (Option.some.inj clean)
    · exact fun polled => absurd polled polls

theorem Watched.verdict_beside (watched : Watched args state) {experiment : Experiment}
    (beside : Beside state.experiment experiment) :
    VerdictRight args (state.withExperiment experiment) ↔ VerdictRight args state := by
  by_cases named : ∃ status, state.error = some (.collectorExited status)
  · obtain ⟨status, named⟩ := named
    have stopped := watched.exited status named
    unfold VerdictRight Accomplished ReportsExit Supervision.withExperiment
      Experiment.completeCount
    rw [beside.runner, beside.ended stopped, beside.collector stopped]
  · have silent (status : Nat) : state.error ≠ some (.collectorExited status) :=
      fun same => named ⟨status, same⟩
    exact iff_of_true (verdict_right_of_silent silent) (verdict_right_of_silent silent)

/-- **One step.** -/
theorem Watched.verdict_step (watched : Watched args state) {action : Action}
    (acts : state.act args host action = some after) :
    VerdictRight args after ↔ VerdictRight args state ∧ Timely args state action := by
  have alive {act : RunnerAct}
      (quiet : state.experiment.runner.raised args state.experiment.ended act = none) :
      Timely args state (.runner act) := by
    intro polls overtaken
    rw [Runner.raised_of_polls polls, Option.map_eq_none_iff] at quiet
    have exited := overtaken.exited
    rw [quiet] at exited
    cases exited
  cases supervision_act_cases acts with
  | raised raises =>
      have silent := watched.silent (Runner.raised_going raises)
      rw [watched.verdict_of_raised raises, and_iff_right]
      apply verdict_right_of_silent
      simp [silent]
  | awaited quiet => rw [and_iff_left (alive quiet)]
  | moved quiet moves =>
      have silent := watched.silent (Runner.act_going moves)
      apply iff_of_true
      · apply verdict_right_of_silent
        simp [silent]
      · refine ⟨?_, alive quiet⟩
        apply verdict_right_of_silent
        simp [silent]
  | beside other moves =>
      have timely : Timely args state action := by
        cases action with
        | runner act => exact absurd rfl (other act)
        | _ => trivial
      rw [and_iff_left timely]
      exact watched.verdict_beside (Experiment.act_beside other moves)

theorem timely_of_impossible {action : Action} (acts : state.act args host action = none) :
    Timely args state action := by
  cases action with
  | runner act =>
      intro polls overtaken
      rw [Supervision.act, Supervision.actRunner] at acts
      cases ended : state.experiment.ended with
      | none =>
          have exited := overtaken.exited
          rw [ended] at exited
          cases exited
      | some result =>
          rw [Runner.raised_of_polls polls, ended] at acts
          cases acts
  | _ => trivial

end Watched

/-- **The verdict.** In a run of runner, collector and device, the runner blames the
exit of a collector that did its work exactly when the row that completes the CSV and
the exit both come between a look at the CSV and a poll behind it. -/
theorem verdict_right_iff (args : RestartArgs) (host : Host) (startTime : Int)
    (actions : List Action) :
    VerdictRight args (runSupervision args host startTime actions) ↔
      Guarded (supervisionStep args host) (Timely args) (startSupervision args startTime)
        actions := by
  have start : VerdictRight args (startSupervision args startTime) := by
    apply verdict_right_of_silent
    intro status named
    cases named
  have keeps (state : Supervision) (action : Action) (watched : Watched args state) :
      Watched args (supervisionStep args host state action).state := by
    unfold supervisionStep
    cases acts : state.act args host action with
    | none => exact watched
    | some after => exact watched.step acts
  have decides (state : Supervision) (action : Action) (watched : Watched args state) :
      VerdictRight args (supervisionStep args host state action).state ↔
        VerdictRight args state ∧ Timely args state action := by
    unfold supervisionStep
    cases acts : state.act args host action with
    | none => exact (and_iff_left (timely_of_impossible acts)).symm
    | some after => exact watched.verdict_step acts
  rw [runSupervision, run_holds_iff keeps decides actions _ (watched_start args startTime),
    and_iff_right start]

/-- The first attempt times out. Its upload completes behind the last look, and the
collector exits before the poll at the loop top. -/
def overtakenExperiment : List Action :=
  [.runner .poll, .runner .begin, .runner .check, .runner .pulse, .runner .read] ++ tinyBootSends ++
    [.deliver 0 0, .deliver 1 0, .deliver 2 0, .runner .giveUp, .deliver 3 0, .silence 0,
      .runner .check]

/-- The runner blames the exit of a collector that has all its rows. -/
theorem finished_collector_blamed :
    ¬VerdictRight (tinyRestart 1 2 (by decide) (by decide))
      (runSupervision (tinyRestart 1 2 (by decide) (by decide)) quietHost 0
        overtakenExperiment) := by
  intro right
  have evaluated :
      let final := runSupervision (tinyRestart 1 2 (by decide) (by decide)) quietHost 0
        overtakenExperiment
      (final.experiment.completeCount = 1 ∧
        final.experiment.ended.map LoopEnd.exitStatus = some 0) ∧
      final.experiment.runner.phase = .failed ∧
        final.error = some (.collectorExited 0) := by decide +kernel
  obtain ⟨accomplished, failed, named⟩ := evaluated
  exact right accomplished ⟨failed, 0, named⟩

end BootEntropy.Aeb
