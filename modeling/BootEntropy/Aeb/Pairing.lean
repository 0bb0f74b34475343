import BootEntropy.Aeb.Restart
import BootEntropy.Aeb.Reassembly

/-!
# Resets and captures

The runner tells which reset produced a capture by the growth of the CSV alone.
`Paired` is the invariant of runs in which that is enough.
-/

namespace BootEntropy.Aeb

open BootEntropy.Lib

set_option autoImplicit false

variable {args : RestartArgs} {host : Host}

/-! ## Statement -/

def completeIds (disk : Disk) : List Nat := (completeRows disk).map (·.captureId)

/-- The capture ids of the rows with outcome `complete`. -/
def restartIds (rows : List RestartRow) : List (Option Nat) :=
  (rows.filter fun row => row.outcome = .complete).map (·.captureId)

/-- A complete row names a capture whose HELLO was sent after the reset of the row
and before the next one. When the experiment is complete, the complete rows of the
two tables name the same captures, each once. -/
structure PairingHolds (experiment : Experiment) : Prop where
  captures : ∀ row ∈ experiment.runner.rows, row.outcome = .complete →
    ∃ captureId, row.captureId = some captureId ∧
      experiment.helloBoots[captureId]? = some row.resetAttempt
  oneToOne : experiment.runner.phase = .complete →
    restartIds experiment.runner.rows = (completeIds experiment.collector.disk).map some ∧
      (completeIds experiment.collector.disk).Nodup

/-- The runner has sent a reset and not yet decided on it. -/
def Point.awaiting (point : Point) : Prop := point = .pulsed ∨ point = .waiting ∨ point = .sleeping

instance (point : Point) : Decidable point.awaiting := inferInstanceAs (Decidable (_ ∨ _))

/-- A RAW_END that records a complete capture comes while the runner waits for the
boot that sent its HELLO, and is the first one to do so in this attempt. -/
def InTurn (experiment : Experiment) (rx : Rx) : Prop :=
  OnRawEnd (fun state msg => RawCompletes state msg → JitterPacks state →
    experiment.runner.point.awaiting ∧
      (completeRows experiment.collector.disk).length = experiment.runner.before ∧
      experiment.helloBoots[state.captureId]? = some experiment.runner.attempts)
    experiment.collector rx

instance (experiment : Experiment) (rx : Rx) : Decidable (InTurn experiment rx) :=
  inferInstanceAs (Decidable (OnRawEnd _ experiment.collector rx))

/-- The runner gives no attempt up that has a complete row. -/
def Orderly (args : RestartArgs) (experiment : Experiment) : Action → Prop
  | .runner .giveUp =>
      (completeRows experiment.collector.disk).length = experiment.runner.before
  | .deliver index now => ∀ transmission ∈ experiment.sent[index]?,
      (experiment.collector.completed : Int) < args.trials →
        InTurn experiment ⟨transmission.bytes, transmission.peer, now⟩
  | _ => True

instance (experiment : Experiment) (action : Action) : Decidable (Orderly args experiment action) :=
  match action with
  | .runner .giveUp => inferInstanceAs (Decidable (_ = _))
  | .deliver index _ =>
      inferInstanceAs (Decidable (∀ transmission ∈ experiment.sent[index]?, _))
  | .runner .begin => isTrue trivial
  | .runner .check => isTrue trivial
  | .runner .pulse => isTrue trivial
  | .runner .read => isTrue trivial
  | .runner .misread => isTrue trivial
  | .runner .poll => isTrue trivial
  | .runner .leave => isTrue trivial
  | .runner .finish => isTrue trivial
  | .runner .fail => isTrue trivial
  | .send _ _ => isTrue trivial
  | .silence _ => isTrue trivial

/-! ## Rows of one datagram -/

theorem completeIds_after (sha256 : Bytes → Text) {collector : Collector} {rx : Rx} {disk : Disk}
    (step : DiskStep sha256 collector rx disk) :
    completeIds disk = completeIds collector.disk ∨
      ∃ msg state, parseMessage rx.data = some msg ∧ msg.msgType = aebTypeRawEnd ∧
        collector.states.lookup (rx.peer, (msg.trial : Int)) = some state ∧
        RawCompletes state msg ∧ JitterPacks state ∧
        completeIds disk = completeIds collector.disk ++ [state.captureId] := by
  unfold completeIds completeRows
  cases step with
  | kept csv => exact .inl rfl
  | raised parsed rawEnd known unpacked =>
      left
      rw [write_raw_trials]
  | @recorded msg state streams parsed rawEnd known packed =>
      rw [← recordedDisk, recorded_trials, List.filter_append, List.filter_singleton,
        List.map_append]
      cases raw : closedRaw state msg with
      | none =>
          left
          have partly : (recordedRow sha256 state msg streams).complete = false := by
            unfold recordedRow trialRow
            rw [raw]
            rfl
          rw [partly]
          exact List.append_nil _
      | some bytes =>
          right
          have whole : (recordedRow sha256 state msg streams).complete = true := by
            unfold recordedRow trialRow
            rw [raw]
            rfl
          rw [whole]
          exact ⟨msg, state, parsed, rawEnd, known, ((closed_raw_some_iff state msg bytes).mp raw).1,
            (jitter_packs_iff (endFrame state msg)).mpr ⟨streams, packed⟩, rfl⟩

theorem hello_boots_issued (args : CollectorArgs) (host : Host) {collector : Collector}
    {helloBoots : List Nat} (boot : Nat) (rx : Rx)
    (issued : helloBoots.length = collector.captureCounter) :
    (if isHello rx then helloBoots ++ [boot] else helloBoots).length =
      (handleDatagram args host collector rx).1.captureCounter := by
  unfold isHello
  cases parsed : parseMessage rx.data with
  | none =>
      rw [counter_of_other args host collector (by simp [parsed])]
      exact issued
  | some msg =>
      by_cases hello : msg.msgType = aebTypeHello
      · rw [counter_of_hello args host collector parsed hello]
        simp [hello, issued]
      · rw [counter_of_other args host collector (by simp [parsed, hello])]
        simp [hello, issued]

/-! ## The invariant -/

/-- The complete rows are those of the restart table and then `unseen`, at most one
row that the attempt in progress has yet to read. -/
structure Paired (experiment : Experiment) (unseen : List Nat) : Prop where
  numbered : NumberedSince 0 experiment.collector
  issued : experiment.helloBoots.length = experiment.collector.captureCounter
  counted : experiment.runner.completed = (restartIds experiment.runner.rows).length
  begun : experiment.runner.point.awaiting →
    experiment.runner.before = experiment.runner.completed
  shared : (completeIds experiment.collector.disk).map some =
    restartIds experiment.runner.rows ++ unseen.map some
  single : unseen.length ≤ 1
  current : ∀ captureId ∈ unseen,
    experiment.helloBoots[captureId]? = some experiment.runner.attempts
  inProgress : unseen ≠ [] →
    experiment.runner.point.awaiting ∨ experiment.runner.phase = .failed
  labelled : ∀ row ∈ experiment.runner.rows, row.outcome = .complete →
    ∃ captureId, row.captureId = some captureId ∧
      experiment.helloBoots[captureId]? = some row.resetAttempt
  stopped : experiment.runner.phase = .complete ∨ experiment.runner.phase = .failed →
    experiment.runner.point = .returned

section Invariant

variable {experiment : Experiment} {unseen : List Nat}

theorem Paired.complete_rows_length (paired : Paired experiment unseen) :
    (completeRows experiment.collector.disk).length =
      (restartIds experiment.runner.rows).length + unseen.length := by
  have lengths := congrArg List.length paired.shared
  unfold completeIds at lengths
  rw [List.length_map, List.length_map, List.length_append, List.length_map] at lengths
  exact lengths

theorem Paired.all_seen (paired : Paired experiment unseen)
    (idle : ¬experiment.runner.point.awaiting) (running : experiment.runner.phase ≠ .failed) :
    unseen = [] := by
  by_contra rest
  rcases paired.inProgress rest with awaiting | failed
  · exact idle awaiting
  · exact running failed

theorem Paired.running (paired : Paired experiment unseen)
    (point : experiment.runner.point ≠ .returned) : experiment.runner.phase ≠ .failed := by
  intro failed
  exact point (paired.stopped (.inr failed))

theorem Paired.pairing_holds (paired : Paired experiment unseen) : PairingHolds experiment := by
  constructor
  · exact paired.labelled
  · intro complete
    have idle : ¬experiment.runner.point.awaiting := by
      rw [paired.stopped (.inl complete)]
      decide
    have running : experiment.runner.phase ≠ .failed := by
      rw [complete]
      decide
    have shared := paired.shared
    rw [paired.all_seen idle running, List.map_nil, List.append_nil] at shared
    refine ⟨shared.symm, ?_⟩
    have distinct : (experiment.collector.disk.trials.map (·.captureId)).Nodup :=
      paired.numbered.sound.closedDistinct
    have sublist : (completeIds experiment.collector.disk).Sublist
        (experiment.collector.disk.trials.map (·.captureId)) := List.filter_sublist.map _
    exact sublist.nodup distinct

theorem Paired.move (paired : Paired experiment unseen) {point : Point}
    (same : experiment.runner.point.awaiting ↔ point.awaiting)
    (going : experiment.runner.point ≠ .returned) :
    Paired (experiment.withRunner { experiment.runner with point := point }) unseen :=
  { paired with
    begun := fun awaiting => paired.begun (same.mpr awaiting)
    inProgress := fun rest => (paired.inProgress rest).imp same.mp id
    stopped := fun stop => absurd (paired.stopped stop) going }

theorem restart_ids_complete (rows : List RestartRow) {row : RestartRow}
    (complete : row.outcome = .complete) :
    restartIds (rows ++ [row]) = restartIds rows ++ [row.captureId] := by
  unfold restartIds
  rw [List.filter_append, List.map_append, List.filter_singleton, complete]
  rfl

theorem restart_ids_timeout (rows : List RestartRow) {row : RestartRow}
    (timeout : row.outcome = .timeout) : restartIds (rows ++ [row]) = restartIds rows := by
  unfold restartIds
  rw [List.filter_append, List.map_append, List.filter_singleton, timeout]
  exact List.append_nil _

/-! ## Steps of the runner -/

theorem Paired.begin (paired : Paired experiment unseen)
    (point : experiment.runner.point = .starting) :
    Paired (experiment.withRunner { experiment.runner with
      point := .loopTop
      completed := (completeRows experiment.collector.disk).length }) unseen := by
  have going : experiment.runner.point ≠ .returned := by rw [point]; decide
  have idle : ¬experiment.runner.point.awaiting := by rw [point]; decide
  have top : ¬Point.loopTop.awaiting := by decide
  have rows := paired.complete_rows_length
  rw [paired.all_seen idle (paired.running going), List.length_nil, Nat.add_zero] at rows
  exact { paired.move (iff_of_false idle top) going with
    counted := rows
    begun := fun awaiting => absurd awaiting top }

theorem Paired.pulse (paired : Paired experiment unseen)
    (point : experiment.runner.point = .armed) :
    Paired (experiment.withRunner { experiment.runner with
      point := .pulsed
      phase := .waitingForTrial
      attempts := experiment.runner.attempts + 1
      before := experiment.runner.completed }) unseen := by
  have going : experiment.runner.point ≠ .returned := by rw [point]; decide
  have idle : ¬experiment.runner.point.awaiting := by rw [point]; decide
  obtain rfl := paired.all_seen idle (paired.running going)
  exact { paired with
    begun := fun _ => rfl
    current := List.forall_mem_nil _
    inProgress := fun rest => absurd rfl rest
    stopped := fun stop => by rcases stop with stop | stop <;> cases stop }

theorem Paired.end_attempt (paired : Paired experiment unseen) {completed : Nat} {row : RestartRow}
    (shared : (completeIds experiment.collector.disk).map some =
      restartIds (experiment.runner.rows ++ [row]))
    (counted : completed = (restartIds (experiment.runner.rows ++ [row])).length)
    (labelled : row.outcome = .complete → ∃ captureId, row.captureId = some captureId ∧
      experiment.helloBoots[captureId]? = some row.resetAttempt) :
    Paired (experiment.withRunner (experiment.runner.endAttempt args completed row)) [] where
  numbered := paired.numbered
  issued := paired.issued
  counted := counted
  begun := fun awaiting => absurd awaiting (show ¬Point.loopTop.awaiting by decide)
  shared := shared.trans (List.append_nil _).symm
  single := Nat.zero_le 1
  current := List.forall_mem_nil _
  inProgress := fun rest => absurd rfl rest
  labelled := by
    intro other member complete
    rcases List.mem_append.mp member with old | new
    · exact paired.labelled other old complete
    · rw [List.mem_singleton] at new
      subst new
      exact labelled complete
  stopped := by
    intro stop
    unfold Experiment.withRunner Runner.endAttempt at stop
    dsimp only at stop
    split_ifs at stop
    · rcases stop with stop | stop <;> cases stop
    · rcases stop with stop | stop <;> cases stop

theorem Paired.read_new (paired : Paired experiment unseen)
    (awaiting : experiment.runner.point.awaiting)
    (new : experiment.runner.before < (completeRows experiment.collector.disk).length) :
    Paired (experiment.withRunner (experiment.runner.endAttempt args
      (completeRows experiment.collector.disk).length
      (completeRow experiment.runner (completeRows experiment.collector.disk)))) [] := by
  have rows := paired.complete_rows_length
  have single := paired.single
  rw [paired.begun awaiting, paired.counted] at new
  obtain ⟨captureId, rfl⟩ : ∃ captureId, unseen = [captureId] :=
    List.length_eq_one_iff.mp (by omega)
  have last : (completeRow experiment.runner (completeRows experiment.collector.disk)).captureId =
      some captureId := by
    have ids := congrArg List.getLast? paired.shared
    unfold completeIds at ids
    rw [List.getLast?_map, List.getLast?_map, List.map_singleton, List.getLast?_concat] at ids
    exact Option.map_injective (Option.some_injective Nat) ids
  have table : restartIds (experiment.runner.rows ++
      [completeRow experiment.runner (completeRows experiment.collector.disk)]) =
      restartIds experiment.runner.rows ++ [some captureId] := by
    rw [restart_ids_complete _ rfl, last]
  apply paired.end_attempt
  · rw [table]
    exact paired.shared
  · rw [table, List.length_append]
    exact rows
  · intro _
    exact ⟨captureId, last, paired.current captureId List.mem_cons_self⟩

theorem Paired.give_up (paired : Paired experiment unseen)
    (point : experiment.runner.point = .waiting)
    (seen : (completeRows experiment.collector.disk).length = experiment.runner.before) :
    Paired (experiment.withRunner (experiment.runner.endAttempt args
      experiment.runner.completed (timeoutRow experiment.runner))) [] := by
  have awaiting : experiment.runner.point.awaiting := by rw [point]; decide
  have rows := paired.complete_rows_length
  rw [seen, paired.begun awaiting, paired.counted] at rows
  obtain rfl : unseen = [] := List.eq_nil_of_length_eq_zero (by omega)
  have table : restartIds (experiment.runner.rows ++ [timeoutRow experiment.runner]) =
      restartIds experiment.runner.rows := restart_ids_timeout _ rfl
  apply paired.end_attempt
  · rw [table, paired.shared]
    exact List.append_nil _
  · rw [table]
    exact paired.counted
  · intro complete
    cases complete

theorem Paired.finish (paired : Paired experiment unseen) (point : experiment.runner.point = .left) :
    Paired (experiment.withRunner { experiment.runner with point := .returned, phase := .complete })
      unseen := by
  have going : experiment.runner.point ≠ .returned := by rw [point]; decide
  have idle : ¬experiment.runner.point.awaiting := by rw [point]; decide
  have returned : ¬Point.returned.awaiting := by decide
  obtain rfl := paired.all_seen idle (paired.running going)
  exact { paired with
    begun := fun awaiting => absurd awaiting returned
    inProgress := fun rest => absurd rfl rest
    stopped := fun _ => rfl }

theorem Paired.fail (paired : Paired experiment unseen) :
    Paired (experiment.withRunner { experiment.runner with point := .returned, phase := .failed })
      unseen := by
  have returned : ¬Point.returned.awaiting := by decide
  exact { paired with
    begun := fun awaiting => absurd awaiting returned
    inProgress := fun _ => .inr rfl
    stopped := fun _ => rfl }

theorem Paired.runner_act (paired : Paired experiment unseen) {act : RunnerAct} {runner : Runner}
    (orderly : Orderly args experiment (.runner act))
    (acts : experiment.runner.act args (completeRows experiment.collector.disk) experiment.ended act =
      some runner) : ∃ unseen, Paired (experiment.withRunner runner) unseen := by
  have move {point next : Point} (at_point : experiment.runner.point = point)
      (same : point.awaiting ↔ next.awaiting) (going : point ≠ .returned) :
      Paired (experiment.withRunner { experiment.runner with point := next }) unseen := by
    subst at_point
    exact paired.move same going
  cases act with
  | begin =>
      rw [Runner.act] at acts
      split_ifs at acts with point
      obtain rfl := Option.some.inj acts
      exact ⟨_, paired.begin point⟩
  | check =>
      rw [Runner.act] at acts
      split_ifs at acts with ready
      obtain rfl := Option.some.inj acts
      exact ⟨_, move ready.1 (by decide) (by decide)⟩
  | pulse =>
      rw [Runner.act] at acts
      split_ifs at acts with point
      obtain rfl := Option.some.inj acts
      exact ⟨_, paired.pulse point⟩
  | read =>
      rw [Runner.act] at acts
      split_ifs at acts with point new
      · obtain rfl := Option.some.inj acts
        have awaiting : experiment.runner.point.awaiting := point.imp id .inr
        exact ⟨_, paired.read_new awaiting new⟩
      · obtain rfl := Option.some.inj acts
        rcases point with pulsed | sleeping
        · exact ⟨_, move pulsed (by decide) (by decide)⟩
        · exact ⟨_, move sleeping (by decide) (by decide)⟩
  | misread =>
      rw [Runner.act] at acts
      split_ifs at acts with point
      obtain rfl := Option.some.inj acts
      rcases point with pulsed | sleeping
      · exact ⟨_, move pulsed (by decide) (by decide)⟩
      · exact ⟨_, move sleeping (by decide) (by decide)⟩
  | poll =>
      rw [Runner.act] at acts
      split_ifs at acts with ready
      obtain rfl := Option.some.inj acts
      exact ⟨_, move ready.1 (by decide) (by decide)⟩
  | giveUp =>
      rw [Runner.act] at acts
      split_ifs at acts with point
      obtain rfl := Option.some.inj acts
      exact ⟨_, paired.give_up point orderly⟩
  | leave =>
      rw [Runner.act] at acts
      split_ifs at acts with ready
      obtain rfl := Option.some.inj acts
      exact ⟨_, move ready.1 (by decide) (by decide)⟩
  | finish =>
      rw [Runner.act] at acts
      split_ifs at acts with ready
      obtain rfl := Option.some.inj acts
      exact ⟨_, paired.finish ready.1⟩
  | fail =>
      rw [Runner.act] at acts
      split_ifs at acts with going
      obtain rfl := Option.some.inj acts
      exact ⟨_, paired.fail⟩

/-! ## Steps of the collector -/

/-- A datagram in turn keeps the pairing: it adds no complete row, or the first one
of the attempt in progress. -/
theorem Paired.collect (paired : Paired experiment unseen) {rx : Rx} (inTurn : InTurn experiment rx)
    (boot : Nat) (ended : Option LoopEnd) :
    ∃ unseen, Paired { experiment with
      collector := (handleDatagram (collectorCommand args) host experiment.collector rx).1
      ended := ended
      helloBoots := if isHello rx then experiment.helloBoots ++ [boot] else experiment.helloBoots }
      unseen := by
  have kept {captureId number : Nat} (opened : experiment.helloBoots[captureId]? = some number) :
      (if isHello rx then experiment.helloBoots ++ [boot] else experiment.helloBoots)[captureId]? =
        some number := by
    split_ifs
    · exact opener_kept [boot] opened
    · exact opened
  have labelled : ∀ row ∈ experiment.runner.rows, row.outcome = .complete →
      ∃ captureId, row.captureId = some captureId ∧
        (if isHello rx then experiment.helloBoots ++ [boot]
          else experiment.helloBoots)[captureId]? = some row.resetAttempt := by
    intro row member complete
    obtain ⟨captureId, named, opened⟩ := paired.labelled row member complete
    exact ⟨captureId, named, kept opened⟩
  have numbered := paired.numbered.handle (collectorCommand args) host rx
  have issued := hello_boots_issued (collectorCommand args) host boot rx paired.issued
  rcases completeIds_after host.sha256
    (handle_datagram_disk (collectorCommand args) host experiment.collector rx) with
    same | ⟨msg, state, parsed, rawEnd, known, arrived, packs, grown⟩
  · exact ⟨unseen, { paired with
      numbered := numbered
      issued := issued
      shared := (congrArg (List.map some) same).trans paired.shared
      current := fun captureId member => kept (paired.current captureId member)
      labelled := labelled }⟩
  · obtain ⟨awaiting, count, opened⟩ := inTurn msg state parsed rawEnd known arrived packs
    have rows := paired.complete_rows_length
    rw [count, paired.begun awaiting, paired.counted] at rows
    obtain rfl : unseen = [] := List.eq_nil_of_length_eq_zero (by omega)
    refine ⟨[state.captureId], { paired with
      numbered := numbered
      issued := issued
      shared := ?_
      single := le_refl 1
      current := ?_
      inProgress := fun _ => .inl awaiting
      labelled := labelled }⟩
    · dsimp only
      rw [grown, List.map_append, paired.shared, List.map_nil, List.append_nil]
    · intro captureId member
      rw [List.mem_singleton.mp member]
      exact kept opened

theorem Paired.deliver (paired : Paired experiment unseen) {rx : Rx}
    (inTurn : (experiment.collector.completed : Int) < args.trials → InTurn experiment rx)
    (boot : Nat) {after : Experiment}
    (collects : experiment.collect args host (.datagram rx)
      (helloBootsAfter args experiment boot rx) = some after) :
    ∃ unseen, Paired after unseen := by
  unfold Experiment.collect at collects
  split_ifs at collects with alive
  unfold collectorStep helloBootsAfter at collects
  by_cases finished : (collectorCommand args).trials ≤ experiment.collector.completed
  · rw [if_pos finished, if_pos finished] at collects
    obtain rfl := Option.some.inj collects
    exact ⟨unseen, { paired with }⟩
  · rw [if_neg finished, if_neg finished] at collects
    have stays := @Paired.collect args host experiment unseen paired rx
      (inTurn (Int.not_le.mp finished)) boot
    dsimp only at collects
    rcases handled : handleDatagram (collectorCommand args) host experiment.collector rx with
      ⟨collector, _ | error⟩
    · rw [handled] at collects stays
      obtain rfl := Option.some.inj collects
      exact stays experiment.ended
    · rw [handled] at collects stays
      obtain rfl := Option.some.inj collects
      exact stays (some (.raised error))

theorem Paired.silence (paired : Paired experiment unseen) {now : Int} {after : Experiment}
    (collects : experiment.collect args host (.silence now) experiment.helloBoots = some after) :
    Paired after unseen := by
  have same : (collectorStep (collectorCommand args) host experiment.collector
      (.silence now)).state = experiment.collector := by
    unfold collectorStep
    dsimp only
    split_ifs <;> rfl
  unfold Experiment.collect at collects
  split_ifs at collects with alive
  cases taken : collectorStep (collectorCommand args) host experiment.collector (.silence now) with
  | go collector =>
      rw [taken] at collects same
      obtain rfl := Option.some.inj collects
      obtain rfl := same
      exact { paired with }
  | stop collector result =>
      rw [taken] at collects same
      obtain rfl := Option.some.inj collects
      obtain rfl := same
      exact { paired with }

theorem Paired.step {action : Action} (paired : Paired experiment unseen)
    (orderly : Orderly args experiment action) :
    ∃ unseen, Paired (experimentStep args host experiment action).state unseen := by
  unfold experimentStep
  cases acts : experiment.act args host action with
  | none => exact ⟨unseen, paired⟩
  | some after =>
      cases action with
      | runner act =>
          rw [Experiment.act, Option.map_eq_some_iff] at acts
          obtain ⟨runner, taken, rfl⟩ := acts
          exact paired.runner_act orderly taken
      | send peer bytes =>
          rw [Experiment.act] at acts
          obtain rfl := Option.some.inj acts
          exact ⟨unseen, { paired with }⟩
      | deliver index now =>
          rw [Experiment.act] at acts
          cases sent : experiment.sent[index]? with
          | none =>
              rw [sent] at acts
              cases acts
          | some transmission =>
              rw [sent] at acts
              exact paired.deliver (orderly transmission sent) transmission.boot acts
      | silence now =>
          rw [Experiment.act] at acts
          exact ⟨unseen, paired.silence acts⟩

theorem paired_start (args : RestartArgs) (startTime : Int) :
    Paired (startExperiment args startTime) [] where
  numbered := numbered_since_start (collectorCommand args) startTime emptyDisk
  issued := rfl
  counted := rfl
  begun := fun awaiting => absurd awaiting (show ¬Point.starting.awaiting by decide)
  shared := rfl
  single := Nat.zero_le 1
  current := List.forall_mem_nil _
  inProgress := fun rest => absurd rfl rest
  labelled := List.forall_mem_nil _
  stopped := fun stop => by rcases stop with stop | stop <;> cases stop

end Invariant

/-- In an experiment whose captures complete in turn, resets and captures are paired. -/
theorem restarts_paired (args : RestartArgs) (host : Host) (startTime : Int) (actions : List Action)
    (orderly : Guarded (experimentStep args host) (Orderly args) (startExperiment args startTime)
      actions) :
    PairingHolds (runExperiment args host startTime actions) := by
  have keeps (experiment : Experiment) (action : Action) (kept : ∃ unseen, Paired experiment unseen)
      (orderly : Orderly args experiment action) :
      ∃ unseen, Paired (experimentStep args host experiment action).state unseen := by
    obtain ⟨unseen, paired⟩ := kept
    exact paired.step orderly
  obtain ⟨unseen, paired⟩ := run_invariant keeps actions (startExperiment args startTime)
    ⟨[], paired_start args startTime⟩ orderly
  exact paired.pairing_holds

/-! ## Two small experiments -/

def tinyRestart (trials maxAttempts : Nat) (positive : 0 < trials) (cover : trials ≤ maxAttempts) :
    RestartArgs :=
  ⟨trials, maxAttempts, 60000000, 8, 1, 1000, zeroBlock 16, positive, cover, by decide⟩

def tinyBootSends : List Action :=
  [.send tinyPeer tinyHello.sent, .send tinyPeer (tinyRx (.rawChunk 0)).sent,
    .send tinyPeer (tinyRx (.rawChunk 1)).sent, .send tinyPeer (tinyRx .rawEnd).sent]

/-- Two resets, each with an upload that arrives while the runner waits. At the second
one the runner cannot read the CSV at first. -/
def promptExperiment : List Action :=
  [.runner .begin, .runner .check, .runner .pulse, .runner .read] ++ tinyBootSends ++
    [.deliver 0 0, .deliver 2 0, .deliver 1 0, .runner .poll, .deliver 3 0, .runner .read,
      .runner .check, .runner .pulse, .runner .misread] ++ tinyBootSends ++
    [.deliver 4 0, .deliver 5 0, .deliver 5 0, .deliver 6 0, .deliver 7 0, .runner .poll,
      .runner .read, .runner .leave, .silence 0, .runner .finish]

/-- The two rows pair the first capture with the first reset and the second with the
second. -/
theorem prompt_experiment_paired :
    PairingHolds (runExperiment (tinyRestart 2 3 (by decide) (by decide)) quietHost 0
      promptExperiment) ∧
      (runExperiment (tinyRestart 2 3 (by decide) (by decide)) quietHost 0
        promptExperiment).runner.phase = .complete ∧
      (runExperiment (tinyRestart 2 3 (by decide) (by decide)) quietHost 0
        promptExperiment).runner.rows =
          [⟨1, some 0, some 0, .complete⟩, ⟨2, some 1, some 1, .complete⟩] :=
  ⟨restarts_paired _ _ _ _ (by decide +kernel), by decide +kernel, by decide +kernel⟩

/-- The last datagram of the first boot arrives behind the timeout of its attempt. -/
def tardyExperiment : List Action :=
  [.runner .begin, .runner .check, .runner .pulse, .runner .read] ++ tinyBootSends ++
    [.deliver 0 0, .deliver 1 0, .deliver 2 0, .runner .giveUp, .deliver 3 0, .runner .check,
      .runner .pulse, .runner .read]

/-- The second attempt is recorded complete with the capture of the first boot. -/
theorem tardy_upload_breaks_pairing :
    ¬PairingHolds (runExperiment (tinyRestart 2 3 (by decide) (by decide)) quietHost 0
      tardyExperiment) := by
  intro pairing
  have recorded : ∃ row ∈ (runExperiment (tinyRestart 2 3 (by decide) (by decide)) quietHost 0
      tardyExperiment).runner.rows,
      row.outcome = .complete ∧ row.captureId = some 0 ∧ row.resetAttempt = 2 := by decide +kernel
  have boots : (runExperiment (tinyRestart 2 3 (by decide) (by decide)) quietHost 0
      tardyExperiment).helloBoots = [1] := by decide +kernel
  obtain ⟨row, member, complete, number, attempt⟩ := recorded
  obtain ⟨captureId, named, boot⟩ := pairing.captures row member complete
  obtain rfl : 0 = captureId := Option.some.inj (number.symm.trans named)
  rw [boots, attempt] at boot
  exact absurd boot (by decide)

end BootEntropy.Aeb
