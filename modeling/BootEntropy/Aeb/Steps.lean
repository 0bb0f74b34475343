import BootEntropy.Aeb.Collector
import BootEntropy.Lib.Run

/-!
# What one datagram can do

`Handled` lists every outcome of the loop body once, with its guards. The main
loop is a run of `BootEntropy.Lib`, so an invariant needs one case analysis.
-/

namespace BootEntropy.Aeb

open BootEntropy.Lib

set_option autoImplicit false

/-! ## Messages and result lines -/

theorem parse_message_head {data : Bytes} {msg : Message} (parsed : parseMessage data = some msg) :
    ∃ rest, data = 0x41 :: rest := by
  rw [parseMessage] at parsed
  split_ifs at parsed with short
  have long : (data.take 4).length = 4 := by
    rw [List.length_take]
    rw [aebHeaderLen] at short
    omega
  have magic : leValue (data.take 4) = aebMagic := by
    by_contra other
    simp [unpackHeader, unpackLe, other] at parsed
  have octets : data.take 4 = leBytes 4 aebMagic := by
    have bytes := le_bytes_value (data.take 4)
    rw [long, magic] at bytes
    exact bytes.symm
  refine ⟨[0x45, 0x42, 0x31] ++ data.drop 4, ?_⟩
  conv_lhs => rw [← List.take_append_drop 4 data, octets]
  rfl

/-- No datagram with a message header is read as a result line. -/
theorem parse_result_line_of_message {data : Bytes} {msg : Message}
    (parsed : parseMessage data = some msg) : parseResultLine data = none := by
  obtain ⟨rest, eq⟩ := parse_message_head parsed
  obtain ⟨tail, stripped⟩ := strip_cons 'A' (decodeUtf8 rest) (by decide)
  have text : decodeUtf8 data = 'A' :: decodeUtf8 rest := by
    rw [eq, decode_utf8_ascii 0x41 rest (by decide)]
    rfl
  have other : ¬resultTag <+: 'A' :: tail := by
    rw [show resultTag = '[' :: "AEB_RESULT]".toList from rfl, List.cons_prefix_cons]
    exact fun both => absurd both.1 (by decide)
  rw [parseResultLine, text, stripped, if_neg other]

theorem handle_datagram_message (args : CollectorArgs) (host : Host) (collector : Collector)
    {rx : Rx} {msg : Message} (parsed : parseMessage rx.data = some msg) :
    handleDatagram args host collector rx =
      handleMessage args host { collector with lastRx := rx.now } rx msg := by
  rw [handleDatagram, parse_result_line_of_message parsed, parsed]

/-! ## Outcomes -/

variable (args : CollectorArgs) (host : Host)

def Collector.received (collector : Collector) (rx : Rx) : Collector :=
  { collector with lastRx := rx.now }

def answerHello (collector : Collector) (rx : Rx) (msg : Message) : Disk × Except PyError TrialState :=
  sendStimulus args host rx.peer msg (args.nonce.getD msg.nonce) collector.captureCounter rx.now
    collector.disk

def resultTrial (result : Dict Text Text) : Option Int :=
  parseInt ((result.lookup "trial".toList).getD "-1".toList)

/-- The outcomes of `handleDatagram`, from the state with `last_rx` noted. -/
inductive Handled (collector : Collector) (rx : Rx) : Collector × Option PyError → Prop where
  | ignored (notHello : ∀ msg, parseMessage rx.data = some msg → msg.msgType ≠ aebTypeHello) :
      Handled collector rx (collector, none)
  | badResult {result : Dict Text Text} (line : parseResultLine rx.data = some result)
      (trial : resultTrial result = none) : Handled collector rx (collector, some .valueError)
  | noted {result : Dict Text Text} {trial : Int} {state : TrialState}
      (line : parseResultLine rx.data = some result) (parsed : resultTrial result = some trial)
      (known : collector.states.lookup (rx.peer, trial) = some state) :
      Handled collector rx
        (collector.setState (rx.peer, trial)
          { state with result := result ∪ state.result, resultTime := some rx.now }, none)
  | helloFailed {msg : Message} {disk : Disk} {error : PyError}
      (parsed : parseMessage rx.data = some msg) (hello : msg.msgType = aebTypeHello)
      (answer : answerHello args host collector rx msg = (disk, .error error)) :
      Handled collector rx
        ({ collector with captureCounter := collector.captureCounter + 1, disk := disk }, some error)
  | opened {msg : Message} {disk : Disk} {state : TrialState}
      (parsed : parseMessage rx.data = some msg) (hello : msg.msgType = aebTypeHello)
      (answer : answerHello args host collector rx msg = (disk, .ok state)) :
      Handled collector rx
        (({ collector with
            captureCounter := collector.captureCounter + 1
            disk := disk } : Collector).setState (rx.peer, (msg.trial : Int)) state, none)
  | stored {msg : Message} {state : TrialState} (parsed : parseMessage rx.data = some msg)
      (notHello : msg.msgType ≠ aebTypeHello) (notEnd : msg.msgType ≠ aebTypeRawEnd)
      (known : collector.states.lookup (rx.peer, (msg.trial : Int)) = some state) :
      Handled collector rx
        (collector.setState (rx.peer, (msg.trial : Int)) (storeMessage state msg), none)
  | endRaised {msg : Message} {state : TrialState} {disk : Disk} {error : PyError}
      (parsed : parseMessage rx.data = some msg) (rawEnd : msg.msgType = aebTypeRawEnd)
      (known : collector.states.lookup (rx.peer, (msg.trial : Int)) = some state)
      (final : finalizeTrial host.sha256 (endFrame state msg) collector.disk =
        (disk, .error error)) :
      Handled collector rx
        ({ collector.setState (rx.peer, (msg.trial : Int)) (endFrame state msg) with disk := disk },
          some error)
  | ended {msg : Message} {state : TrialState} {disk : Disk} {complete : Bool}
      (parsed : parseMessage rx.data = some msg) (rawEnd : msg.msgType = aebTypeRawEnd)
      (known : collector.states.lookup (rx.peer, (msg.trial : Int)) = some state)
      (final : finalizeTrial host.sha256 (endFrame state msg) collector.disk =
        (disk, .ok complete)) :
      Handled collector rx
        ({ collector with
            states := collector.states.erase (rx.peer, (msg.trial : Int))
            completed := if complete then collector.completed + 1 else collector.completed
            disk := disk }, none)

theorem handle_result_handled {collector : Collector} {rx : Rx} {result : Dict Text Text}
    (line : parseResultLine rx.data = some result) :
    Handled args host collector rx (handleResult collector rx result) := by
  rw [handleResult, ← resultTrial]
  cases trial : resultTrial result with
  | none => exact .badResult line trial
  | some trial' =>
      dsimp only
      cases known : collector.states.lookup (rx.peer, trial') with
      | none =>
          apply Handled.ignored
          intro msg parsed
          rw [parse_result_line_of_message parsed] at line
          cases line
      | some state => exact .noted line trial known

theorem handle_hello_handled {collector : Collector} {rx : Rx} {msg : Message}
    (parsed : parseMessage rx.data = some msg) (hello : msg.msgType = aebTypeHello) :
    Handled args host collector rx (handleHello args host collector rx msg) := by
  unfold handleHello
  rcases answer : sendStimulus args host rx.peer msg (args.nonce.getD msg.nonce)
    collector.captureCounter rx.now collector.disk with ⟨disk, error | state⟩
  · simp only [answer]
    exact .helloFailed parsed hello answer
  · simp only [answer]
    exact .opened parsed hello answer

theorem handle_message_handled {collector : Collector} {rx : Rx} {msg : Message}
    (parsed : parseMessage rx.data = some msg) :
    Handled args host collector rx (handleMessage args host collector rx msg) := by
  by_cases hello : msg.msgType = aebTypeHello
  · rw [handleMessage, if_pos hello]
    exact handle_hello_handled args host parsed hello
  · cases known : collector.states.lookup (rx.peer, (msg.trial : Int)) with
    | none =>
        rw [handle_message_unknown args host known hello]
        apply Handled.ignored
        intro other same
        rw [← Option.some.inj (parsed.symm.trans same)]
        exact hello
    | some state =>
        rw [handle_message_known args host rfl known hello]
        by_cases rawEnd : msg.msgType = aebTypeRawEnd
        · rw [if_pos rawEnd, handleRawEnd]
          rcases final : finalizeTrial host.sha256 (endFrame state msg) collector.disk with
            ⟨disk, error | complete⟩
          · exact .endRaised parsed rawEnd known final
          · exact .ended parsed rawEnd known final
        · rw [if_neg rawEnd]
          exact .stored parsed hello rawEnd known

/-- The inversion lemma of the loop body. -/
theorem handle_datagram_handled (collector : Collector) (rx : Rx) :
    Handled args host (collector.received rx) rx (handleDatagram args host collector rx) := by
  rw [handleDatagram]
  cases line : parseResultLine rx.data with
  | some result => exact handle_result_handled args host line
  | none =>
      cases parsed : parseMessage rx.data with
      | none =>
          apply Handled.ignored
          intro msg other
          rw [parsed] at other
          cases other
      | some msg => exact handle_message_handled args host parsed

theorem handle_datagram_raw_end {collector : Collector} {rx : Rx} {msg : Message}
    {state : TrialState} (parsed : parseMessage rx.data = some msg)
    (rawEnd : msg.msgType = aebTypeRawEnd)
    (known : collector.states.lookup (rx.peer, (msg.trial : Int)) = some state) :
    handleDatagram args host collector rx =
      handleRawEnd host (collector.received rx) (rx.peer, (msg.trial : Int)) state msg := by
  have notHello : msg.msgType ≠ aebTypeHello := by
    rw [rawEnd]
    decide
  have lookup : (collector.received rx).states.lookup (rx.peer, (msg.trial : Int)) =
      some state := known
  rw [handle_datagram_message args host collector parsed]
  exact (handle_message_known args host rfl lookup notHello).trans (if_pos rawEnd)

/-! ## The loop as a run -/

def collectorStep (collector : Collector) (event : Event) : Next Collector LoopEnd :=
  if args.trials ≤ collector.completed then .stop collector .finished
  else
    match event with
    | .silence now =>
        if args.idleTimeout < now - collector.lastRx then .stop collector .idle else .go collector
    | .datagram rx =>
        match handleDatagram args host collector rx with
        | (after, none) => .go after
        | (after, some error) => .stop after (.raised error)

theorem collector_loop_eq_run (events : List Event) : ∀ collector,
    collectorLoop args host collector events =
      ((run (collectorStep args host) collector events).1,
        (run (collectorStep args host) collector events).2.getD
          (if args.trials ≤ (run (collectorStep args host) collector events).1.completed then
            .finished else .running)) := by
  induction events with
  | nil => exact fun _ => rfl
  | cons event events ih =>
      intro collector
      unfold collectorLoop run collectorStep
      by_cases finished : args.trials ≤ collector.completed
      · rw [if_pos finished, if_pos finished]
        rfl
      · rw [if_neg finished, if_neg finished]
        cases event with
        | silence now =>
            by_cases idle : args.idleTimeout < now - collector.lastRx
            · simp only [if_pos idle]
              rfl
            · simp only [if_neg idle]
              exact ih collector
        | datagram rx =>
            rcases step : handleDatagram args host collector rx with ⟨after, _ | error⟩
            · simp only [step]
              exact ih after
            · simp only [step]
              rfl

/-- Every datagram the loop takes in meets `ok` in the state it is taken in. -/
def EveryDatagram (ok : Collector → Rx → Prop) : Collector → List Event → Prop :=
  Guarded (collectorStep args host) fun collector event =>
    match event with
    | .silence _ => True
    | .datagram rx => (collector.completed : Int) < args.trials → ok collector rx

instance (ok : Collector → Rx → Prop) [∀ collector rx, Decidable (ok collector rx)]
    (collector : Collector) (events : List Event) :
    Decidable (EveryDatagram args host ok collector events) :=
  have (before : Collector) (event : Event) : Decidable (
      match event with
      | .silence _ => True
      | .datagram rx => (before.completed : Int) < args.trials → ok before rx) :=
    match event with
    | .silence _ => isTrue trivial
    | .datagram _ => inferInstanceAs (Decidable (_ → _))
  decideGuarded (collectorStep args host) _ collector events

variable {args host}

theorem EveryDatagram.of_forall {ok : Collector → Rx → Prop} (all : ∀ collector rx, ok collector rx)
    (events : List Event) (collector : Collector) : EveryDatagram args host ok collector events := by
  apply Guarded.of_forall
  intro before event
  cases event with
  | silence now => trivial
  | datagram rx => exact fun _ => all before rx

theorem EveryDatagram.congr {ok other : Collector → Rx → Prop}
    (same : ∀ collector rx, ok collector rx ↔ other collector rx) {events : List Event}
    {collector : Collector} :
    EveryDatagram args host ok collector events ↔ EveryDatagram args host other collector events := by
  apply Guarded.congr
  intro before event
  cases event with
  | silence now => exact Iff.rfl
  | datagram rx => simp only [same]

theorem collector_step_quiet_iff (before : Collector) (event : Event) :
    (∀ after result, collectorStep args host before event = .stop after result →
        ¬∃ error, result = .raised error) ↔
      match event with
      | .silence _ => True
      | .datagram rx => (before.completed : Int) < args.trials →
          (handleDatagram args host before rx).2 = none := by
  unfold collectorStep
  by_cases finished : args.trials ≤ before.completed
  · rw [if_pos finished]
    cases event with
    | silence now => simp
    | datagram rx => simp [Int.not_lt.mpr finished]
  · rw [if_neg finished]
    cases event with
    | silence now =>
        dsimp only
        split_ifs <;> simp
    | datagram rx =>
        rcases step : handleDatagram args host before rx with ⟨after, _ | error⟩
        · simp [step]
        · simp [step, Int.not_le.mp finished]

theorem loop_raises_nothing_iff {collector : Collector} {events : List Event} :
    (∀ error, (collectorLoop args host collector events).2 ≠ .raised error) ↔
      EveryDatagram args host (fun collector rx => (handleDatagram args host collector rx).2 = none)
        collector events := by
  have avoids := @run_avoids_iff _ _ _ (collectorStep args host)
    (fun result => ∃ error, result = .raised error) events collector
  rw [EveryDatagram, ← Guarded.congr collector_step_quiet_iff, ← avoids, collector_loop_eq_run]
  cases stopped : (run (collectorStep args host) collector events).2 with
  | none =>
      simp only [Option.getD_none]
      split_ifs <;> simp
  | some result => simp

/-- Step lemma to run lemma for the main loop. -/
theorem collector_loop_invariant {ok : Collector → Rx → Prop} {invariant : Collector → Prop}
    (keeps : ∀ collector rx, (collector.completed : Int) < args.trials → invariant collector →
      ok collector rx → invariant (handleDatagram args host collector rx).1)
    {collector : Collector} {events : List Event} (holds : invariant collector)
    (every : EveryDatagram args host ok collector events) :
    invariant (collectorLoop args host collector events).1 := by
  rw [collector_loop_eq_run]
  refine run_invariant ?_ events collector holds every
  intro before event kept guard
  unfold collectorStep
  by_cases finished : args.trials ≤ before.completed
  · rw [if_pos finished]
    exact kept
  · rw [if_neg finished]
    cases event with
    | silence now =>
        dsimp only
        split_ifs
        · exact kept
        · exact kept
    | datagram rx =>
        have next := keeps before rx (by omega) kept (guard (by omega))
        dsimp only
        rcases step : handleDatagram args host before rx with ⟨after, _ | error⟩
        · rw [step] at next
          exact next
        · rw [step] at next
          exact next

/-- In a run of quiet datagrams: if a quiet datagram keeps the invariant just when it
meets `ok`, the invariant holds after every number of events just when every datagram
meets `ok`. -/
theorem collector_loop_always_iff_of_quiet {quiet ok : Collector → Rx → Prop}
    {invariant : Collector → Prop}
    (decides : ∀ collector rx, invariant collector → quiet collector rx →
      (invariant (handleDatagram args host collector rx).1 ↔ ok collector rx))
    (events : List Event) {collector : Collector} (holds : invariant collector)
    (quietly : EveryDatagram args host quiet collector events) :
    (∀ count, invariant (collectorLoop args host collector (events.take count)).1) ↔
      EveryDatagram args host ok collector events := by
  have step : ∀ before event, invariant before →
      (match event with
        | .silence _ => True
        | .datagram rx => (before.completed : Int) < args.trials → quiet before rx) →
      (invariant (collectorStep args host before event).state ↔
        match event with
        | .silence _ => True
        | .datagram rx => (before.completed : Int) < args.trials → ok before rx) := by
    intro before event kept quietStep
    unfold collectorStep
    by_cases finished : args.trials ≤ before.completed
    · rw [if_pos finished]
      apply iff_of_true kept
      cases event with
      | silence now => trivial
      | datagram rx => exact fun running => absurd running (Int.not_lt.mpr finished)
    · rw [if_neg finished]
      cases event with
      | silence now =>
          dsimp only
          split_ifs
          · exact iff_of_true kept trivial
          · exact iff_of_true kept trivial
      | datagram rx =>
          have decided := decides before rx kept (quietStep (Int.not_le.mp finished))
          dsimp only
          rw [forall_prop_of_true (Int.not_le.mp finished), ← decided]
          rcases handleDatagram args host before rx with ⟨after, _ | error⟩
          · rfl
          · rfl
  rw [EveryDatagram, ← run_always_iff_of_quiet step events collector holds quietly]
  simp only [collector_loop_eq_run]

theorem collector_loop_always_iff {ok : Collector → Rx → Prop} {invariant : Collector → Prop}
    (decides : ∀ collector rx, invariant collector →
      (invariant (handleDatagram args host collector rx).1 ↔ ok collector rx))
    (events : List Event) {collector : Collector} (holds : invariant collector) :
    (∀ count, invariant (collectorLoop args host collector (events.take count)).1) ↔
      EveryDatagram args host ok collector events :=
  collector_loop_always_iff_of_quiet (fun before rx kept _ => decides before rx kept) events holds
    (EveryDatagram.of_forall (fun _ _ => trivial) events collector)

end BootEntropy.Aeb
