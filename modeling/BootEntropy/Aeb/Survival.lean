import BootEntropy.Aeb.Reassembly

/-!
# Which datagrams the collector survives

An exception leaves the main loop through four doors: the trial number of a result
line, the stimulus of a HELLO, the jitter of a RAW_END, and the list of the chunks a
RAW_END finds missing, for which the host may have no room.
-/

namespace BootEntropy.Aeb

open BootEntropy.Lib

set_option autoImplicit false

/-! ## Stimulus -/

section Stimulus

variable (args : CollectorArgs) (host : Host) (collector : Collector) (rx : Rx) (msg : Message)

/-- START and the BURST packets of a HELLO, as far as they pack. -/
def stimulusPackets : List (Option Bytes) :=
  startPacket args msg (args.nonce.getD msg.nonce) ::
    (List.range (stimulusBursts args msg).toNat).map
      (burstPacket args host msg (args.nonce.getD msg.nonce) collector.captureCounter)

/-- The operating system takes every packet that is sent. -/
def StimulusAccepted : Prop :=
  ∀ packet, some packet ∈ stimulusPackets args host collector msg →
    host.accepts rx.peer packet = true

def StimulusGoes : Prop :=
  0 ≤ args.startDelayMs ∧ ∀ packed ∈ stimulusPackets args host collector msg,
    ∃ packet, packed = some packet ∧ host.accepts rx.peer packet = true

theorem send_bursts_stops_iff (peer : Peer) (nonce : Bytes) (captureId : Nat) :
    ∀ remaining seq, (sendBursts args host peer msg nonce captureId remaining seq).2 = none ↔
      ∀ index < remaining, ∃ packet,
        burstPacket args host msg nonce captureId (seq + index) = some packet ∧
          host.accepts peer packet = true := by
  intro remaining
  induction remaining with
  | zero =>
      intro seq
      exact ⟨fun _ index below => absurd below (Nat.not_lt_zero index), fun _ => rfl⟩
  | succ remaining ih =>
      intro seq
      have split : (∀ index < remaining + 1, ∃ packet,
            burstPacket args host msg nonce captureId (seq + index) = some packet ∧
              host.accepts peer packet = true) ↔
          (∃ packet, burstPacket args host msg nonce captureId seq = some packet ∧
            host.accepts peer packet = true) ∧
          ∀ index < remaining, ∃ packet,
            burstPacket args host msg nonce captureId (seq + 1 + index) = some packet ∧
              host.accepts peer packet = true := by
        rw [Nat.forall_lt_succ_left]
        simp only [Nat.add_zero, Nat.add_right_comm seq 1, Nat.add_assoc]
      rw [split, ← ih (seq + 1), sendBursts]
      cases packed : burstPacket args host msg nonce captureId seq with
      | none => simp
      | some packet =>
          by_cases accepted : host.accepts peer packet = true
          · simp [accepted]
          · simp [accepted]

theorem answer_hello_ok_iff :
    (∃ state, (answerHello args host collector rx msg).2 = .ok state) ↔
      StimulusGoes args host collector rx msg := by
  have bursts := send_bursts_stops_iff args host msg rx.peer (args.nonce.getD msg.nonce)
    collector.captureCounter (stimulusBursts args msg).toNat 0
  unfold answerHello sendStimulus StimulusGoes stimulusPackets
  rw [List.forall_mem_cons, List.forall_mem_map]
  simp only [List.mem_range]
  simp only [Nat.zero_add] at bursts
  rw [← bursts]
  cases start : startPacket args msg (args.nonce.getD msg.nonce) with
  | none => simp
  | some packet =>
      by_cases accepted : host.accepts rx.peer packet = true
      · by_cases negative : args.startDelayMs < 0
        · simp [accepted, negative]
        · rcases sendBursts args host rx.peer msg (args.nonce.getD msg.nonce)
            collector.captureCounter (stimulusBursts args msg).toNat 0 with ⟨rows, _ | error⟩
          · simp [accepted, negative, Int.not_lt.mp negative]
          · simp [accepted, negative]
      · simp [accepted]

/-- Under the default command line every packet of a parsed HELLO packs. -/
theorem default_stimulus_goes_iff {data : Bytes} (parsed : parseMessage data = some msg) :
    StimulusGoes defaultCollectorArgs host collector rx msg ↔
      StimulusAccepted defaultCollectorArgs host collector rx msg := by
  have fits := parse_message_fits parsed
  have packs : none ∉ stimulusPackets defaultCollectorArgs host collector msg := by
    rw [stimulusPackets, List.mem_cons, not_or]
    constructor
    · exact (make_message_of_lt _ _ _ fits.trial fits.seqOrCount fits.intervalUs
        fits.sampleBytes).symm
    · intro member
      obtain ⟨seq, below, burst⟩ := List.mem_map.mp member
      have seqFits : seq < 256 ^ 4 := (List.mem_range.mp below).trans fits.seqOrCount
      exact make_message_of_lt _ _ _ fits.trial seqFits fits.intervalUs fits.sampleBytes burst
  constructor
  · intro goes packet member
    obtain ⟨sent, same, accepted⟩ := goes.2 (some packet) member
    rwa [Option.some.inj same]
  · intro accepted
    refine ⟨by decide, ?_⟩
    intro packed member
    cases packed with
    | none => exact absurd member packs
    | some packet => exact ⟨packet, rfl, accepted packet member⟩

end Stimulus

/-! ## One datagram -/

variable (args : CollectorArgs) (host : Host)

/-- What keeps a datagram from raising. `answers` is about the stimulus of a HELLO. -/
structure Harmless (answers : Message → Prop) (collector : Collector) (rx : Rx) : Prop where
  result : ∀ result, parseResultLine rx.data = some result → resultTrial result ≠ none
  stimulus : ∀ msg, parseMessage rx.data = some msg → msg.msgType = aebTypeHello → answers msg
  ending : ∀ msg state, parseMessage rx.data = some msg → msg.msgType = aebTypeRawEnd →
    collector.states.lookup (rx.peer, (msg.trial : Int)) = some state → JitterPacks state

theorem Harmless.congr {answers other : Message → Prop} {collector : Collector} {rx : Rx}
    (same : ∀ msg, parseMessage rx.data = some msg → (answers msg ↔ other msg)) :
    Harmless answers collector rx ↔ Harmless other collector rx := by
  constructor
  · intro harmless
    exact ⟨harmless.result, fun msg parsed hello =>
      (same msg parsed).mp (harmless.stimulus msg parsed hello), harmless.ending⟩
  · intro harmless
    exact ⟨harmless.result, fun msg parsed hello =>
      (same msg parsed).mpr (harmless.stimulus msg parsed hello), harmless.ending⟩

/-- Datagrams that belong to no trial the collector knows. A HELLO opens the trial
it names. -/
inductive Foreign (collector : Collector) (rx : Rx) : Prop where
  | malformed (noResult : parseResultLine rx.data = none) (noMessage : parseMessage rx.data = none)
  | unreadable {result : Dict Text Text} (line : parseResultLine rx.data = some result)
      (trial : resultTrial result = none)
  | result {result : Dict Text Text} {trial : Int} (line : parseResultLine rx.data = some result)
      (parsed : resultTrial result = some trial)
      (unknown : collector.states.lookup (rx.peer, trial) = none)
  | message {msg : Message} (parsed : parseMessage rx.data = some msg)
      (notHello : msg.msgType ≠ aebTypeHello)
      (unknown : collector.states.lookup (rx.peer, (msg.trial : Int)) = none)

theorem foreign_untouched {collector : Collector} {rx : Rx} (foreign : Foreign collector rx) :
    (handleDatagram args host collector rx).1 = collector.received rx := by
  cases foreign with
  | malformed noResult noMessage =>
      rw [handleDatagram, noResult, noMessage]
      rfl
  | unreadable line trial =>
      rw [resultTrial] at trial
      rw [handleDatagram, line]
      dsimp only
      rw [handleResult, trial]
      rfl
  | result line parsed unknown =>
      rw [resultTrial] at parsed
      rw [handleDatagram, line]
      dsimp only
      rw [handleResult, parsed]
      dsimp only
      rw [unknown]
      rfl
  | @message msg parsed notHello unknown =>
      have known : (collector.received rx).states.lookup (rx.peer, (msg.trial : Int)) = none :=
        unknown
      rw [handle_datagram_message args host collector parsed]
      exact congrArg Prod.fst (handle_message_unknown args host known notHello)

theorem handle_hello_returns_iff (collector : Collector) (rx : Rx) (msg : Message) :
    (handleHello args host collector rx msg).2 = none ↔ StimulusGoes args host collector rx msg := by
  rw [← answer_hello_ok_iff, answerHello, handleHello]
  rcases sendStimulus args host rx.peer msg (args.nonce.getD msg.nonce) collector.captureCounter
    rx.now collector.disk with ⟨disk, error | state⟩
  · simp
  · simp

theorem handle_raw_end_returns_iff (collector : Collector) (key : StateKey) (state : TrialState)
    (msg : Message) : (handleRawEnd host collector key state msg).2 = none ↔ JitterPacks state := by
  have same : JitterPacks state ↔ JitterPacks (endFrame state msg) := Iff.rfl
  rw [same, jitter_packs_iff, handleRawEnd]
  rcases finalize_trial_cases host.sha256 (endFrame state msg) collector.disk with
    ⟨unframed, _⟩ | ⟨rawLen, _, ⟨error, packed, final⟩ | ⟨streams, packed, final⟩⟩
  · exact absurd unframed (Option.some_ne_none _)
  · rw [packed, final]
    simp
  · rw [packed, final]
    simp

theorem handle_message_returns {collector : Collector} {rx : Rx} {msg : Message}
    (stimulus : msg.msgType = aebTypeHello → StimulusGoes args host collector rx msg)
    (ending : ∀ state, msg.msgType = aebTypeRawEnd →
      collector.states.lookup (rx.peer, (msg.trial : Int)) = some state → JitterPacks state) :
    (handleMessage args host collector rx msg).2 = none := by
  by_cases hello : msg.msgType = aebTypeHello
  · rw [handleMessage, if_pos hello, handle_hello_returns_iff]
    exact stimulus hello
  · cases known : collector.states.lookup (rx.peer, (msg.trial : Int)) with
    | none => rw [handle_message_unknown args host known hello]
    | some state =>
        rw [handle_message_known args host rfl known hello]
        split_ifs with rawEnd
        · exact (handle_raw_end_returns_iff host _ _ _ _).mpr (ending state rawEnd known)
        · rfl

theorem handle_datagram_returns_iff (collector : Collector) (rx : Rx) :
    (handleDatagram args host collector rx).2 = none ↔
      Harmless (StimulusGoes args host collector rx) collector rx := by
  constructor
  · intro returns
    constructor
    · intro result line unreadable
      rw [resultTrial] at unreadable
      rw [handleDatagram, line] at returns
      dsimp only at returns
      rw [handleResult, unreadable] at returns
      cases returns
    · intro msg parsed hello
      rw [handle_datagram_message args host collector parsed, handleMessage, if_pos hello,
        handle_hello_returns_iff] at returns
      exact returns
    · intro msg state parsed rawEnd known
      have notHello : msg.msgType ≠ aebTypeHello := by
        rw [rawEnd]
        decide
      have lookup : (collector.received rx).states.lookup (rx.peer, (msg.trial : Int)) =
          some state := known
      rw [handle_datagram_message args host collector parsed] at returns
      have ended := handle_message_known args host rfl lookup notHello
      rw [if_pos rawEnd] at ended
      exact (handle_raw_end_returns_iff host _ _ _ _).mp ((congrArg Prod.snd ended).symm.trans returns)
  · intro harmless
    cases line : parseResultLine rx.data with
    | some result =>
        have readable := harmless.result result line
        rw [resultTrial] at readable
        rw [handleDatagram, line]
        dsimp only
        rw [handleResult]
        split
        · exact absurd ‹_› readable
        · split <;> rfl
    | none =>
        cases parsed : parseMessage rx.data with
        | none => rw [handleDatagram, line, parsed]
        | some msg =>
            rw [handle_datagram_message args host collector parsed]
            exact handle_message_returns args host (harmless.stimulus msg parsed)
              fun state => harmless.ending msg state parsed

/-! ## Bounded memory -/

def endedTrial (collector : Collector) (rx : Rx) : Option (Message × TrialState) :=
  (parseMessage rx.data).bind fun msg =>
    if msg.msgType = aebTypeRawEnd then
      (collector.states.lookup (rx.peer, (msg.trial : Int))).map fun state => (msg, state)
    else none

variable (memory : Nat)

/-- A turn of the main loop on a host that has room for a list of `memory` missing
chunks. The list is made before anything is written. -/
def boundedStep (collector : Collector) (event : Event) : Next Collector LoopEnd :=
  match event with
  | .silence _ => collectorStep args host collector event
  | .datagram rx =>
      match endedTrial collector rx with
      | none => collectorStep args host collector event
      | some (msg, state) =>
          if (collector.completed : Int) < args.trials ∧
              memory < (missingChunks (endFrame state msg)).length then
            .stop ((collector.received rx).setState (rx.peer, (msg.trial : Int))
              (endFrame state msg)) (.raised .memoryError)
          else collectorStep args host collector event

def boundedLoop (collector : Collector) (events : List Event) : Collector × LoopEnd :=
  let outcome := run (boundedStep args host memory) collector events
  (outcome.1, outcome.2.getD
    (if args.trials ≤ outcome.1.completed then .finished else .running))

/-- The host has room for the missing chunks of the trial that `rx` ends. -/
def HasRoom (collector : Collector) (rx : Rx) : Prop :=
  ∀ msg state, endedTrial collector rx = some (msg, state) →
    (missingChunks (endFrame state msg)).length ≤ memory

def EveryBounded (ok : Collector → Rx → Prop) : Collector → List Event → Prop :=
  Guarded (boundedStep args host memory) fun collector event =>
    match event with
    | .silence _ => True
    | .datagram rx => (collector.completed : Int) < args.trials → ok collector rx

theorem bounded_step_eq {collector : Collector} {event : Event}
    (room : match event with
      | .silence _ => True
      | .datagram rx => (collector.completed : Int) < args.trials → HasRoom memory collector rx) :
    boundedStep args host memory collector event = collectorStep args host collector event := by
  cases event with
  | silence now => rfl
  | datagram rx =>
      dsimp only at room
      rw [boundedStep]
      cases ended : endedTrial collector rx with
      | none => rfl
      | some trial =>
          exact if_neg fun beyond => Nat.not_lt.mpr (room beyond.1 _ _ ended) beyond.2

theorem bounded_loop_eq {collector : Collector} {events : List Event}
    (room : EveryBounded args host memory (HasRoom memory) collector events) :
    boundedLoop args host memory collector events = collectorLoop args host collector events := by
  have same := run_congr_of_guarded (fun _ _ => bounded_step_eq args host memory) events collector room
  rw [boundedLoop, same, collector_loop_eq_run]

/-- What keeps a datagram from raising on such a host. -/
structure HarmlessWithin (answers : Message → Prop) (collector : Collector) (rx : Rx) : Prop
    extends Harmless answers collector rx where
  room : HasRoom memory collector rx

theorem bounded_step_quiet_iff (before : Collector) (event : Event) :
    (∀ after result, boundedStep args host memory before event = .stop after result →
        ¬∃ error, result = .raised error) ↔
      match event with
      | .silence _ => True
      | .datagram rx => (before.completed : Int) < args.trials →
          HarmlessWithin memory (StimulusGoes args host before rx) before rx := by
  have plain := @collector_step_quiet_iff args host before event
  cases event with
  | silence now => exact plain
  | datagram rx =>
      dsimp only at plain ⊢
      by_cases room : (before.completed : Int) < args.trials → HasRoom memory before rx
      · rw [bounded_step_eq args host memory room, plain]
        apply forall_congr'
        intro running
        rw [handle_datagram_returns_iff]
        exact ⟨fun harmless => ⟨harmless, room running⟩, HarmlessWithin.toHarmless⟩
      · rw [Classical.not_imp] at room
        obtain ⟨running, crowded⟩ := room
        rw [HasRoom] at crowded
        push Not at crowded
        obtain ⟨msg, state, ended, beyond⟩ := crowded
        apply iff_of_false
        · intro quiet
          rw [boundedStep, ended] at quiet
          dsimp only at quiet
          rw [if_pos ⟨running, beyond⟩] at quiet
          exact quiet _ _ rfl ⟨_, rfl⟩
        · intro harmless
          exact Nat.not_lt.mpr ((harmless running).room msg state ended) beyond

/-- The bounded loop raises nothing exactly when every datagram is harmless where it
comes and finds room. -/
theorem bounded_loop_raises_nothing_iff (collector : Collector) (events : List Event) :
    (∀ error, (boundedLoop args host memory collector events).2 ≠ .raised error) ↔
      EveryBounded args host memory
        (fun before rx => HarmlessWithin memory (StimulusGoes args host before rx) before rx)
        collector events := by
  have avoids := @run_avoids_iff _ _ _ (boundedStep args host memory)
    (fun result => ∃ error, result = .raised error) events collector
  rw [Guarded.congr (bounded_step_quiet_iff args host memory)] at avoids
  rw [EveryBounded, ← avoids, boundedLoop]
  cases stopped : (run (boundedStep args host memory) collector events).2 with
  | none =>
      simp only [Option.getD_none]
      split_ifs <;> simp
  | some result => simp

/-! ## Whole runs -/

theorem ended_trial_of_foreign {collector : Collector} {rx : Rx} (foreign : Foreign collector rx) :
    endedTrial collector rx = none := by
  rw [endedTrial]
  cases foreign with
  | malformed noResult noMessage => rw [noMessage, Option.bind_none]
  | unreadable line trial =>
      cases parsed : parseMessage rx.data with
      | none => rfl
      | some msg =>
          rw [parse_result_line_of_message parsed] at line
          cases line
  | result line _ unknown =>
      cases parsed : parseMessage rx.data with
      | none => rfl
      | some msg =>
          rw [parse_result_line_of_message parsed] at line
          cases line
  | message parsed notHello unknown =>
      rw [parsed, Option.bind_some, unknown]
      exact ite_self none

def Untouched (before : Collector) (rx : Rx) : Prop :=
  (boundedStep args host memory before (.datagram rx)).state.states = before.states ∧
    (boundedStep args host memory before (.datagram rx)).state.disk = before.disk

theorem foreign_step_untouched {collector : Collector} {rx : Rx} (foreign : Foreign collector rx) :
    Untouched args host memory collector rx := by
  have handled := foreign_untouched args host foreign
  have same : boundedStep args host memory collector (.datagram rx) =
      collectorStep args host collector (.datagram rx) := by
    rw [boundedStep, ended_trial_of_foreign foreign]
  rw [Untouched, same, collectorStep]
  split_ifs with finished
  · exact ⟨rfl, rfl⟩
  · rcases step : handleDatagram args host collector rx with ⟨after, _ | error⟩
    · rw [step] at handled
      obtain rfl : after = collector.received rx := handled
      exact ⟨rfl, rfl⟩
    · rw [step] at handled
      obtain rfl : after = collector.received rx := handled
      exact ⟨rfl, rfl⟩

/-- No datagram raises, and a datagram of no known trial changes nothing. -/
def Survives (collector : Collector) (events : List Event) : Prop :=
  (∀ error, (boundedLoop args host memory collector events).2 ≠ .raised error) ∧
    EveryBounded args host memory
      (fun before rx => Foreign before rx → Untouched args host memory before rx) collector events

/-- The default collector survives exactly the datagrams that are harmless in the
state they meet. -/
theorem collector_survives_iff (startTime : Int) (disk : Disk) (events : List Event) :
    Survives defaultCollectorArgs host memory (startCollector defaultCollectorArgs startTime disk)
        events ↔
      EveryBounded defaultCollectorArgs host memory
        (fun collector rx => HarmlessWithin memory
          (StimulusAccepted defaultCollectorArgs host collector rx) collector rx)
        (startCollector defaultCollectorArgs startTime disk) events := by
  have untouched : EveryBounded defaultCollectorArgs host memory
      (fun before rx => Foreign before rx → Untouched defaultCollectorArgs host memory before rx)
      (startCollector defaultCollectorArgs startTime disk) events := by
    apply Guarded.of_forall
    intro before event
    cases event with
    | silence now => trivial
    | datagram rx => exact fun _ => foreign_step_untouched defaultCollectorArgs host memory
  have harmless (collector : Collector) (rx : Rx) :
      HarmlessWithin memory (StimulusGoes defaultCollectorArgs host collector rx) collector rx ↔
        HarmlessWithin memory (StimulusAccepted defaultCollectorArgs host collector rx)
          collector rx := by
    have same := @Harmless.congr _ _ collector rx fun msg parsed =>
      default_stimulus_goes_iff host collector rx msg parsed
    exact ⟨fun within => ⟨same.mp within.toHarmless, within.room⟩,
      fun within => ⟨same.mpr within.toHarmless, within.room⟩⟩
  rw [Survives, and_iff_left untouched, bounded_loop_raises_nothing_iff]
  simp only [harmless]

def unreadableResult : Rx := ⟨asciiBytes "[AEB_RESULT] trial=x", tinyPeer, 0⟩

/-- Twenty bytes of text end the collector, whatever room it has. -/
theorem result_line_stops_collector :
    ¬Survives defaultCollectorArgs quietHost (2 ^ 32)
      (startCollector defaultCollectorArgs 0 emptyDisk) [.datagram unreadableResult] := by
  intro survives
  exact survives.1 .valueError (by decide +kernel)

theorem missing_chunks_of_bare {state : TrialState} (noBegin : state.rawChunksExpected = none)
    (noChunks : state.rawChunks.keys = []) (msg : Message) :
    (missingChunks (endFrame state msg)).length = msg.seqOrCount := by
  have absent (index : Nat) : ((endFrame state msg).rawChunks.lookup index).isNone = true := by
    rw [Option.isNone_iff_eq_none, AList.lookup_eq_none, AList.mem_keys]
    change index ∉ state.rawChunks.keys
    rw [noChunks]
    exact List.not_mem_nil
  have expected : expectedChunks (endFrame state msg) = msg.seqOrCount := by
    rw [expectedChunks, endFrame, noBegin]
    rfl
  rw [missingChunks, expected, List.filter_eq_self.mpr fun index _ => absent index,
    List.length_range]

def endlessEnd : Rx := ⟨buildMsg ⟨6, 0, 0xFFFFFFFF, 1000, 8, zeroBlock 16⟩, tinyPeer, 0⟩

def openedCollector : Collector :=
  (handleDatagram defaultCollectorArgs quietHost (startCollector defaultCollectorArgs 0 emptyDisk)
    tinyHello).1

/-- Two headers end a collector that has no room for a list of 2^32 - 1 numbers. -/
theorem raw_end_exhausts_memory (small : memory < 0xFFFFFFFF) :
    ¬Survives defaultCollectorArgs quietHost memory
      (startCollector defaultCollectorArgs 0 emptyDisk)
      [.datagram tinyHello, .datagram endlessEnd] := by
  have hello : endedTrial (startCollector defaultCollectorArgs 0 emptyDisk) tinyHello = none :=
    Option.isNone_iff_eq_none.mp (by decide +kernel)
  have step : handleDatagram defaultCollectorArgs quietHost
      (startCollector defaultCollectorArgs 0 emptyDisk) tinyHello = (openedCollector, none) :=
    Prod.ext rfl (by decide +kernel)
  have taken : boundedStep defaultCollectorArgs quietHost memory
      (startCollector defaultCollectorArgs 0 emptyDisk) (.datagram tinyHello) =
        .go openedCollector := by
    rw [boundedStep, hello]
    dsimp only
    rw [collectorStep, if_neg (by decide), step]
  have bare : (endedTrial openedCollector endlessEnd).map
      (fun trial => (trial.1.seqOrCount, trial.2.rawChunksExpected, trial.2.rawChunks.keys)) =
        some (0xFFFFFFFF, none, []) := by decide +kernel
  obtain ⟨⟨msg, state⟩, ended, fields⟩ := Option.map_eq_some_iff.mp bare
  simp only [Prod.mk.injEq] at fields
  obtain ⟨count, noBegin, noChunks⟩ := fields
  intro survives
  have every := (bounded_loop_raises_nothing_iff _ quietHost memory _ _).mp survives.1
  rw [EveryBounded, Guarded, taken] at every
  dsimp only at every
  rw [Guarded] at every
  obtain ⟨-, here, -⟩ := every
  have running : (openedCollector.completed : Int) < defaultCollectorArgs.trials := by
    decide +kernel
  have room := (here running).room msg state ended
  rw [missing_chunks_of_bare noBegin noChunks, count] at room
  omega

end BootEntropy.Aeb
