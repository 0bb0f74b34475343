import BootEntropy.Aeb.Finalize

/-!
# The collector

`aeb_collector.py`: the stimulus, the dispatch of one datagram, and the main loop.
What the operating system decides is in `Host`; the command line is in
`CollectorArgs`.
-/

namespace BootEntropy.Aeb

open BootEntropy.Lib

set_option autoImplicit false

inductive PayloadMode where
  | constant
  | counter
  | random
  deriving DecidableEq, Repr

def PayloadMode.text : PayloadMode → Text
  | .constant => "constant".toList
  | .counter => "counter".toList
  | .random => "random".toList

/-- Parsed arguments that passed the checks of `main`. `nonce` is the fixed START
nonce, if one is in force. -/
structure CollectorArgs where
  trials : Int
  sampleBytes : Option Int
  bursts : Option Int
  intervalUs : Option Int
  payloadBytes : Nat
  payloadMode : PayloadMode
  intervalJitterUs : Nat
  startDelayMs : Int
  nonce : Option Bytes
  idleTimeout : Int
  append : Bool

def defaultCollectorArgs : CollectorArgs where
  trials := 16
  sampleBytes := none
  bursts := none
  intervalUs := none
  payloadBytes := 64
  payloadMode := .constant
  intervalJitterUs := 0
  startDelayMs := 20
  nonce := none
  idleTimeout := 90000000
  append := false

structure Host where
  sha256 : Bytes → Text
  /-- Whether `sendto` goes through. -/
  accepts : Peer → Bytes → Bool
  /-- Clock at the START of a capture and at each of its bursts. -/
  sendTime : Nat → Nat → Int
  intervalDraw : Nat → Nat → Int
  payloadDraw : Nat → Nat → Bytes

/-! ## Stimulus -/

section Stimulus

variable (args : CollectorArgs) (host : Host) (peer : Peer) (msg : Message) (nonce : Bytes)
  (captureId : Nat)

def stimulusBursts : Int := args.bursts.getD msg.seqOrCount
def stimulusInterval : Int := args.intervalUs.getD msg.intervalUs
def stimulusSampleBytes : Int := args.sampleBytes.getD msg.sampleBytes

def startPacket : Option Bytes :=
  makeMessage aebTypeStart msg.trial (stimulusBursts args msg) (stimulusInterval args msg)
    (stimulusSampleBytes args msg) nonce []

def sleepUs (seq : Nat) : Int :=
  if args.intervalJitterUs = 0 then stimulusInterval args msg
  else max 0 (stimulusInterval args msg + host.intervalDraw captureId seq)

def burstPayload (seq : Nat) : Bytes :=
  match args.payloadMode with
  | .random => host.payloadDraw captureId seq
  | .counter => (List.range args.payloadBytes).map fun i => UInt8.ofNat (seq + i)
  | .constant => List.replicate args.payloadBytes 0x53

def burstPacket (seq : Nat) : Option Bytes :=
  makeMessage aebTypeBurst msg.trial seq (sleepUs args host msg captureId seq)
    (stimulusSampleBytes args msg) nonce (burstPayload args host captureId seq)

def stimulusRow (seq : Nat) : StimulusRow where
  seq := seq
  sleepUs := sleepUs args host msg captureId seq
  payloadMode := args.payloadMode.text
  payloadLen := (burstPayload args host captureId seq).length
  payloadHex := hexText (burstPayload args host captureId seq)
  payloadSha256 :=
    if burstPayload args host captureId seq = [] then []
    else host.sha256 (burstPayload args host captureId seq)

/-- The burst loop: rows written so far, and what stopped it. -/
def sendBursts : Nat → Nat → List StimulusRow × Option PyError
  | 0, _ => ([], none)
  | remaining + 1, seq =>
      match burstPacket args host msg nonce captureId seq with
      | none => ([], some .structError)
      | some packet =>
          if host.accepts peer packet then
            let (rows, stopped) := sendBursts remaining (seq + 1)
            (stimulusRow args host msg captureId seq :: rows, stopped)
          else ([], some .osError)

def openedState (helloTime : Int) : TrialState where
  captureId := captureId
  peer := peer
  protocolTrial := msg.trial
  helloNonce := msg.nonce
  startNonce := nonce
  bursts := stimulusBursts args msg
  intervalUs := stimulusInterval args msg
  requestedSampleBytes := stimulusSampleBytes args msg
  rawChunksExpected := none
  rawLen := none
  rawChunks := ∅
  jitterChunks := ∅
  result := ∅
  helloTime := helloTime
  startSendTime := some (host.sendTime captureId 0)
  firstBurstSendTime :=
    if stimulusBursts args msg ≤ 0 then none else some (host.sendTime captureId 1)
  lastBurstSendTime :=
    if stimulusBursts args msg ≤ 0 then none
    else some (host.sendTime captureId (stimulusBursts args msg).toNat)
  resultTime := none

def sendStimulus (helloTime : Int) (disk : Disk) : Disk × Except PyError TrialState :=
  match startPacket args msg nonce with
  | none => (disk, .error .structError)
  | some start =>
      if ¬host.accepts peer start then (disk, .error .osError)
      else if args.startDelayMs < 0 then (disk, .error .valueError)
      else
        let (rows, stopped) :=
          sendBursts args host peer msg nonce captureId (stimulusBursts args msg).toNat 0
        let disk := { disk with
          stimulusCsv := Function.update disk.stimulusCsv captureId (some rows) }
        match stopped with
        | some error => (disk, .error error)
        | none => (disk, .ok (openedState args host peer msg nonce captureId helloTime))

end Stimulus

/-! ## Result lines -/

def resultTag : Text := "[AEB_RESULT]".toList

/-- The fields of the tokens behind the first one. A later token wins. -/
def resultFields (tokens : List Text) : Dict Text Text :=
  tokens.foldl (fun fields token =>
    match splitOnce '=' token with
    | none => fields
    | some (name, value) => fields.insert name value) ∅

def parseResultLine (data : Bytes) : Option (Dict Text Text) :=
  let text := strip (decodeUtf8 data)
  if resultTag <+: text then some (resultFields (splitWords text).tail) else none

/-! ## Main loop -/

abbrev StateKey := Peer × Int

structure Collector where
  states : Dict StateKey TrialState
  completed : Nat
  captureCounter : Nat
  lastRx : Int
  disk : Disk

/-- One datagram as it lies on the wire, its source, and the time it is read. -/
structure Rx where
  sent : Bytes
  peer : Peer
  now : Int

def recvLimit : Nat := 4096

/-- `sock.recvfrom(4096)` drops the rest of a longer datagram. -/
def Rx.data (rx : Rx) : Bytes := rx.sent.take recvLimit

def Collector.setState (collector : Collector) (key : StateKey) (state : TrialState) : Collector :=
  { collector with states := collector.states.insert key state }

def handleResult (collector : Collector) (rx : Rx) (result : Dict Text Text) :
    Collector × Option PyError :=
  match parseInt ((result.lookup "trial".toList).getD "-1".toList) with
  | none => (collector, some .valueError)
  | some trial =>
      match collector.states.lookup (rx.peer, trial) with
      | none => (collector, none)
      | some state =>
          (collector.setState (rx.peer, trial)
            { state with result := result ∪ state.result, resultTime := some rx.now }, none)

def handleHello (args : CollectorArgs) (host : Host) (collector : Collector) (rx : Rx)
    (msg : Message) : Collector × Option PyError :=
  let captureId := collector.captureCounter
  let (disk, opened) := sendStimulus args host rx.peer msg (args.nonce.getD msg.nonce) captureId
    rx.now collector.disk
  let collector := { collector with captureCounter := captureId + 1, disk := disk }
  match opened with
  | .error error => (collector, some error)
  | .ok state => (collector.setState (rx.peer, msg.trial) state, none)

/-- The frame fields a RAW_END supplies when no RAW_BEGIN has come. -/
def endFrame (state : TrialState) (msg : Message) : TrialState :=
  { state with
    rawChunksExpected := some (state.rawChunksExpected.getD msg.seqOrCount)
    rawLen := some (state.rawLen.getD msg.sampleBytes) }

def handleRawEnd (host : Host) (collector : Collector) (key : StateKey) (state : TrialState)
    (msg : Message) : Collector × Option PyError :=
  let (disk, outcome) := finalizeTrial host.sha256 (endFrame state msg) collector.disk
  match outcome with
  | .error error =>
      ({ collector.setState key (endFrame state msg) with disk := disk }, some error)
  | .ok complete =>
      ({ collector with
          states := collector.states.erase key
          completed := if complete then collector.completed + 1 else collector.completed
          disk := disk }, none)

def storeMessage (state : TrialState) (msg : Message) : TrialState :=
  if msg.msgType = aebTypeRawBegin then
    { state with rawChunksExpected := some msg.seqOrCount, rawLen := some msg.sampleBytes }
  else if msg.msgType = aebTypeRawChunk then
    { state with
      rawChunks := state.rawChunks.insert msg.seqOrCount (msg.payload.take msg.sampleBytes) }
  else if msg.msgType = aebTypeJitterChunk then
    { state with
      jitterChunks := state.jitterChunks.insert msg.seqOrCount (msg.payload.take msg.sampleBytes) }
  else state

def handleMessage (args : CollectorArgs) (host : Host) (collector : Collector) (rx : Rx)
    (msg : Message) : Collector × Option PyError :=
  let key : StateKey := (rx.peer, msg.trial)
  if msg.msgType = aebTypeHello then handleHello args host collector rx msg
  else
    match collector.states.lookup key with
    | none => (collector, none)
    | some state =>
        if msg.msgType = aebTypeRawEnd then handleRawEnd host collector key state msg
        else (collector.setState key (storeMessage state msg), none)

theorem handle_message_known (args : CollectorArgs) (host : Host) {collector : Collector} {rx : Rx}
    {msg : Message} {key : StateKey} {state : TrialState}
    (addressed : ((rx.peer, (msg.trial : Int)) : StateKey) = key)
    (known : collector.states.lookup key = some state) (other : msg.msgType ≠ aebTypeHello) :
    handleMessage args host collector rx msg =
      if msg.msgType = aebTypeRawEnd then handleRawEnd host collector key state msg
      else (collector.setState key (storeMessage state msg), none) := by
  subst addressed
  simp only [handleMessage, if_neg other, known]

theorem handle_message_unknown (args : CollectorArgs) (host : Host) {collector : Collector} {rx : Rx}
    {msg : Message} (unknown : collector.states.lookup (rx.peer, (msg.trial : Int)) = none)
    (other : msg.msgType ≠ aebTypeHello) :
    handleMessage args host collector rx msg = (collector, none) := by
  simp only [handleMessage, if_neg other, unknown]

/-- The loop body for one received datagram. An exception comes with the state it
leaves. -/
def handleDatagram (args : CollectorArgs) (host : Host) (before : Collector) (rx : Rx) :
    Collector × Option PyError :=
  let collector := { before with lastRx := rx.now }
  match parseResultLine rx.data with
  | some result => handleResult collector rx result
  | none =>
      match parseMessage rx.data with
      | none => (collector, none)
      | some msg => handleMessage args host collector rx msg

inductive Event where
  | datagram (rx : Rx)
  /-- A receive timeout at the given time. -/
  | silence (now : Int)

inductive LoopEnd where
  | running
  | finished
  | idle
  | raised (error : PyError)
  deriving DecidableEq, Repr

def collectorLoop (args : CollectorArgs) (host : Host) : Collector → List Event → Collector × LoopEnd
  | collector, [] => (collector, if args.trials ≤ collector.completed then .finished else .running)
  | collector, event :: events =>
      if args.trials ≤ collector.completed then (collector, .finished)
      else
        match event with
        | .silence now =>
            if args.idleTimeout < now - collector.lastRx then (collector, .idle)
            else collectorLoop args host collector events
        | .datagram rx =>
            match handleDatagram args host collector rx with
            | (after, none) => collectorLoop args host after events
            | (after, some error) => (after, .raised error)

/-- Without `--append` the streams and the CSV start empty. Files of single
captures stay where they are. -/
def prepareOutputs (append : Bool) (disk : Disk) : Disk :=
  if append then disk
  else
    { disk with
      allBin := []
      allJitterDelta := []
      allJitterResidual := []
      allJoint := []
      trials := [] }

def startCollector (args : CollectorArgs) (startTime : Int) (disk : Disk) : Collector :=
  ⟨∅, 0, 0, startTime, prepareOutputs args.append disk⟩

def collectorMain (args : CollectorArgs) (host : Host) (startTime : Int) (events : List Event)
    (disk : Disk) : Collector × LoopEnd :=
  collectorLoop args host (startCollector args startTime disk) events

end BootEntropy.Aeb
