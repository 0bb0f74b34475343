import BootEntropy.Lib.Ledger
import BootEntropy.Aeb.Steps

/-!
# Capture ids of one run

A run issues capture ids in order, a trial state holds one, and a row closes one:
the collector is a `Ledger` of `BootEntropy.Lib`. `old` rows were there before the
run.
-/

namespace BootEntropy.Aeb

open BootEntropy.Lib

set_option autoImplicit false

/-! ## What a RAW_END finalizes -/

def closedLength (state : TrialState) (msg : Message) : Nat := state.rawLen.getD msg.sampleBytes

def closedRaw (state : TrialState) (msg : Message) : Option Bytes :=
  completeRaw (endFrame state msg) (closedLength state msg)

/-- Every chunk of the frame was received, and they hold enough bytes. -/
structure RawArrived (chunks : Dict Nat Bytes) (expected length : Nat) : Prop where
  someChunk : 0 < expected
  someByte : 0 < length
  every : ∀ index < expected, chunks.lookup index ≠ none
  enough : length ≤ ((List.range expected).flatMap (chunkAt chunks)).length

def RawCompletes (state : TrialState) (msg : Message) : Prop :=
  RawArrived state.rawChunks (state.rawChunksExpected.getD msg.seqOrCount) (closedLength state msg)

def receivedRaw (state : TrialState) (msg : Message) : Bytes :=
  ((List.range (state.rawChunksExpected.getD msg.seqOrCount)).flatMap
    (chunkAt state.rawChunks)).take (closedLength state msg)

instance (chunks : Dict Nat Bytes) (expected length : Nat) :
    Decidable (RawArrived chunks expected length) :=
  decidable_of_iff
    ((0 < expected ∧ 0 < length) ∧ (∀ index < expected, chunks.lookup index ≠ none) ∧
      length ≤ ((List.range expected).flatMap (chunkAt chunks)).length)
    ⟨fun ⟨⟨someChunk, someByte⟩, every, enough⟩ => ⟨someChunk, someByte, every, enough⟩,
      fun arrived => ⟨⟨arrived.someChunk, arrived.someByte⟩, arrived.every, arrived.enough⟩⟩

instance (state : TrialState) (msg : Message) : Decidable (RawCompletes state msg) :=
  inferInstanceAs (Decidable (RawArrived _ _ _))

theorem complete_raw_some_iff (state : TrialState) (rawLen : Nat) (bytes : Bytes) :
    completeRaw state rawLen = some bytes ↔
      RawArrived state.rawChunks (expectedChunks state) rawLen ∧
        bytes = ((List.range (expectedChunks state)).flatMap (chunkAt state.rawChunks)).take
          rawLen := by
  have missing : missingChunks state = [] ↔
      ∀ index < expectedChunks state, state.rawChunks.lookup index ≠ none := by
    unfold missingChunks
    rw [List.filter_eq_nil_iff]
    apply forall_congr'
    intro index
    rw [List.mem_range, Option.isNone_iff_eq_none]
  have taken (enough : rawLen ≤
        ((List.range (expectedChunks state)).flatMap (chunkAt state.rawChunks)).length) :
      (((List.range (expectedChunks state)).flatMap (chunkAt state.rawChunks)).take
        rawLen).length = rawLen := by
    rw [List.length_take, min_eq_left enough]
  unfold completeRaw
  rw [Int.toNat_natCast]
  dsimp only
  constructor
  · intro raw
    by_cases frame : 0 < expectedChunks state ∧ 0 < (rawLen : Int) ∧ missingChunks state = []
    · rw [if_pos frame] at raw
      split_ifs at raw with length
      rw [List.length_take] at length
      have enough : rawLen ≤
          ((List.range (expectedChunks state)).flatMap (chunkAt state.rawChunks)).length := by omega
      exact ⟨⟨frame.1, by omega, missing.mp frame.2.2, enough⟩, (Option.some.inj raw).symm⟩
    · rw [if_neg frame] at raw
      cases raw
  · rintro ⟨⟨someChunk, someByte, every, enough⟩, rfl⟩
    rw [if_pos ⟨someChunk, by omega, missing.mpr every⟩, if_pos (congrArg _ (taken enough))]

theorem closed_raw_some_iff (state : TrialState) (msg : Message) (bytes : Bytes) :
    closedRaw state msg = some bytes ↔ RawCompletes state msg ∧ bytes = receivedRaw state msg :=
  complete_raw_some_iff (endFrame state msg) (closedLength state msg) bytes

theorem closed_raw_none_of_unpacked {state : TrialState} {msg : Message}
    (packs : RawCompletes state msg → JitterPacks state) (unpacked : ¬JitterPacks state) :
    closedRaw state msg = none := by
  by_contra complete
  obtain ⟨bytes, raw⟩ := Option.ne_none_iff_exists'.mp complete
  exact unpacked (packs ((closed_raw_some_iff state msg bytes).mp raw).1)

theorem closed_raw_ne_nil {state : TrialState} {msg : Message} {bytes : Bytes}
    (raw : closedRaw state msg = some bytes) : bytes ≠ [] := by
  obtain ⟨complete, rfl⟩ := (closed_raw_some_iff state msg bytes).mp raw
  intro empty
  have length := congrArg List.length empty
  rw [receivedRaw, List.length_take, List.length_nil] at length
  have someByte := complete.someByte
  have enough := complete.enough
  omega

/-- `ok` holds of the trial a RAW_END finalizes, if the datagram is one. -/
def OnRawEnd (ok : TrialState → Message → Prop) (collector : Collector) (rx : Rx) : Prop :=
  ∀ msg state, parseMessage rx.data = some msg → msg.msgType = aebTypeRawEnd →
    collector.states.lookup (rx.peer, (msg.trial : Int)) = some state → ok state msg

instance (ok : TrialState → Message → Prop) [∀ state msg, Decidable (ok state msg)]
    (collector : Collector) (rx : Rx) : Decidable (OnRawEnd ok collector rx) :=
  match parsed : parseMessage rx.data with
  | none => isTrue fun msg _ other => by simp [parsed] at other
  | some msg =>
      match known : collector.states.lookup (rx.peer, (msg.trial : Int)) with
      | none => isTrue fun other state same _ lookup => by
          rw [parsed] at same
          rw [← Option.some.inj same, known] at lookup
          cases lookup
      | some state =>
          decidable_of_iff (msg.msgType = aebTypeRawEnd → ok state msg) (by
            unfold OnRawEnd
            rw [parsed]
            constructor
            · intro held other otherState same rawEnd lookup
              obtain rfl := Option.some.inj same
              obtain rfl := Option.some.inj (known.symm.trans lookup)
              exact held rawEnd
            · intro held rawEnd
              exact held msg state rfl rawEnd known)

variable (sha256 : Bytes → Text)

/-- The two ways `finalize_trial` ends when a RAW_END calls it. -/
theorem finalize_closed_cases (state : TrialState) (msg : Message) (disk : Disk) :
    (∃ error, ¬JitterPacks state ∧
        finalizeTrial sha256 (endFrame state msg) disk =
          (writeRaw (endFrame state msg) (closedRaw state msg) disk, .error error)) ∨
      ∃ streams, JitterPacks state ∧ jitterStreams (endFrame state msg) = .ok streams ∧
        finalizeTrial sha256 (endFrame state msg) disk =
          (finishDisk sha256 (endFrame state msg) (closedRaw state msg) streams
            (writeRaw (endFrame state msg) (closedRaw state msg) disk),
            .ok (closedRaw state msg).isSome) := by
  have packs := jitter_packs_iff (endFrame state msg)
  rcases finalize_trial_cases sha256 (endFrame state msg) disk with
    ⟨unframed, _⟩ | ⟨rawLen, declared, outcome⟩
  · exact absurd unframed (Option.some_ne_none _)
  · have length : (closedLength state msg : Int) = rawLen := Option.some.inj declared
    subst length
    rcases outcome with ⟨error, packed, final⟩ | ⟨streams, packed, final⟩
    · left
      refine ⟨error, ?_, final⟩
      intro fits
      obtain ⟨streams, ok⟩ := packs.mp fits
      rw [packed] at ok
      cases ok
    · right
      exact ⟨streams, packs.mpr ⟨streams, packed⟩, packed, final⟩

variable (args : CollectorArgs) (host : Host)

theorem answer_hello_disk {collector : Collector} {rx : Rx} {msg : Message} {disk : Disk}
    {opened : Except PyError TrialState}
    (answer : answerHello args host collector rx msg = (disk, opened)) :
    ∃ csv, disk = { collector.disk with stimulusCsv := csv } := by
  have written : (answerHello args host collector rx msg).1 = disk := congrArg Prod.fst answer
  rw [← written]
  unfold answerHello sendStimulus
  cases startPacket args msg (args.nonce.getD msg.nonce) with
  | none => exact ⟨_, rfl⟩
  | some start =>
      dsimp only
      split_ifs
      · exact ⟨_, rfl⟩
      · rcases sendBursts args host rx.peer msg (args.nonce.getD msg.nonce)
          collector.captureCounter (stimulusBursts args msg).toNat 0 with ⟨rows, _ | error⟩
        · exact ⟨_, rfl⟩
        · exact ⟨_, rfl⟩
      · exact ⟨_, rfl⟩

theorem answer_hello_state {collector : Collector} {rx : Rx} {msg : Message} {disk : Disk}
    {state : TrialState} (answer : answerHello args host collector rx msg = (disk, .ok state)) :
    state = openedState args host rx.peer msg (args.nonce.getD msg.nonce) collector.captureCounter
      rx.now := by
  unfold answerHello sendStimulus at answer
  cases start : startPacket args msg (args.nonce.getD msg.nonce) with
  | none =>
      rw [start] at answer
      cases answer
  | some packet =>
      rw [start] at answer
      dsimp only at answer
      split_ifs at answer
      · cases congrArg Prod.snd answer
      · rcases bursts : sendBursts args host rx.peer msg (args.nonce.getD msg.nonce)
          collector.captureCounter (stimulusBursts args msg).toNat 0 with ⟨rows, _ | error⟩
        · rw [bursts] at answer
          exact (Except.ok.inj (congrArg Prod.snd answer)).symm
        · rw [bursts] at answer
          cases congrArg Prod.snd answer
      · cases congrArg Prod.snd answer

/-! ## The ledger -/

def Collector.ledger (collector : Collector) (old : Nat) : Ledger StateKey where
  pending := fun key => (collector.states.lookup key).map (·.captureId)
  next := collector.captureCounter
  closed := (collector.disk.trials.drop old).map (·.captureId)

section Pending

variable {collector : Collector} {old : Nat} {key : StateKey}

theorem pending_set_state (state : TrialState) :
    (fun other => ((collector.states.insert key state).lookup other).map (·.captureId)) =
      Function.update (collector.ledger old).pending key (some state.captureId) := by
  funext other
  by_cases same : other = key
  · subst same
    rw [AList.lookup_insert, Function.update_self]
    rfl
  · rw [AList.lookup_insert_ne same, Function.update_of_ne same]
    rfl

theorem pending_erase :
    (fun other => ((collector.states.erase key).lookup other).map (·.captureId)) =
      Function.update (collector.ledger old).pending key none := by
  funext other
  by_cases same : other = key
  · subst same
    rw [AList.lookup_erase, Function.update_self]
    rfl
  · rw [AList.lookup_erase_ne same, Function.update_of_ne same]
    rfl

theorem pending_of_known {state : TrialState} (known : collector.states.lookup key = some state) :
    (collector.ledger old).pending key = some state.captureId :=
  congrArg (Option.map _) known

theorem pending_kept {state stored : TrialState} (known : collector.states.lookup key = some state)
    (same : stored.captureId = state.captureId) :
    (fun other => ((collector.states.insert key stored).lookup other).map (·.captureId)) =
      (collector.ledger old).pending := by
  rw [@pending_set_state collector old, same, ← @pending_of_known collector old key state known,
    Function.update_eq_self]

end Pending

theorem store_message_capture_id (state : TrialState) (msg : Message) :
    (storeMessage state msg).captureId = state.captureId := by
  unfold storeMessage
  split_ifs <;> rfl

theorem raised_trials (state : TrialState) (msg : Message) (disk : Disk) {after : Disk}
    {error : PyError}
    (final : finalizeTrial sha256 (endFrame state msg) disk = (after, .error error)) :
    after = writeRaw (endFrame state msg) (closedRaw state msg) disk ∧ ¬JitterPacks state := by
  rcases finalize_closed_cases sha256 state msg disk with
    ⟨_, unpacked, raised⟩ | ⟨streams, _, _, returned⟩
  · rw [raised] at final
    exact ⟨(congrArg Prod.fst final).symm, unpacked⟩
  · rw [returned] at final
    cases congrArg Prod.snd final

theorem returned_disk (state : TrialState) (msg : Message) (disk : Disk) {after : Disk}
    {complete : Bool}
    (final : finalizeTrial sha256 (endFrame state msg) disk = (after, .ok complete)) :
    ∃ streams, after = finishDisk sha256 (endFrame state msg) (closedRaw state msg) streams
        (writeRaw (endFrame state msg) (closedRaw state msg) disk) ∧
      complete = (closedRaw state msg).isSome ∧ jitterStreams (endFrame state msg) = .ok streams := by
  rcases finalize_closed_cases sha256 state msg disk with
    ⟨error, _, raised⟩ | ⟨streams, _, packed, returned⟩
  · rw [raised] at final
    cases congrArg Prod.snd final
  · rw [returned] at final
    exact ⟨streams, (congrArg Prod.fst final).symm,
      (Except.ok.inj (congrArg Prod.snd final)).symm, packed⟩

def NotHello (rx : Rx) : Prop := ∀ msg, parseMessage rx.data = some msg → msg.msgType ≠ aebTypeHello

theorem not_hello_of_line {rx : Rx} {result : Dict Text Text}
    (line : parseResultLine rx.data = some result) : NotHello rx := by
  intro msg parsed
  rw [parse_result_line_of_message parsed] at line
  cases line

theorem not_hello_of_type {rx : Rx} {msg : Message} (parsed : parseMessage rx.data = some msg)
    (other : msg.msgType ≠ aebTypeHello) : NotHello rx := by
  intro same again
  rwa [← Option.some.inj (parsed.symm.trans again)]

/-- What a datagram does to the ledger, and which datagrams do it. -/
inductive LedgerChange (old : Nat) (collector : Collector) (rx : Rx) : Ledger StateKey → Prop where
  | kept (notHello : NotHello rx) : LedgerChange old collector rx (collector.ledger old)
  | skipped {msg : Message} {error : PyError} (parsed : parseMessage rx.data = some msg)
      (hello : msg.msgType = aebTypeHello)
      (failed : (answerHello args host collector rx msg).2 = .error error) :
      LedgerChange old collector rx
        { collector.ledger old with next := (collector.ledger old).next + 1 }
  | opened {msg : Message} {state : TrialState} (parsed : parseMessage rx.data = some msg)
      (hello : msg.msgType = aebTypeHello)
      (answered : (answerHello args host collector rx msg).2 = .ok state) :
      LedgerChange old collector rx
        ⟨Function.update (collector.ledger old).pending (rx.peer, (msg.trial : Int))
            (some (collector.ledger old).next),
          (collector.ledger old).next + 1, (collector.ledger old).closed⟩
  | closed {key : StateKey} {number : Nat} (notHello : NotHello rx)
      (held : (collector.ledger old).pending key = some number) :
      LedgerChange old collector rx
        ⟨Function.update (collector.ledger old).pending key none, (collector.ledger old).next,
          (collector.ledger old).closed ++ [number]⟩

variable {args host} in
theorem LedgerChange.reach {old : Nat} {collector after : Collector} {rx : Rx}
    {target : Ledger StateKey} (change : LedgerChange args host old collector rx target)
    (pending : (fun key => (after.states.lookup key).map (·.captureId)) = target.pending)
    (next : after.captureCounter = target.next)
    (closed : (after.disk.trials.drop old).map (·.captureId) = target.closed) :
    LedgerChange args host old collector rx (after.ledger old) := by
  have same : after.ledger old = target := by
    unfold Collector.ledger
    rw [pending, next, closed]
  rwa [same]

theorem handle_datagram_change {collector : Collector} {old : Nat} (rx : Rx)
    (within : old ≤ collector.disk.trials.length) :
    LedgerChange args host old collector rx
      ((handleDatagram args host collector rx).1.ledger old) := by
  have outcome := handle_datagram_handled args host collector rx
  have notHelloEnd {msg : Message} (rawEnd : msg.msgType = aebTypeRawEnd) :
      msg.msgType ≠ aebTypeHello := by
    rw [rawEnd]
    decide
  generalize handleDatagram args host collector rx = after at outcome ⊢
  cases outcome with
  | ignored notHello => exact .kept notHello
  | badResult line => exact .kept (not_hello_of_line line)
  | noted line parsed known =>
      exact .reach (.kept (not_hello_of_line line)) (pending_kept known rfl) rfl rfl
  | @helloFailed msg disk error parsed hello answer =>
      obtain ⟨csv, rfl⟩ := answer_hello_disk args host answer
      exact .reach (.skipped parsed hello (congrArg Prod.snd answer)) rfl rfl rfl
  | @opened msg disk state parsed hello answer =>
      obtain ⟨csv, rfl⟩ := answer_hello_disk args host answer
      have issued : state.captureId = collector.captureCounter :=
        congrArg TrialState.captureId (answer_hello_state args host answer)
      have pending := @pending_set_state collector old (rx.peer, (msg.trial : Int)) state
      rw [issued] at pending
      exact .reach (.opened parsed hello (congrArg Prod.snd answer)) pending rfl rfl
  | stored parsed notHello notEnd known =>
      exact .reach (.kept (not_hello_of_type parsed notHello))
        (pending_kept known (store_message_capture_id _ _)) rfl rfl
  | @endRaised msg state disk error parsed rawEnd known final =>
      have trials : disk.trials = collector.disk.trials := by
        rw [(raised_trials host.sha256 _ _ _ final).1, write_raw_trials]
        rfl
      exact .reach (.kept (not_hello_of_type parsed (notHelloEnd rawEnd)))
        (pending_kept known rfl) rfl
        (congrArg (fun rows => (rows.drop old).map (·.captureId)) trials)
  | @ended msg state disk complete parsed rawEnd known final =>
      obtain ⟨streams, written, _⟩ := returned_disk host.sha256 _ _ _ final
      have rows : (disk.trials.drop old).map (·.captureId) =
          (collector.ledger old).closed ++ [state.captureId] := by
        have room : old ≤ (collector.received rx).disk.trials.length := within
        rw [written, finish_disk_trials, write_raw_trials, List.drop_append_of_le_length room,
          List.map_append]
        rfl
      exact .reach (.closed (not_hello_of_type parsed (notHelloEnd rawEnd)) (pending_of_known known))
        pending_erase rfl rows

theorem handle_datagram_ledger {collector : Collector} {old : Nat} (rx : Rx)
    (within : old ≤ collector.disk.trials.length) :
    Ledger.Step (collector.ledger old) ((handleDatagram args host collector rx).1.ledger old) := by
  have change := handle_datagram_change args host rx within
  generalize (handleDatagram args host collector rx).1.ledger old = after at change ⊢
  cases change with
  | kept => exact .keep _
  | skipped => exact .skip _
  | opened => exact .opening _ _
  | closed notHello held => exact .closing _ held

theorem counter_of_hello (collector : Collector) {rx : Rx} {msg : Message}
    (parsed : parseMessage rx.data = some msg) (hello : msg.msgType = aebTypeHello) :
    (handleDatagram args host collector rx).1.captureCounter = collector.captureCounter + 1 := by
  rw [handle_datagram_message args host collector parsed, handleMessage, if_pos hello, handleHello]
  dsimp only
  rcases sendStimulus args host rx.peer msg (args.nonce.getD msg.nonce) collector.captureCounter
    rx.now collector.disk with ⟨disk, error | state⟩
  · rfl
  · rfl

theorem counter_of_other (collector : Collector) {rx : Rx}
    (other : ∀ msg, parseMessage rx.data = some msg → msg.msgType ≠ aebTypeHello) :
    (handleDatagram args host collector rx).1.captureCounter = collector.captureCounter := by
  have outcome := handle_datagram_handled args host collector rx
  generalize handleDatagram args host collector rx = after at outcome ⊢
  cases outcome with
  | ignored => rfl
  | badResult => rfl
  | noted => rfl
  | helloFailed parsed hello answer => exact absurd hello (other _ parsed)
  | opened parsed hello answer => exact absurd hello (other _ parsed)
  | stored => rfl
  | endRaised => rfl
  | ended => rfl

/-! ## The output directory -/

inductive DiskStep (collector : Collector) (rx : Rx) : Disk → Prop where
  | kept (csv : Nat → Option (List StimulusRow)) :
      DiskStep collector rx { collector.disk with stimulusCsv := csv }
  | raised {msg : Message} {state : TrialState} (parsed : parseMessage rx.data = some msg)
      (rawEnd : msg.msgType = aebTypeRawEnd)
      (known : collector.states.lookup (rx.peer, (msg.trial : Int)) = some state)
      (unpacked : ¬JitterPacks state) :
      DiskStep collector rx (writeRaw (endFrame state msg) (closedRaw state msg) collector.disk)
  | recorded {msg : Message} {state : TrialState} {streams : JitterStreams}
      (parsed : parseMessage rx.data = some msg) (rawEnd : msg.msgType = aebTypeRawEnd)
      (known : collector.states.lookup (rx.peer, (msg.trial : Int)) = some state)
      (packed : jitterStreams (endFrame state msg) = .ok streams) :
      DiskStep collector rx (finishDisk sha256 (endFrame state msg) (closedRaw state msg) streams
        (writeRaw (endFrame state msg) (closedRaw state msg) collector.disk))

theorem handle_datagram_disk (collector : Collector) (rx : Rx) :
    DiskStep host.sha256 collector rx (handleDatagram args host collector rx).1.disk := by
  have outcome := handle_datagram_handled args host collector rx
  generalize handleDatagram args host collector rx = after at outcome ⊢
  cases outcome with
  | ignored => exact .kept collector.disk.stimulusCsv
  | badResult => exact .kept collector.disk.stimulusCsv
  | noted => exact .kept collector.disk.stimulusCsv
  | helloFailed parsed hello answer =>
      obtain ⟨csv, rfl⟩ := answer_hello_disk args host answer
      exact .kept csv
  | opened parsed hello answer =>
      obtain ⟨csv, rfl⟩ := answer_hello_disk args host answer
      exact .kept csv
  | stored => exact .kept collector.disk.stimulusCsv
  | endRaised parsed rawEnd known final =>
      obtain ⟨rfl, unpacked⟩ := raised_trials host.sha256 _ _ _ final
      exact .raised parsed rawEnd known unpacked
  | ended parsed rawEnd known final =>
      obtain ⟨streams, rfl, _, packed⟩ := returned_disk host.sha256 _ _ _ final
      exact .recorded parsed rawEnd known packed

theorem DiskStep.trials_grow {collector : Collector} {rx : Rx} {disk : Disk}
    (step : DiskStep sha256 collector rx disk) : ∃ rows, disk.trials = collector.disk.trials ++ rows := by
  cases step with
  | kept => exact ⟨[], (List.append_nil _).symm⟩
  | raised => exact ⟨[], by rw [write_raw_trials, List.append_nil]⟩
  | recorded => exact ⟨_, by rw [finish_disk_trials, write_raw_trials]⟩

/-- The rows behind the first `old` ones and the trial states share one numbering. -/
structure NumberedSince (old : Nat) (collector : Collector) : Prop where
  within : old ≤ collector.disk.trials.length
  sound : (collector.ledger old).Sound

theorem NumberedSince.handle {old : Nat} {collector : Collector}
    (numbered : NumberedSince old collector) (rx : Rx) :
    NumberedSince old (handleDatagram args host collector rx).1 := by
  constructor
  · obtain ⟨rows, grown⟩ := (handle_datagram_disk args host collector rx).trials_grow
    rw [grown, List.length_append]
    exact Nat.le_add_right_of_le numbered.within
  · exact (handle_datagram_ledger args host rx numbered.within).sound numbered.sound

theorem numbered_since_start (startTime : Int) (disk : Disk) :
    NumberedSince (prepareOutputs args.append disk).trials.length
      (startCollector args startTime disk) := by
  have empty : ((startCollector args startTime disk).ledger
      (prepareOutputs args.append disk).trials.length).closed = [] := by
    unfold Collector.ledger startCollector
    dsimp only
    rw [List.drop_length]
    rfl
  constructor
  · exact le_refl _
  · constructor
    · intro key number held
      cases held
    · intro key other number held
      cases held
    · intro number member
      rw [empty] at member
      cases member
    · intro number member
      rw [empty] at member
      cases member
    · rw [empty]
      exact List.nodup_nil

theorem NumberedSince.fresh {old : Nat} {collector : Collector} (numbered : NumberedSince old collector)
    {key : StateKey} {state : TrialState} (known : collector.states.lookup key = some state)
    {row : TrialRow} (member : row ∈ collector.disk.trials.drop old) :
    row.captureId ≠ state.captureId := by
  intro same
  have closed : row.captureId ∈ (collector.ledger old).closed := List.mem_map_of_mem member
  have pending := @pending_of_known collector old key state known
  rw [← same] at pending
  exact numbered.sound.closedGone row.captureId closed key pending

theorem opener_kept {ι : Type} {openers : List ι} {captureId : Nat} {boot : ι} (more : List ι)
    (opened : openers[captureId]? = some boot) : (openers ++ more)[captureId]? = some boot := by
  obtain ⟨inside, _⟩ := List.getElem?_eq_some_iff.mp opened
  rw [List.getElem?_append_left inside]
  exact opened

end BootEntropy.Aeb
