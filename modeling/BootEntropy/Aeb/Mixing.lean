import BootEntropy.Aeb.Streams

/-!
# Uploads of several boots

Boots that reuse one source address and trial number, with their datagrams in any
order. `openers` remembers which boot sent the HELLO of each capture id.
-/

namespace BootEntropy.Aeb

open BootEntropy.Lib

set_option autoImplicit false

/-- One boot: the HELLO it sends and the upload behind it. -/
structure Boot (cfg : Config) where
  peer : Peer
  hello : AebMsg
  trial : Trial cfg
  helloType : hello.type.toNat = aebTypeHello
  sameTrial : hello.trialId = trial.start.trialId

section Datagrams

variable {cfg : Config} {ι : Type}

inductive BootDatagram (boots : ι → Boot cfg) where
  | hello (boot : ι)
  | part (boot : ι) (piece : { piece : Part // piece ∈ parts (boots boot).trial })
  | result (boot : ι) (fields : Bytes)

variable {boots : ι → Boot cfg}

namespace BootDatagram

def rx (now : Int) : BootDatagram boots → Rx
  | .hello boot => ⟨buildMsg (boots boot).hello, (boots boot).peer, now⟩
  | .part boot piece => ⟨datagram (partMsg (boots boot).trial piece.val), (boots boot).peer, now⟩
  | .result boot fields => ⟨asciiBytes "[AEB_RESULT]" ++ fields, (boots boot).peer, now⟩

def opener : BootDatagram boots → Option ι
  | .hello boot => some boot
  | .part _ _ => none
  | .result _ _ => none

theorem hello_parsed (boot : ι) (now : Int) :
    parseMessage ((BootDatagram.hello boot : BootDatagram boots).rx now).data =
      some ((boots boot).hello.received []) := by
  have data : ((BootDatagram.hello boot : BootDatagram boots).rx now).data =
      buildMsg (boots boot).hello ++ [] := by
    have cut := take_build_msg (boots boot).hello [] payloadLimit
    rw [List.append_nil, List.take_nil, List.append_nil] at cut
    rw [List.append_nil]
    exact cut
  rw [data, parse_message_build_msg]

theorem part_parsed (boot : ι) (piece : { piece : Part // piece ∈ parts (boots boot).trial })
    (now : Int) :
    parseMessage ((BootDatagram.part boot piece : BootDatagram boots).rx now).data =
      some (receivedPart (boots boot).trial piece.val) :=
  parse_message_part (boots boot).trial piece.property rfl

theorem result_parsed (boot : ι) (fields : Bytes) (now : Int) :
    parseMessage ((BootDatagram.result boot fields : BootDatagram boots).rx now).data = none := by
  by_contra parses
  obtain ⟨msg, parsed⟩ := Option.ne_none_iff_exists'.mp parses
  obtain ⟨rest, head⟩ := parse_message_head parsed
  have first : ((BootDatagram.result boot fields : BootDatagram boots).rx now).data.head? =
      some 0x5B := rfl
  rw [head] at first
  cases Option.some.inj first

theorem opener_of_hello {sent : BootDatagram boots} {now : Int} {msg : Message}
    (parsed : parseMessage (sent.rx now).data = some msg) :
    msg.msgType = aebTypeHello ↔ sent.opener.isSome = true := by
  cases sent with
  | hello boot =>
      rw [hello_parsed] at parsed
      rw [← Option.some.inj parsed]
      exact iff_of_true (boots boot).helloType rfl
  | part boot piece =>
      rw [part_parsed] at parsed
      rw [← Option.some.inj parsed, received_part_type]
      exact iff_of_false (part_type_ne_hello piece.val) Bool.false_ne_true
  | result boot fields =>
      rw [result_parsed] at parsed
      cases parsed

end BootDatagram

inductive BootEvent (boots : ι → Boot cfg) where
  | silence (now : Int)
  | sent (datagram : BootDatagram boots) (now : Int)

def BootEvent.event : BootEvent boots → Event
  | .silence now => .silence now
  | .sent datagram now => .datagram (datagram.rx now)

/-! ## The collector with the openers of its captures -/

structure Tracked (ι : Type) where
  collector : Collector
  openers : List ι

variable (args : CollectorArgs) (host : Host)

def openersAfter (tracked : Tracked ι) : BootEvent boots → List ι
  | .silence _ => tracked.openers
  | .sent datagram _ =>
      if args.trials ≤ tracked.collector.completed then tracked.openers
      else tracked.openers ++ datagram.opener.toList

def trackedStep (tracked : Tracked ι) (input : BootEvent boots) : Next (Tracked ι) LoopEnd :=
  (collectorStep args host tracked.collector input.event).map
    (⟨·, openersAfter args tracked input⟩)

def trackedStart (startTime : Int) (disk : Disk) : Tracked ι :=
  ⟨startCollector args startTime disk, []⟩

def trackedMain (startTime : Int) (inputs : List (BootEvent boots)) (disk : Disk) : Tracked ι :=
  (run (trackedStep args host) (trackedStart args startTime disk) inputs).1

/-- The openers are a ghost: the collector does not see them. -/
theorem tracked_main_collector (startTime : Int) (inputs : List (BootEvent boots)) (disk : Disk) :
    (trackedMain args host startTime inputs disk).collector =
      (collectorMain args host startTime (inputs.map BootEvent.event) disk).1 := by
  have projected := @run_project _ _ _ (collectorStep args host) _ _
    (trackedStep args host) Tracked.collector BootEvent.event
    (fun tracked input => by
      unfold trackedStep
      cases collectorStep args host tracked.collector input.event <;> rfl)
    inputs (trackedStart args startTime disk)
  rw [collectorMain, collector_loop_eq_run]
  exact (congrArg Prod.fst projected).symm

/-! ## Where chunks and rows come from -/

/-- The trial a chunk of `boot` would go into was opened by `boot`. -/
def OpenedBy (boots : ι → Boot cfg) (tracked : Tracked ι) (boot : ι) : Prop :=
  ∀ state, tracked.collector.states.lookup (uploadKey (boots boot).trial (boots boot).peer) =
    some state → tracked.openers[state.captureId]? = some boot

instance [DecidableEq ι] (tracked : Tracked ι) (boot : ι) :
    Decidable (OpenedBy boots tracked boot) :=
  inferInstanceAs (Decidable (∀ state ∈ tracked.collector.states.lookup _, _))

/-- A RAW_CHUNK that is processed goes into a trial that its own boot opened. -/
def OwnChunks (tracked : Tracked ι) : BootEvent boots → Prop
  | .sent (.part boot ⟨.rawChunk _, _⟩) _ =>
      (tracked.collector.completed : Int) < args.trials → OpenedBy boots tracked boot
  | _ => True

instance [DecidableEq ι] (tracked : Tracked ι) (input : BootEvent boots) :
    Decidable (OwnChunks args tracked input) :=
  match input with
  | .sent (.part boot ⟨.rawChunk _, _⟩) _ =>
      inferInstanceAs (Decidable ((tracked.collector.completed : Int) < args.trials →
        OpenedBy boots tracked boot))
  | .sent (.part _ ⟨.rawBegin, _⟩) _ => isTrue trivial
  | .sent (.part _ ⟨.jitterChunk _, _⟩) _ => isTrue trivial
  | .sent (.part _ ⟨.rawEnd, _⟩) _ => isTrue trivial
  | .sent (.hello _) _ => isTrue trivial
  | .sent (.result _ _) _ => isTrue trivial
  | .silence _ => isTrue trivial

/-- Every complete row behind the first `old` ones cites bytes of the upload whose
HELLO got its capture id. -/
def NotMixed (boots : ι → Boot cfg) (old : Nat) (openers : List ι) (disk : Disk) : Prop :=
  ∀ row ∈ disk.trials.drop old, row.complete = true →
    ∃ boot bytes, openers[row.captureId]? = some boot ∧
      row.rawFile.bind disk.files = some bytes ∧ bytes.Sublist (boots boot).trial.raw

/-- A trial holds chunks of the boot that opened it only. -/
def OwnTrial (boots : ι → Boot cfg) (openers : List ι) (state : TrialState) : Prop :=
  ∃ boot, openers[state.captureId]? = some boot ∧
    ∀ index, (chunkAt state.rawChunks index).Sublist (rawPart (boots boot).trial index)

structure Attributed (boots : ι → Boot cfg) (old : Nat) (tracked : Tracked ι) : Prop where
  numbered : NumberedSince old tracked.collector
  issued : tracked.openers.length = tracked.collector.captureCounter
  trials : ∀ key state, tracked.collector.states.lookup key = some state →
    OwnTrial boots tracked.openers state
  named : ∀ row ∈ tracked.collector.disk.trials.drop old, row.complete = true →
    row.rawFile = some (.raw row.captureId)
  rows : NotMixed boots old tracked.openers tracked.collector.disk

theorem OwnTrial.more {openers : List ι} {state : TrialState} (own : OwnTrial boots openers state)
    (more : List ι) : OwnTrial boots (openers ++ more) state := by
  obtain ⟨boot, opened, chunks⟩ := own
  exact ⟨boot, opener_kept more opened, chunks⟩

theorem OwnTrial.congr {openers : List ι} {state other : TrialState}
    (own : OwnTrial boots openers state) (sameId : other.captureId = state.captureId)
    (sameChunks : other.rawChunks = state.rawChunks) : OwnTrial boots openers other := by
  unfold OwnTrial
  rw [sameId, sameChunks]
  exact own

theorem forall_insert {property : TrialState → Prop} {states : Dict StateKey TrialState}
    {key : StateKey} {new : TrialState}
    (all : ∀ other state, states.lookup other = some state → property state) (holds : property new) :
    ∀ other state, (states.insert key new).lookup other = some state → property state := by
  intro other state found
  by_cases same : other = key
  · rw [same, AList.lookup_insert] at found
    rw [← Option.some.inj found]
    exact holds
  · rw [AList.lookup_insert_ne same] at found
    exact all other state found

theorem forall_erase {property : TrialState → Prop} {states : Dict StateKey TrialState}
    {key : StateKey} (all : ∀ other state, states.lookup other = some state → property state) :
    ∀ other state, (states.erase key).lookup other = some state → property state := by
  intro other state found
  by_cases same : other = key
  · rw [same, AList.lookup_erase] at found
    cases found
  · rw [AList.lookup_erase_ne same] at found
    exact all other state found

theorem flat_map_sublist {part held : Nat → Bytes} (each : ∀ index, (held index).Sublist (part index))
    (indices : List Nat) : (indices.flatMap held).Sublist (indices.flatMap part) := by
  induction indices with
  | nil => exact List.Sublist.refl []
  | cons index indices ih =>
      rw [List.flatMap_cons, List.flatMap_cons]
      exact (each index).append ih

theorem received_raw_sublist {trial : Trial cfg} {state : TrialState} (msg : Message)
    (own : ∀ index, (chunkAt state.rawChunks index).Sublist (rawPart trial index)) :
    (receivedRaw state msg).Sublist trial.raw := by
  have joined := flat_map_sublist own (List.range (state.rawChunksExpected.getD msg.seqOrCount))
  have parts : (List.range (state.rawChunksExpected.getD msg.seqOrCount)).flatMap (rawPart trial) =
      trial.raw.take (state.rawChunksExpected.getD msg.seqOrCount * cfg.rawChunkBytes) :=
    flat_map_chunk_take cfg.rawChunkBytes trial.raw _
  rw [parts] at joined
  exact (List.take_sublist _ _).trans (joined.trans (List.take_sublist _ _))

variable {args host}

theorem OwnTrial.store {openers : List ι} {state : TrialState} (own : OwnTrial boots openers state)
    {boot : ι} (part : Part)
    (opened : ∀ index, part = .rawChunk index → openers[state.captureId]? = some boot) :
    OwnTrial boots openers (storeMessage state (receivedPart (boots boot).trial part)) := by
  cases part with
  | rawBegin => exact own.congr rfl rfl
  | jitterChunk key =>
      rw [store_jitter_chunk]
      exact own.congr rfl rfl
  | rawEnd => exact own.congr rfl rfl
  | rawChunk key =>
      rw [store_raw_chunk]
      obtain ⟨other, same, chunks⟩ := own
      obtain rfl : other = boot := Option.some.inj (same.symm.trans (opened key rfl))
      refine ⟨other, same, ?_⟩
      intro index
      unfold chunkAt
      dsimp only
      rw [lookup_insert_if]
      split_ifs with new
      · rw [new]
        exact List.take_sublist _ _
      · exact chunks index

theorem OwnTrial.opened {openers : List ι} {collector : Collector} {rx : Rx} {msg : Message}
    {disk : Disk} {state : TrialState} (issued : openers.length = collector.captureCounter) (boot : ι)
    (answer : answerHello args host collector rx msg = (disk, .ok state)) :
    OwnTrial boots (openers ++ [boot]) state := by
  rw [answer_hello_state args host answer]
  refine ⟨boot, ?_, ?_⟩
  · exact issued ▸ List.getElem?_concat_length
  · intro index
    exact List.nil_sublist _

theorem Attributed.trials_after {old : Nat} {tracked : Tracked ι}
    (attributed : Attributed boots old tracked) {sent : BootDatagram boots} {now : Int}
    (running : (tracked.collector.completed : Int) < args.trials)
    (own : OwnChunks args tracked (.sent sent now)) :
    ∀ key state, (handleDatagram args host tracked.collector (sent.rx now)).1.states.lookup key =
      some state → OwnTrial boots (tracked.openers ++ sent.opener.toList) state := by
  have outcome := handle_datagram_handled args host tracked.collector (sent.rx now)
  have before : ∀ key state, tracked.collector.states.lookup key = some state →
      OwnTrial boots (tracked.openers ++ sent.opener.toList) state :=
    fun key state known => (attributed.trials key state known).more _
  generalize handleDatagram args host tracked.collector (sent.rx now) = after at outcome ⊢
  cases outcome with
  | ignored => exact before
  | badResult => exact before
  | noted line parsed known => exact forall_insert before ((before _ _ known).congr rfl rfl)
  | helloFailed => exact before
  | opened parsed hello answer =>
      apply forall_insert before
      obtain ⟨boot, opener⟩ := Option.isSome_iff_exists.mp
        ((BootDatagram.opener_of_hello parsed).mp hello)
      rw [opener]
      exact OwnTrial.opened attributed.issued boot answer
  | @stored msg state parsed notHello notEnd known =>
      apply forall_insert before
      apply OwnTrial.more
      cases sent with
      | hello boot => exact absurd ((BootDatagram.opener_of_hello parsed).mpr rfl) notHello
      | result boot fields =>
          rw [BootDatagram.result_parsed] at parsed
          cases parsed
      | part boot piece =>
          rw [BootDatagram.part_parsed] at parsed
          obtain rfl := Option.some.inj parsed
          apply (attributed.trials _ _ known).store
          intro index rawChunk
          obtain ⟨piece, member⟩ := piece
          subst rawChunk
          exact own running state known
  | endRaised parsed rawEnd known final =>
      exact forall_insert before ((before _ _ known).congr rfl rfl)
  | ended parsed rawEnd known final => exact forall_erase before

variable (args host) in
theorem Attributed.rows_after {old : Nat} {tracked : Tracked ι}
    (attributed : Attributed boots old tracked) (rx : Rx) :
    (∀ row ∈ (handleDatagram args host tracked.collector rx).1.disk.trials.drop old,
      row.complete = true → row.rawFile = some (.raw row.captureId)) ∧
    NotMixed boots old tracked.openers (handleDatagram args host tracked.collector rx).1.disk := by
  have step := handle_datagram_disk args host tracked.collector rx
  generalize (handleDatagram args host tracked.collector rx).1.disk = disk at step ⊢
  -- A file of another capture id stays, and no row has the id of an open trial.
  have kept {after : Disk} {state : TrialState} {key : StateKey}
      (known : tracked.collector.states.lookup key = some state)
      (files : ∀ file : OutFile, file.captureId ≠ state.captureId →
        after.files file = tracked.collector.disk.files file)
      {row : TrialRow} (member : row ∈ tracked.collector.disk.trials.drop old)
      (complete : row.complete = true) :
      ∃ boot bytes, tracked.openers[row.captureId]? = some boot ∧
        row.rawFile.bind after.files = some bytes ∧ bytes.Sublist (boots boot).trial.raw := by
    obtain ⟨boot, bytes, opener, content, own⟩ := attributed.rows row member complete
    refine ⟨boot, bytes, opener, ?_, own⟩
    rw [attributed.named row member complete] at content ⊢
    exact (files (.raw row.captureId) (attributed.numbered.fresh known member)).trans content
  cases step with
  | kept csv => exact ⟨attributed.named, attributed.rows⟩
  | @raised msg state parsed rawEnd known unpacked =>
      unfold NotMixed
      rw [write_raw_trials]
      exact ⟨attributed.named, fun row member complete => kept known
        (fun file other => write_raw_files_other _ (endFrame state msg) _ other) member complete⟩
  | @recorded msg state streams parsed rawEnd known packed =>
      have rows : (recordedDisk host.sha256 tracked.collector.disk state msg streams).trials.drop old =
          tracked.collector.disk.trials.drop old ++ [recordedRow host.sha256 state msg streams] := by
        rw [recorded_trials, List.drop_append_of_le_length attributed.numbered.within]
      unfold NotMixed
      rw [← recordedDisk, rows]
      constructor
      · intro row member complete
        rcases List.mem_append.mp member with past | new
        · exact attributed.named row past complete
        · rw [List.mem_singleton] at new
          subst new
          have some : (closedRaw state msg).isSome = true := complete
          unfold recordedRow trialRow
          rw [if_pos some]
      · intro row member complete
        rcases List.mem_append.mp member with past | new
        · exact kept known (fun file other => recorded_files_other host.sha256 other) past complete
        · rw [List.mem_singleton] at new
          subst new
          obtain ⟨bytes, raw⟩ := Option.isSome_iff_exists.mp complete
          obtain ⟨_, rfl⟩ := (closed_raw_some_iff state msg bytes).mp raw
          obtain ⟨boot, opener, chunks⟩ := attributed.trials _ state known
          exact ⟨boot, _, opener, recorded_row_raw_file host.sha256 raw,
            received_raw_sublist msg chunks⟩

theorem NotMixed.more {old : Nat} {openers : List ι} {disk : Disk}
    (apart : NotMixed boots old openers disk) (more : List ι) :
    NotMixed boots old (openers ++ more) disk := by
  intro row member complete
  obtain ⟨boot, bytes, opener, content, own⟩ := apart row member complete
  exact ⟨boot, bytes, opener_kept more opener, content, own⟩

theorem counter_after (collector : Collector) (sent : BootDatagram boots) (now : Int) :
    (handleDatagram args host collector (sent.rx now)).1.captureCounter =
      collector.captureCounter + sent.opener.toList.length := by
  have other (closed : sent.opener = none) (msg : Message)
      (parsed : parseMessage (sent.rx now).data = some msg) : msg.msgType ≠ aebTypeHello := by
    intro hello
    have opener := (BootDatagram.opener_of_hello parsed).mp hello
    rw [closed] at opener
    cases opener
  cases sent with
  | hello boot =>
      exact counter_of_hello args host collector (BootDatagram.hello_parsed boot now)
        (boots boot).helloType
  | part boot piece => exact counter_of_other args host collector (other rfl)
  | result boot fields => exact counter_of_other args host collector (other rfl)

theorem Attributed.step {old : Nat} {tracked : Tracked ι} {input : BootEvent boots}
    (attributed : Attributed boots old tracked) (own : OwnChunks args tracked input) :
    Attributed boots old (trackedStep args host tracked input).state := by
  unfold trackedStep collectorStep
  by_cases finished : args.trials ≤ tracked.collector.completed
  · rw [if_pos finished]
    cases input with
    | silence now => exact attributed
    | sent sent now =>
        unfold openersAfter
        dsimp only
        rw [if_pos finished]
        exact attributed
  · rw [if_neg finished]
    cases input with
    | silence now =>
        unfold BootEvent.event
        dsimp only
        split_ifs
        · exact attributed
        · exact attributed
    | sent sent now =>
        have rows := attributed.rows_after args host (sent.rx now)
        have after : Attributed boots old
            ⟨(handleDatagram args host tracked.collector (sent.rx now)).1,
              tracked.openers ++ sent.opener.toList⟩ :=
          { numbered := attributed.numbered.handle args host (sent.rx now)
            issued := by rw [List.length_append, attributed.issued, counter_after]
            trials := attributed.trials_after (Int.not_le.mp finished) own
            named := rows.1
            rows := rows.2.more _ }
        unfold openersAfter BootEvent.event
        dsimp only
        rw [if_neg finished]
        rcases taken : handleDatagram args host tracked.collector (sent.rx now) with
          ⟨collector, _ | error⟩
        · rw [taken] at after
          exact after
        · rw [taken] at after
          exact after

theorem attributed_start (startTime : Int) (disk : Disk) :
    Attributed boots (prepareOutputs args.append disk).trials.length
      (trackedStart args startTime disk) := by
  have none : ∀ row, row ∉ (prepareOutputs args.append disk).trials.drop
      (prepareOutputs args.append disk).trials.length := by
    rw [List.drop_length]
    exact fun _ => List.not_mem_nil
  constructor
  · exact numbered_since_start args startTime disk
  · rfl
  · intro key state known
    cases known
  · exact fun row member => absurd member (none row)
  · exact fun row member => absurd member (none row)

/-- In a run whose chunks all meet the trial their own boot opened, no upload is
mixed with another. -/
theorem uploads_not_mixed (startTime : Int) (disk : Disk) (inputs : List (BootEvent boots))
    (own : Guarded (trackedStep args host) (OwnChunks args) (trackedStart args startTime disk)
      inputs) :
    NotMixed boots (prepareOutputs args.append disk).trials.length
      (trackedMain args host startTime inputs disk).openers
      (collectorMain args host startTime (inputs.map BootEvent.event) disk).1.disk := by
  have attributed := run_invariant (fun _ _ attributed own => Attributed.step attributed own) inputs
    _ (attributed_start startTime disk) own
  rw [← tracked_main_collector]
  exact attributed.rows

end Datagrams

/-! ## Two small boots -/

def tinyBoot (nonce : Block 16) (trial : Trial tinyConfig) (same : 0 = trial.start.trialId) :
    Boot tinyConfig :=
  ⟨tinyPeer, ⟨3, 0, 1, 1000, 8, nonce⟩, trial, rfl, same⟩

def twoBoots (boot : Bool) : Boot tinyConfig :=
  if boot then tinyBoot ⟨List.replicate 16 1, rfl⟩ otherTrial rfl
  else tinyBoot (zeroBlock 16) tinyTrial rfl

def sends (boot : Bool) (part : Part) (member : part ∈ parts (twoBoots boot).trial := by decide) :
    BootEvent twoBoots :=
  .sent (.part boot ⟨part, member⟩) 0

/-- The boots one after the other, with a late chunk between them. -/
theorem boots_in_turn_not_mixed :
    NotMixed twoBoots (prepareOutputs defaultCollectorArgs.append emptyDisk).trials.length
      (trackedMain defaultCollectorArgs quietHost 0
        [.sent (.hello false) 0, sends false (.rawChunk 1), sends false (.rawChunk 0),
          sends false .rawEnd, sends false (.rawChunk 0), .sent (.hello true) 0,
          sends true (.rawChunk 0), sends true (.rawChunk 1), sends true .rawEnd] emptyDisk).openers
      (collectorMain defaultCollectorArgs quietHost 0
        ([.sent (.hello false) 0, sends false (.rawChunk 1), sends false (.rawChunk 0),
          sends false .rawEnd, sends false (.rawChunk 0), .sent (.hello true) 0,
          sends true (.rawChunk 0), sends true (.rawChunk 1), sends true .rawEnd].map
            BootEvent.event) emptyDisk).1.disk :=
  uploads_not_mixed 0 emptyDisk _ (by decide +kernel)

/-- All of the second upload arrives, then a chunk of the first one before RAW_END. -/
def lateChunk : List (BootEvent twoBoots) :=
  [.sent (.hello false) 0, .sent (.hello true) 0, sends true .rawBegin, sends true (.rawChunk 0),
    sends true (.rawChunk 1), sends false (.rawChunk 0), sends true .rawEnd]

theorem late_chunk_mixes_uploads :
    ¬NotMixed twoBoots 0 (trackedMain defaultCollectorArgs quietHost 0 lateChunk emptyDisk).openers
      (collectorMain defaultCollectorArgs quietHost 0 (lateChunk.map BootEvent.event)
        emptyDisk).1.disk := by
  intro apart
  have recorded : ∃ row ∈ ((collectorMain defaultCollectorArgs quietHost 0
      (lateChunk.map BootEvent.event) emptyDisk).1.disk.trials.drop 0),
      row.complete = true ∧ row.captureId = 1 ∧
        row.rawFile.bind (collectorMain defaultCollectorArgs quietHost 0
          (lateChunk.map BootEvent.event) emptyDisk).1.disk.files = some [1, 2, 3, 4, 1] := by
    decide +kernel
  have openers : (trackedMain defaultCollectorArgs quietHost 0 lateChunk emptyDisk).openers =
      [false, true] := by decide +kernel
  obtain ⟨row, member, complete, number, content⟩ := recorded
  obtain ⟨boot, bytes, opener, cited, own⟩ := apart row member complete
  rw [openers, number] at opener
  obtain rfl : true = boot := Option.some.inj opener
  obtain rfl := Option.some.inj (content.symm.trans cited)
  exact absurd own (by decide)

end BootEntropy.Aeb
