import BootEntropy.Aeb.Captures
import BootEntropy.Aeb.Reassembly

/-!
# Streams and rows

`aeb_all.bin` and `aeb_response_all.bin` against the files the complete rows of
`aeb_trials.csv` cite, over whole runs that do not append.
-/

namespace BootEntropy.Aeb

open BootEntropy.Lib

set_option autoImplicit false

def completeRows (disk : Disk) : List TrialRow := disk.trials.filter (·.complete)

/-- `stream` is the content of the cited files of the complete rows, in row order. -/
def Concatenates (disk : Disk) (cite : TrialRow → Option OutFile) (stream : Bytes) : Prop :=
  ∃ contents : List Bytes,
    (completeRows disk).map (fun row => (cite row).bind disk.files) = contents.map some ∧
      stream = contents.flatten

structure StreamsMatch (disk : Disk) : Prop where
  raw : Concatenates disk (·.rawFile) disk.allBin
  joint : Concatenates disk (·.responseFile) disk.allJoint

section Concatenation

variable {before after : Disk} {cite : TrialRow → Option OutFile} {stream : Bytes}

theorem Concatenates.keep (trials : after.trials = before.trials)
    (kept : ∀ row ∈ completeRows before, (cite row).bind after.files = (cite row).bind before.files)
    (matched : Concatenates before cite stream) : Concatenates after cite stream := by
  obtain ⟨contents, files, rfl⟩ := matched
  refine ⟨contents, ?_, rfl⟩
  rw [← files]
  unfold completeRows at kept ⊢
  rw [trials]
  exact List.map_congr_left kept

theorem Concatenates.record {row : TrialRow} {content : Option Bytes}
    (trials : after.trials = before.trials ++ [row])
    (kept : ∀ old ∈ completeRows before, (cite old).bind after.files = (cite old).bind before.files)
    (complete : row.complete = content.isSome)
    (written : ∀ bytes, content = some bytes → (cite row).bind after.files = some bytes)
    (matched : Concatenates before cite stream) :
    Concatenates after cite (stream ++ content.getD []) := by
  obtain ⟨contents, files, rfl⟩ := matched
  have old : (completeRows before).map (fun row => (cite row).bind after.files) =
      contents.map some := by
    rw [← files]
    exact List.map_congr_left kept
  unfold Concatenates completeRows
  rw [trials, List.filter_append, List.filter_singleton, complete, List.map_append]
  unfold completeRows at old
  rw [old]
  cases content with
  | none =>
      refine ⟨contents, ?_, ?_⟩
      · exact List.append_nil _
      · exact List.append_nil _
  | some bytes =>
      refine ⟨contents ++ [bytes], ?_, ?_⟩
      · rw [List.map_append]
        exact congrArg (_ ++ [·]) (written bytes rfl)
      · rw [List.flatten_append, List.flatten_singleton]
        rfl

end Concatenation

/-! ## One finalized trial -/

/-- Complete rows cite the files of their own capture id. -/
def RowsNamed (disk : Disk) : Prop :=
  ∀ row ∈ completeRows disk,
    row.rawFile = some (.raw row.captureId) ∧ row.responseFile = some (.response row.captureId)

section Finalized

variable (sha256 : Bytes → Text) {disk : Disk} {state : TrialState} {msg : Message}
  {streams : JitterStreams}

def recordedDisk (sha256 : Bytes → Text) (disk : Disk) (state : TrialState) (msg : Message)
    (streams : JitterStreams) : Disk :=
  finishDisk sha256 (endFrame state msg) (closedRaw state msg) streams
    (writeRaw (endFrame state msg) (closedRaw state msg) disk)

def recordedRow (sha256 : Bytes → Text) (state : TrialState) (msg : Message)
    (streams : JitterStreams) : TrialRow :=
  trialRow sha256 (endFrame state msg) (closedRaw state msg) streams

theorem recorded_trials :
    (recordedDisk sha256 disk state msg streams).trials =
      disk.trials ++ [recordedRow sha256 state msg streams] := by
  rw [recordedDisk, finish_disk_trials, write_raw_trials]
  rfl

theorem recorded_files_other {file : OutFile} (other : file.captureId ≠ state.captureId) :
    (recordedDisk sha256 disk state msg streams).files file = disk.files file := by
  have differs {written : OutFile} (own : written.captureId = (endFrame state msg).captureId) :
      file ≠ written := by
    intro same
    rw [← same] at own
    exact other own
  rw [recordedDisk, finish_disk_files _ _ _ _ _ (differs rfl) (differs rfl) (differs rfl)]
  exact write_raw_files_other disk (endFrame state msg) _ other

theorem recorded_raw_file {bytes : Bytes} (raw : closedRaw state msg = some bytes) :
    (recordedDisk sha256 disk state msg streams).files (.raw state.captureId) = some bytes := by
  rw [recordedDisk, finish_disk_files _ _ _ _ _ OutFile.noConfusion OutFile.noConfusion
    OutFile.noConfusion, raw]
  exact write_raw_file disk (endFrame state msg)

theorem recorded_raw_file_of_gaps (incomplete : closedRaw state msg = none) :
    (recordedDisk sha256 disk state msg streams).files (.raw state.captureId) =
      disk.files (.raw state.captureId) := by
  rw [recordedDisk, finish_disk_files _ _ _ _ _ OutFile.noConfusion OutFile.noConfusion
    OutFile.noConfusion, incomplete]
  unfold writeRaw
  dsimp only
  split_ifs
  · exact write_bytes_other _ _ OutFile.noConfusion
  · rfl

theorem recorded_response_file {bytes : Bytes} (raw : closedRaw state msg = some bytes) :
    (recordedDisk sha256 disk state msg streams).files (.response state.captureId) =
      some (bytes ++ streams.delta) := by
  rw [recordedDisk, raw]
  exact write_response_file _ _ _

theorem recorded_all_bin :
    (recordedDisk sha256 disk state msg streams).allBin =
      disk.allBin ++ (closedRaw state msg).getD [] := by
  rw [recordedDisk, finish_disk_all_bin, write_raw_all_bin]

theorem recorded_all_joint :
    (recordedDisk sha256 disk state msg streams).allJoint =
      disk.allJoint ++ ((closedRaw state msg).map (· ++ streams.delta)).getD [] := by
  rw [recordedDisk, finish_disk_all_joint, write_raw_all_joint]

theorem recorded_rows_named (named : RowsNamed disk) :
    RowsNamed (recordedDisk sha256 disk state msg streams) := by
  intro row member
  unfold completeRows at member
  rw [recorded_trials, List.filter_append] at member
  rcases List.mem_append.mp member with old | new
  · exact named row old
  · obtain ⟨last, complete⟩ := List.mem_filter.mp new
    rw [List.mem_singleton] at last
    subst last
    have some : (closedRaw state msg).isSome = true := complete
    unfold recordedRow trialRow
    rw [if_pos some, if_pos some]
    exact ⟨rfl, rfl⟩

/-- The cited files of one kind keep their content when the file that is written
is cited by no complete row, or does not change. -/
theorem recorded_kept {cite : TrialRow → Option OutFile} {name : Nat → OutFile}
    (own : ∀ captureId, (name captureId).captureId = captureId)
    (named : ∀ row ∈ completeRows disk, cite row = some (name row.captureId))
    (unclashed : ∀ row ∈ completeRows disk, row.captureId = state.captureId →
      (recordedDisk sha256 disk state msg streams).files (name state.captureId) =
        disk.files (name state.captureId)) :
    ∀ row ∈ completeRows disk,
      (cite row).bind (recordedDisk sha256 disk state msg streams).files =
        (cite row).bind disk.files := by
  intro row member
  rw [named row member]
  by_cases clash : row.captureId = state.captureId
  · rw [clash]
    exact unclashed row member clash
  · apply recorded_files_other
    rw [own]
    exact clash

theorem recorded_row_raw_file {bytes : Bytes} (raw : closedRaw state msg = some bytes) :
    (recordedRow sha256 state msg streams).rawFile.bind
      (recordedDisk sha256 disk state msg streams).files = some bytes := by
  have cited : (recordedRow sha256 state msg streams).rawFile = some (.raw state.captureId) := by
    unfold recordedRow trialRow
    rw [raw]
    rfl
  rw [cited]
  exact recorded_raw_file sha256 raw

theorem recorded_row_response_file {bytes : Bytes} (raw : closedRaw state msg = some bytes) :
    (recordedRow sha256 state msg streams).responseFile.bind
      (recordedDisk sha256 disk state msg streams).files = some (bytes ++ streams.delta) := by
  have cited : (recordedRow sha256 state msg streams).responseFile =
      some (.response state.captureId) := by
    unfold recordedRow trialRow
    rw [raw]
    rfl
  rw [cited]
  exact recorded_response_file sha256 raw

theorem recorded_raw_concatenates (named : RowsNamed disk)
    (unclashed : ∀ row ∈ completeRows disk, row.captureId = state.captureId →
      (recordedDisk sha256 disk state msg streams).files (.raw state.captureId) =
        disk.files (.raw state.captureId))
    (matched : Concatenates disk (·.rawFile) disk.allBin) :
    Concatenates (recordedDisk sha256 disk state msg streams) (·.rawFile)
      (recordedDisk sha256 disk state msg streams).allBin := by
  rw [recorded_all_bin]
  apply matched.record (recorded_trials sha256) _ rfl
  · intro bytes raw
    exact recorded_row_raw_file sha256 raw
  · exact recorded_kept sha256 (fun _ => rfl) (fun row member => (named row member).1) unclashed

theorem recorded_joint_concatenates (named : RowsNamed disk)
    (unclashed : ∀ row ∈ completeRows disk, row.captureId ≠ state.captureId)
    (matched : Concatenates disk (·.responseFile) disk.allJoint) :
    Concatenates (recordedDisk sha256 disk state msg streams) (·.responseFile)
      (recordedDisk sha256 disk state msg streams).allJoint := by
  rw [recorded_all_joint]
  apply matched.record (recorded_trials sha256)
  · exact recorded_kept sha256 (fun _ => rfl) (fun row member => (named row member).2)
      fun row member clash => absurd clash (unclashed row member)
  · rw [Option.isSome_map]
    rfl
  · intro joint written
    obtain ⟨bytes, raw, rfl⟩ := Option.map_eq_some_iff.mp written
    exact recorded_row_response_file sha256 raw

/-- Bytes of an incomplete trial go to a partial file, which no complete row cites. -/
theorem partial_kept {cite : TrialRow → Option OutFile} {name : Nat → OutFile}
    (named : ∀ row ∈ completeRows disk, cite row = some (name row.captureId))
    (whole : ∀ captureId, name captureId ≠ .rawPartial state.captureId) :
    ∀ row ∈ completeRows disk,
      (cite row).bind (writeRaw state none disk).files = (cite row).bind disk.files := by
  intro row member
  rw [named row member]
  unfold writeRaw
  dsimp only
  split_ifs
  · exact write_bytes_other _ _ (whole row.captureId)
  · rfl

theorem partial_rows_named (named : RowsNamed disk) : RowsNamed (writeRaw state none disk) := by
  unfold RowsNamed completeRows at named ⊢
  rw [write_raw_trials]
  exact named

theorem partial_raw_concatenates (named : RowsNamed disk)
    (matched : Concatenates disk (·.rawFile) disk.allBin) :
    Concatenates (writeRaw state none disk) (·.rawFile) (writeRaw state none disk).allBin := by
  rw [write_raw_all_bin, Option.getD_none, List.append_nil]
  exact matched.keep (write_raw_trials _ _ _)
    (partial_kept (fun row member => (named row member).1) fun _ => OutFile.noConfusion)

theorem partial_joint_concatenates (named : RowsNamed disk)
    (matched : Concatenates disk (·.responseFile) disk.allJoint) :
    Concatenates (writeRaw state none disk) (·.responseFile)
      (writeRaw state none disk).allJoint := by
  rw [write_raw_all_joint]
  exact matched.keep (write_raw_trials _ _ _)
    (partial_kept (fun row member => (named row member).2) fun _ => OutFile.noConfusion)

end Finalized

/-! ## Whole runs -/

/-- A call of `finalize_trial` that raises leaves both streams and the CSV alone. -/
def RaisesClean (args : CollectorArgs) (host : Host) (collector : Collector) (rx : Rx) : Prop :=
  (handleDatagram args host collector rx).2 ≠ none →
    (handleDatagram args host collector rx).1.disk.allBin = collector.disk.allBin ∧
      (handleDatagram args host collector rx).1.disk.allJoint = collector.disk.allJoint ∧
      (handleDatagram args host collector rx).1.disk.trials = collector.disk.trials

/-- A RAW_END whose raw bytes are complete finds jitter that packs. -/
def PacksWhenComplete : Collector → Rx → Prop :=
  OnRawEnd fun state msg => RawCompletes state msg → JitterPacks state

variable (args : CollectorArgs) (host : Host)

theorem raises_clean_iff (collector : Collector) (rx : Rx) :
    RaisesClean args host collector rx ↔ PacksWhenComplete collector rx := by
  constructor
  · intro clean msg state parsed rawEnd known complete
    by_contra unpacked
    have ended := handle_datagram_raw_end args host parsed rawEnd known
    have raw := (closed_raw_some_iff state msg _).mpr ⟨complete, rfl⟩
    rcases finalize_closed_cases host.sha256 state msg collector.disk with
      ⟨error, _, final⟩ | ⟨_, packed, _⟩
    · rw [RaisesClean, ended, handleRawEnd] at clean
      have kept := (clean (by
        rw [show (collector.received rx).disk = collector.disk from rfl, final]
        exact Option.some_ne_none error)).1
      rw [show (collector.received rx).disk = collector.disk from rfl, final] at kept
      dsimp only at kept
      rw [write_raw_all_bin, raw, Option.getD_some] at kept
      exact closed_raw_ne_nil raw (List.self_eq_append_right.mp kept.symm)
    · exact unpacked packed
  · intro packs raises
    have outcome := handle_datagram_handled args host collector rx
    generalize handleDatagram args host collector rx = after at outcome raises ⊢
    cases outcome with
    | ignored => exact absurd rfl raises
    | badResult => exact ⟨rfl, rfl, rfl⟩
    | noted => exact absurd rfl raises
    | helloFailed parsed hello answer =>
        obtain ⟨csv, rfl⟩ := answer_hello_disk args host answer
        exact ⟨rfl, rfl, rfl⟩
    | opened => exact absurd rfl raises
    | stored => exact absurd rfl raises
    | @endRaised msg state disk error parsed rawEnd known final =>
        obtain ⟨rfl, unpacked⟩ := raised_trials host.sha256 _ _ _ final
        have incomplete := closed_raw_none_of_unpacked (packs msg state parsed rawEnd known) unpacked
        dsimp only
        rw [incomplete, write_raw_all_bin, write_raw_all_joint, write_raw_trials, Option.getD_none,
          List.append_nil]
        exact ⟨rfl, rfl, rfl⟩
    | ended => exact absurd rfl raises

structure Matched (collector : Collector) : Prop where
  numbered : NumberedSince 0 collector
  named : RowsNamed collector.disk
  streams : StreamsMatch collector.disk

theorem Matched.handle {collector : Collector} {rx : Rx} (matched : Matched collector)
    (packs : PacksWhenComplete collector rx) :
    Matched (handleDatagram args host collector rx).1 := by
  have numbered := matched.numbered.handle args host rx
  have step := handle_datagram_disk args host collector rx
  have named : RowsNamed (handleDatagram args host collector rx).1.disk ∧
      StreamsMatch (handleDatagram args host collector rx).1.disk := by
    generalize (handleDatagram args host collector rx).1.disk = disk at step ⊢
    cases step with
    | kept csv =>
        exact ⟨matched.named, matched.streams.raw.keep rfl fun _ _ => rfl,
          matched.streams.joint.keep rfl fun _ _ => rfl⟩
    | @raised msg state parsed rawEnd known unpacked =>
        rw [closed_raw_none_of_unpacked (packs msg state parsed rawEnd known) unpacked]
        exact ⟨partial_rows_named matched.named,
          partial_raw_concatenates matched.named matched.streams.raw,
          partial_joint_concatenates matched.named matched.streams.joint⟩
    | @recorded msg state streams parsed rawEnd known packed =>
        have unclashed : ∀ row ∈ completeRows collector.disk, row.captureId ≠ state.captureId :=
          fun row member => matched.numbered.fresh known (List.mem_of_mem_filter member)
        refine ⟨recorded_rows_named host.sha256 matched.named, ?_, ?_⟩
        · exact recorded_raw_concatenates host.sha256 matched.named
            (fun row member clash => absurd clash (unclashed row member)) matched.streams.raw
        · exact recorded_joint_concatenates host.sha256 matched.named unclashed matched.streams.joint
  exact ⟨numbered, named.1, named.2⟩

theorem matched_start (startTime : Int) (disk : Disk) :
    Matched (startCollector { args with append := false } startTime disk) := by
  have matches_nothing (cite : TrialRow → Option OutFile) :
      Concatenates (prepareOutputs false disk) cite [] := ⟨[], rfl, rfl⟩
  constructor
  · exact numbered_since_start { args with append := false } startTime disk
  · intro row member
    cases member
  · exact ⟨matches_nothing _, matches_nothing _⟩

/-- In a run that does not append, the streams are the concatenated files of the
complete rows and a raising call changes neither, exactly when no RAW_END of a
complete upload meets jitter that does not pack. -/
theorem streams_match_iff (startTime : Int) (disk : Disk) (events : List Event) :
    (StreamsMatch (collectorMain { args with append := false } host startTime events disk).1.disk ∧
        EveryDatagram { args with append := false } host
          (RaisesClean { args with append := false } host)
          (startCollector { args with append := false } startTime disk) events) ↔
      EveryDatagram { args with append := false } host PacksWhenComplete
        (startCollector { args with append := false } startTime disk) events := by
  have clean : EveryDatagram { args with append := false } host
        (RaisesClean { args with append := false } host)
        (startCollector { args with append := false } startTime disk) events ↔
      EveryDatagram { args with append := false } host PacksWhenComplete
        (startCollector { args with append := false } startTime disk) events :=
    EveryDatagram.congr (raises_clean_iff { args with append := false } host)
  rw [clean]
  constructor
  · exact And.right
  · intro packs
    refine ⟨?_, packs⟩
    have matched := collector_loop_invariant
      (fun collector rx _ matched packs => Matched.handle _ host matched packs)
      (matched_start args startTime disk) packs
    exact matched.streams

/-- A whole upload whose result line names an unreadable interval. -/
def poisonedUpload : List Event :=
  [.datagram tinyHello, .datagram (tinyRx (.rawChunk 0)), .datagram (tinyRx (.rawChunk 1)),
    .datagram (tinyRx (.jitterChunk 0)),
    .datagram ⟨asciiBytes "[AEB_RESULT] trial=0 interval_us=x", tinyPeer, 0⟩,
    .datagram (tinyRx .rawEnd)]

/-- The raw bytes of a trial without a row stay in `aeb_all.bin`. -/
theorem poisoned_upload_breaks_streams :
    ¬(StreamsMatch (collectorMain { defaultCollectorArgs with append := false } quietHost 0
          poisonedUpload emptyDisk).1.disk ∧
        EveryDatagram { defaultCollectorArgs with append := false } quietHost
          (RaisesClean { defaultCollectorArgs with append := false } quietHost)
          (startCollector { defaultCollectorArgs with append := false } 0 emptyDisk)
          poisonedUpload) := by
  rintro ⟨matched, _⟩
  obtain ⟨contents, files, stream⟩ := matched.raw
  have rows : (collectorMain { defaultCollectorArgs with append := false } quietHost 0
      poisonedUpload emptyDisk).1.disk.trials = [] := by decide +kernel
  have bytes : (collectorMain { defaultCollectorArgs with append := false } quietHost 0
      poisonedUpload emptyDisk).1.disk.allBin = [1, 2, 3, 4, 5] := by decide +kernel
  unfold completeRows at files
  rw [rows] at files
  have none : contents = [] := List.map_eq_nil_iff.mp files.symm
  rw [bytes, none] at stream
  cases stream

end BootEntropy.Aeb
