import BootEntropy.Aeb.Streams

/-!
# Several invocations on one output directory

The first invocation starts the streams and the CSV afresh, the later ones append.
Every invocation numbers its captures from zero.
-/

namespace BootEntropy.Aeb

open BootEntropy.Lib

set_option autoImplicit false

variable {sha256 : Bytes → Text}

structure Invocation (sha256 : Bytes → Text) where
  args : CollectorArgs
  host : Host
  hashes : host.sha256 = sha256
  startTime : Int
  events : List Event

namespace Invocation

variable (invocation : Invocation sha256) (append : Bool) (disk : Disk)

def withAppend : CollectorArgs := { invocation.args with append := append }

def run : Disk :=
  (collectorMain (invocation.withAppend append) invocation.host invocation.startTime
    invocation.events disk).1.disk

/-- Every datagram of the invocation meets `ok`. -/
def Meets (ok : Collector → Rx → Prop) : Prop :=
  EveryDatagram (invocation.withAppend append) invocation.host ok
    (startCollector (invocation.withAppend append) invocation.startTime disk) invocation.events

instance (ok : Collector → Rx → Prop) [∀ collector rx, Decidable (ok collector rx)] :
    Decidable (invocation.Meets append disk ok) :=
  inferInstanceAs (Decidable (EveryDatagram _ _ _ _ _))

end Invocation

def appendRuns (later : List (Invocation sha256)) (disk : Disk) : Disk :=
  later.foldl (fun disk invocation => invocation.run true disk) disk

/-- The directory after a first invocation and the later ones with `--append`. -/
def sessionRun (first : Invocation sha256) (later : List (Invocation sha256)) (disk : Disk) : Disk :=
  appendRuns later (first.run false disk)

def EveryAppended (ok : Collector → Rx → Prop) : List (Invocation sha256) → Disk → Prop
  | [], _ => True
  | invocation :: later, disk =>
      invocation.Meets true disk ok ∧ EveryAppended ok later (invocation.run true disk)

/-- Every datagram of every invocation meets `ok`. -/
structure EveryInvocation (ok : Collector → Rx → Prop) (first : Invocation sha256)
    (later : List (Invocation sha256)) (disk : Disk) : Prop where
  atFirst : first.Meets false disk ok
  appended : EveryAppended ok later (first.run false disk)

/-! ## Evidence -/

/-- Complete rows cite raw files with the recorded digest, and `aeb_all.bin` is
their concatenation. -/
structure EvidenceKept (sha256 : Bytes → Text) (disk : Disk) : Prop where
  digests : ∀ row ∈ completeRows disk, ∃ bytes,
    row.rawFile.bind disk.files = some bytes ∧ sha256 bytes = row.rawSha256File
  stream : Concatenates disk (·.rawFile) disk.allBin

/-- A RAW_END of a complete upload finds jitter that packs, and no complete row
cites other bytes under its capture id. -/
def KeepsEvidence (collector : Collector) (rx : Rx) : Prop :=
  OnRawEnd (fun state msg => RawCompletes state msg →
    JitterPacks state ∧ ∀ row ∈ completeRows collector.disk, row.captureId = state.captureId →
      collector.disk.files (.raw state.captureId) = some (receivedRaw state msg)) collector rx

instance (collector : Collector) (rx : Rx) : Decidable (KeepsEvidence collector rx) :=
  inferInstanceAs (Decidable (OnRawEnd _ collector rx))

structure Evidence (sha256 : Bytes → Text) (disk : Disk) : Prop where
  named : RowsNamed disk
  kept : EvidenceKept sha256 disk

theorem Evidence.incomplete {disk : Disk} (evidence : Evidence sha256 disk) (state : TrialState) :
    Evidence sha256 (writeRaw state none disk) := by
  have files : ∀ row ∈ completeRows disk,
      row.rawFile.bind (writeRaw state none disk).files = row.rawFile.bind disk.files :=
    partial_kept (fun row member => (evidence.named row member).1) fun _ => OutFile.noConfusion
  refine ⟨partial_rows_named evidence.named, ?_,
    partial_raw_concatenates evidence.named evidence.kept.stream⟩
  intro row member
  unfold completeRows at member
  rw [write_raw_trials] at member
  rw [files row member]
  exact evidence.kept.digests row member

theorem Evidence.recorded {disk : Disk} (evidence : Evidence sha256 disk) {state : TrialState}
    {msg : Message} (streams : JitterStreams)
    (unclashed : ∀ bytes, closedRaw state msg = some bytes → ∀ row ∈ completeRows disk,
      row.captureId = state.captureId → disk.files (.raw state.captureId) = some bytes) :
    Evidence sha256 (recordedDisk sha256 disk state msg streams) := by
  have same : ∀ row ∈ completeRows disk, row.captureId = state.captureId →
      (recordedDisk sha256 disk state msg streams).files (.raw state.captureId) =
        disk.files (.raw state.captureId) := by
    intro row member clash
    cases raw : closedRaw state msg with
    | none => exact recorded_raw_file_of_gaps sha256 raw
    | some bytes => rw [recorded_raw_file sha256 raw, unclashed bytes raw row member clash]
  have files := recorded_kept sha256 (fun _ => rfl)
    (fun row member => (evidence.named row member).1) same
  refine ⟨recorded_rows_named sha256 evidence.named, ?_,
    recorded_raw_concatenates sha256 evidence.named same evidence.kept.stream⟩
  intro row member
  unfold completeRows at member
  rw [recorded_trials, List.filter_append] at member
  rcases List.mem_append.mp member with old | new
  · rw [files row old]
    exact evidence.kept.digests row old
  · obtain ⟨last, complete⟩ := List.mem_filter.mp new
    rw [List.mem_singleton] at last
    subst last
    have some : (closedRaw state msg).isSome = true := complete
    obtain ⟨bytes, raw⟩ := Option.isSome_iff_exists.mp some
    refine ⟨bytes, recorded_row_raw_file sha256 raw, ?_⟩
    unfold recordedRow trialRow
    rw [raw]
    rfl

theorem Evidence.handle (args : CollectorArgs) (host : Host) {collector : Collector} {rx : Rx}
    (evidence : Evidence host.sha256 collector.disk) (keeps : KeepsEvidence collector rx) :
    Evidence host.sha256 (handleDatagram args host collector rx).1.disk := by
  have step := handle_datagram_disk args host collector rx
  generalize (handleDatagram args host collector rx).1.disk = disk at step ⊢
  cases step with
  | kept csv =>
      exact ⟨evidence.named, evidence.kept.digests, evidence.kept.stream.keep rfl fun _ _ => rfl⟩
  | @raised msg state parsed rawEnd known unpacked =>
      have packs : RawCompletes state msg → JitterPacks state :=
        fun complete => (keeps msg state parsed rawEnd known complete).1
      rw [closed_raw_none_of_unpacked packs unpacked]
      exact evidence.incomplete (endFrame state msg)
  | @recorded msg state streams parsed rawEnd known packed =>
      apply evidence.recorded streams
      intro bytes raw row member clash
      obtain ⟨arrived, rfl⟩ := (closed_raw_some_iff state msg bytes).mp raw
      exact (keeps msg state parsed rawEnd known arrived).2 row member clash

/-! ## Sessions -/

theorem Evidence.run {disk : Disk} {append : Bool} {invocation : Invocation sha256}
    (evidence : Evidence sha256 (prepareOutputs append disk))
    (keeps : invocation.Meets append disk KeepsEvidence) :
    Evidence sha256 (invocation.run append disk) := by
  obtain ⟨args, host, rfl, startTime, events⟩ := invocation
  exact @collector_loop_invariant _ host KeepsEvidence
    (fun collector => Evidence host.sha256 collector.disk)
    (fun _ _ _ evidence keeps => evidence.handle _ host keeps) _ _ evidence keeps

theorem Evidence.appended (later : List (Invocation sha256)) :
    ∀ disk, Evidence sha256 disk → EveryAppended KeepsEvidence later disk →
      Evidence sha256 (appendRuns later disk) := by
  induction later with
  | nil => exact fun _ evidence _ => evidence
  | cons invocation later ih =>
      intro disk evidence keeps
      exact ih (invocation.run true disk) (evidence.run keeps.1) keeps.2

/-- In a session whose datagrams all keep the evidence, every complete row still
cites its own bytes. -/
theorem session_keeps_evidence (first : Invocation sha256) (later : List (Invocation sha256))
    (disk : Disk) (keeps : EveryInvocation KeepsEvidence first later disk) :
    EvidenceKept sha256 (sessionRun first later disk) := by
  have empty : Evidence sha256 (prepareOutputs false disk) := by
    refine ⟨?_, ?_, [], rfl, rfl⟩
    · intro row member
      cases member
    · intro row member
      cases member
  exact (Evidence.appended later _ (Evidence.run empty keeps.atFirst) keeps.appended).kept

/-! ## Two small captures -/

def hexHost : Host := { quietHost with sha256 := hexText }

theorem hex_host_hashes : hexHost.sha256 = hexText := rfl

def tinyCapture (trial : Trial tinyConfig) (delivered : List Part) : Invocation hexText where
  args := defaultCollectorArgs
  host := hexHost
  hashes := hex_host_hashes
  startTime := 0
  events := .datagram tinyHello :: delivered.map fun part =>
    .datagram ⟨datagram (partMsg trial part), tinyPeer, 0⟩

/-- The second capture loses a chunk, so its id 0 cites no complete file. -/
theorem partial_capture_keeps_evidence :
    EvidenceKept hexText
      (sessionRun (tinyCapture tinyTrial [.rawChunk 0, .rawChunk 1, .rawEnd])
        [tinyCapture otherTrial [.rawChunk 1, .rawEnd]] emptyDisk) :=
  session_keeps_evidence _ _ _ ⟨by decide +kernel, by decide +kernel, trivial⟩

/-- The second capture is number 0 again and writes over the file of the first. -/
theorem second_capture_overwrites_first :
    ¬EvidenceKept hexText
      (sessionRun (tinyCapture tinyTrial [.rawChunk 0, .rawChunk 1, .rawEnd])
        [tinyCapture otherTrial [.rawChunk 0, .rawChunk 1, .rawEnd]] emptyDisk) := by
  intro kept
  obtain ⟨contents, files, stream⟩ := kept.stream
  have cited : (completeRows (sessionRun (tinyCapture tinyTrial [.rawChunk 0, .rawChunk 1, .rawEnd])
      [tinyCapture otherTrial [.rawChunk 0, .rawChunk 1, .rawEnd]] emptyDisk)).map
        (fun row => row.rawFile.bind (sessionRun
          (tinyCapture tinyTrial [.rawChunk 0, .rawChunk 1, .rawEnd])
          [tinyCapture otherTrial [.rawChunk 0, .rawChunk 1, .rawEnd]] emptyDisk).files) =
      [[5, 4, 3, 2, 1], [5, 4, 3, 2, 1]].map some := by decide +kernel
  have bytes : (sessionRun (tinyCapture tinyTrial [.rawChunk 0, .rawChunk 1, .rawEnd])
      [tinyCapture otherTrial [.rawChunk 0, .rawChunk 1, .rawEnd]] emptyDisk).allBin =
      [1, 2, 3, 4, 5, 5, 4, 3, 2, 1] := by decide +kernel
  have same : contents = [[5, 4, 3, 2, 1], [5, 4, 3, 2, 1]] :=
    List.map_injective_iff.mpr (Option.some_injective Bytes) (files.symm.trans cited)
  rw [bytes, same] at stream
  exact absurd stream (by decide)

end BootEntropy.Aeb
