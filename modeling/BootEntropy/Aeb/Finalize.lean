import Mathlib.Data.List.AList
import BootEntropy.Aeb.Wire
import BootEntropy.Lib.Chunk

/-!
# What the collector keeps of a trial

`TrialState`, the output directory, and `finalize_trial`. Each branch that can
raise returns the directory as the exception leaves it. SHA-256 hex digests are
the parameter `sha256`. Times are integer microseconds.
-/

namespace BootEntropy.Aeb

open BootEntropy.Lib

set_option autoImplicit false

/-- A Python `dict`. -/
abbrev Dict (κ ν : Type) := AList fun _ : κ => ν

inductive PyError where
  | valueError
  | structError
  | osError
  | csvError
  | memoryError
  deriving DecidableEq, Repr

structure Peer where
  host : Text
  port : Nat
  deriving DecidableEq

structure TrialState where
  captureId : Nat
  peer : Peer
  protocolTrial : Nat
  helloNonce : Bytes
  startNonce : Bytes
  bursts : Int
  intervalUs : Int
  requestedSampleBytes : Int
  rawChunksExpected : Option Nat
  rawLen : Option Nat
  rawChunks : Dict Nat Bytes
  jitterChunks : Dict Nat Bytes
  result : Dict Text Text
  helloTime : Int
  startSendTime : Option Int
  firstBurstSendTime : Option Int
  lastBurstSendTime : Option Int
  resultTime : Option Int

/-! ## Output directory -/

inductive OutFile where
  | raw (captureId : Nat)
  | rawPartial (captureId : Nat)
  | jitterDelta (captureId : Nat)
  | jitterResidual (captureId : Nat)
  | response (captureId : Nat)
  deriving DecidableEq, Repr

structure JitterRow where
  index : Nat
  deltaUs : Nat
  residualUs : Int
  deriving DecidableEq, Repr

structure StimulusRow where
  seq : Nat
  sleepUs : Int
  payloadMode : Text
  payloadLen : Nat
  payloadHex : Text
  payloadSha256 : Text
  deriving DecidableEq, Repr

/-- A row of `aeb_trials.csv`. `none` is an empty cell. -/
structure TrialRow where
  captureId : Nat
  protocolTrial : Nat
  peer : Peer
  complete : Bool
  rawFile : Option OutFile
  rawBytes : Nat
  rawChunksExpected : Nat
  rawChunksSeen : Nat
  missingChunks : List Nat
  rawSha256File : Text
  rawSha256Reported : Text
  rawSha256Match : Option Bool
  jitterFile : Option Nat
  jitterDeltaFile : Option OutFile
  jitterResidualFile : Option OutFile
  jitterDeltaBytes : Nat
  jitterSha256File : Text
  jitterSha256Reported : Text
  jitterSha256Match : Option Bool
  jitterCount : Nat
  responseFile : Option OutFile
  responseBytes : Nat
  responseSha256File : Text
  responseSha256Reported : Text
  responseSha256Match : Option Bool
  condition : Text
  packetsExpected : Text
  packetsSeen : Text
  intervalUs : Text
  sampleUs : Text
  hostHelloToStart : Option Int
  hostStartToLastBurst : Option Int
  hostFirstToLastBurst : Option Int
  hostHelloToResult : Option Int
  ones : Text
  transitions : Text
  jitterMinUs : Text
  jitterMeanUs : Text
  jitterMaxUs : Text
  responseSha256 : Text
  seedSha256 : Text
  helloNonce : Text
  startNonce : Text
  deriving DecidableEq

/-- The output directory. A stream file that does not exist reads as empty. -/
structure Disk where
  files : OutFile → Option Bytes
  jitterCsv : Nat → Option (List JitterRow)
  stimulusCsv : Nat → Option (List StimulusRow)
  allBin : Bytes
  allJitterDelta : Bytes
  allJitterResidual : Bytes
  allJoint : Bytes
  trials : List TrialRow

def emptyDisk : Disk := ⟨fun _ => none, fun _ => none, fun _ => none, [], [], [], [], []⟩

def Disk.writeBytes (disk : Disk) (file : OutFile) (content : Bytes) : Disk :=
  { disk with files := Function.update disk.files file (some content) }

/-! ## Raw bytes -/

def chunkAt (chunks : Dict Nat Bytes) (index : Nat) : Bytes := (chunks.lookup index).getD []

/-- `max(keys, default=-1) + 1` without a RAW_BEGIN. -/
def expectedChunks (state : TrialState) : Nat :=
  state.rawChunksExpected.getD (state.rawChunks.keys.foldl (fun most key => max most (key + 1)) 0)

/-- `int(text or fallback)` of a result field that may be missing. -/
def resultInt (state : TrialState) (name : String) (fallback : Int) : Option Int :=
  match state.result.lookup name.toList with
  | none => some fallback
  | some [] => some fallback
  | some text => parseInt text

def declaredLength (state : TrialState) : Option Int :=
  match state.rawLen with
  | some length => some length
  | none => resultInt state "sample_bytes" 0

def missingChunks (state : TrialState) : List Nat :=
  (List.range (expectedChunks state)).filter fun index => (state.rawChunks.lookup index).isNone

def completeRaw (state : TrialState) (rawLen : Int) : Option Bytes :=
  if 0 < expectedChunks state ∧ 0 < rawLen ∧ missingChunks state = [] then
    let raw := ((List.range (expectedChunks state)).flatMap (chunkAt state.rawChunks)).take
      rawLen.toNat
    if (raw.length : Int) = rawLen then some raw else none
  else none

def sortedKeys (chunks : Dict Nat Bytes) : List Nat := chunks.keys.insertionSort (· ≤ ·)

def partialRaw (state : TrialState) : Bytes :=
  (sortedKeys state.rawChunks).flatMap (chunkAt state.rawChunks)

def hasRawChunks (state : TrialState) : Bool := state.rawChunks.keys ≠ []

def writeRaw (state : TrialState) (raw : Option Bytes) (disk : Disk) : Disk :=
  match raw with
  | some bytes =>
      { disk.writeBytes (.raw state.captureId) bytes with allBin := disk.allBin ++ bytes }
  | none =>
      if hasRawChunks state then disk.writeBytes (.rawPartial state.captureId) (partialRaw state)
      else disk

/-! ## Jitter -/

/-- `struct.unpack("<I...")` of the whole words of a payload. -/
def unpackU32s : Bytes → List Nat
  | a :: b :: c :: d :: rest => leValue [a, b, c, d] :: unpackU32s rest
  | _ => []

def jitterValues (state : TrialState) : List Nat :=
  (sortedKeys state.jitterChunks).flatMap fun index => unpackU32s (chunkAt state.jitterChunks index)

def packJitterDeltaU32le (values : List Nat) : Bytes := values.flatMap (leBytes 4)

def residualFits (intervalUs : Int) (value : Nat) : Prop :=
  -2 ^ 31 ≤ (value : Int) - intervalUs ∧ (value : Int) - intervalUs < 2 ^ 31

instance (intervalUs : Int) (value : Nat) : Decidable (residualFits intervalUs value) :=
  inferInstanceAs (Decidable (_ ∧ _))

/-- `none` is the `struct.error` of a residual outside 32 bits. -/
def packJitterResidualS32le (values : List Nat) (intervalUs : Int) : Option Bytes :=
  if ∀ value ∈ values, residualFits intervalUs value then
    some (values.flatMap fun value => leBytes 4 (((value : Int) - intervalUs) % 2 ^ 32).toNat)
  else none

/-- `int(result.get("interval_us", state.interval_us) or state.interval_us)` -/
def effectiveInterval (state : TrialState) : Option Int :=
  resultInt state "interval_us" state.intervalUs

structure JitterStreams where
  values : List Nat
  intervalUs : Int
  delta : Bytes
  residual : Bytes
  deriving DecidableEq, Repr

def jitterStreams (state : TrialState) : Except PyError JitterStreams :=
  let jitters := jitterValues state
  if jitters = [] then .ok ⟨[], 0, [], []⟩
  else
    match effectiveInterval state with
    | none => .error .valueError
    | some intervalUs =>
        match packJitterResidualS32le jitters intervalUs with
        | none => .error .structError
        | some residual => .ok ⟨jitters, intervalUs, packJitterDeltaU32le jitters, residual⟩

def jitterRows (streams : JitterStreams) : List JitterRow :=
  streams.values.mapIdx fun index value => ⟨index, value, (value : Int) - streams.intervalUs⟩

def writeJitter (captureId : Nat) (streams : JitterStreams) (disk : Disk) : Disk :=
  if streams.values = [] then disk
  else
    { (disk.writeBytes (.jitterDelta captureId) streams.delta).writeBytes
        (.jitterResidual captureId) streams.residual with
      jitterCsv := Function.update disk.jitterCsv captureId (some (jitterRows streams))
      allJitterDelta := disk.allJitterDelta ++ streams.delta
      allJitterResidual := disk.allJitterResidual ++ streams.residual }

/-! ## Response and row -/

def writeResponse (captureId : Nat) (raw : Option Bytes) (streams : JitterStreams) (disk : Disk) :
    Disk :=
  match raw with
  | none => disk
  | some bytes =>
      { disk.writeBytes (.response captureId) (bytes ++ streams.delta) with
        allJoint := disk.allJoint ++ (bytes ++ streams.delta) }

def reported (state : TrialState) (name : String) : Text :=
  (state.result.lookup name.toList).getD []

def hashMatch (reported hash : Text) : Bool := reported ≠ [] && reported = hash

def trialRow (sha256 : Bytes → Text) (state : TrialState) (raw : Option Bytes)
    (streams : JitterStreams) : TrialRow where
  captureId := state.captureId
  protocolTrial := state.protocolTrial
  peer := state.peer
  complete := raw.isSome
  rawFile :=
    if raw.isSome then some (.raw state.captureId)
    else if hasRawChunks state then some (.rawPartial state.captureId)
    else none
  rawBytes := (raw.getD (partialRaw state)).length
  rawChunksExpected := expectedChunks state
  rawChunksSeen := state.rawChunks.keys.length
  missingChunks := missingChunks state
  rawSha256File :=
    if raw.isSome ∨ hasRawChunks state then sha256 (raw.getD (partialRaw state)) else []
  rawSha256Reported := reported state "raw_sha256"
  rawSha256Match := raw.map fun bytes => hashMatch (reported state "raw_sha256") (sha256 bytes)
  jitterFile := if streams.values = [] then none else some state.captureId
  jitterDeltaFile := if streams.values = [] then none else some (.jitterDelta state.captureId)
  jitterResidualFile := if streams.values = [] then none else some (.jitterResidual state.captureId)
  jitterDeltaBytes := streams.delta.length
  jitterSha256File := if streams.values = [] then [] else sha256 streams.delta
  jitterSha256Reported := reported state "jitter_sha256"
  jitterSha256Match :=
    if streams.values = [] then none
    else some (hashMatch (reported state "jitter_sha256") (sha256 streams.delta))
  jitterCount := streams.values.length
  responseFile := if raw.isSome then some (.response state.captureId) else none
  responseBytes := (raw.map fun bytes => (bytes ++ streams.delta).length).getD 0
  responseSha256File := (raw.map fun bytes => sha256 (bytes ++ streams.delta)).getD []
  responseSha256Reported := reported state "response_sha256"
  responseSha256Match :=
    raw.map fun bytes =>
      hashMatch (reported state "response_sha256") (sha256 (bytes ++ streams.delta))
  condition := reported state "condition"
  packetsExpected := reported state "packets_expected"
  packetsSeen := reported state "packets_seen"
  intervalUs := (state.result.lookup "interval_us".toList).getD (signedDecimal state.intervalUs)
  sampleUs := reported state "sample_us"
  hostHelloToStart := state.startSendTime.map (· - state.helloTime)
  hostStartToLastBurst := do
    let start ← state.startSendTime
    let last ← state.lastBurstSendTime
    return last - start
  hostFirstToLastBurst := do
    let first ← state.firstBurstSendTime
    let last ← state.lastBurstSendTime
    return last - first
  hostHelloToResult := state.resultTime.map (· - state.helloTime)
  ones := reported state "ones"
  transitions := reported state "transitions"
  jitterMinUs := reported state "jitter_min_us"
  jitterMeanUs := reported state "jitter_mean_us"
  jitterMaxUs := reported state "jitter_max_us"
  responseSha256 := reported state "response_sha256"
  seedSha256 := reported state "seed_sha256"
  helloNonce := hexText state.helloNonce
  startNonce := hexText state.startNonce

def Disk.writeRow (disk : Disk) (row : TrialRow) : Disk := { disk with trials := disk.trials ++ [row] }

def finishDisk (sha256 : Bytes → Text) (state : TrialState) (raw : Option Bytes)
    (streams : JitterStreams) (disk : Disk) : Disk :=
  (writeResponse state.captureId raw streams (writeJitter state.captureId streams disk)).writeRow
    (trialRow sha256 state raw streams)

/-- The raw files are written before the jitter values are packed, so an
exception of the packing leaves them behind. -/
def finalizeTrial (sha256 : Bytes → Text) (state : TrialState) (disk : Disk) :
    Disk × Except PyError Bool :=
  match declaredLength state with
  | none => (disk, .error .valueError)
  | some rawLen =>
      let raw := completeRaw state rawLen
      let disk := writeRaw state raw disk
      match jitterStreams state with
      | .error error => (disk, .error error)
      | .ok streams => (finishDisk sha256 state raw streams disk, .ok raw.isSome)

/-! ## When the jitter packs -/

theorem jitter_streams_ok {state : TrialState} {streams : JitterStreams}
    (packed : jitterStreams state = .ok streams) :
    streams.values = jitterValues state ∧
      streams.delta = packJitterDeltaU32le (jitterValues state) := by
  rw [jitterStreams] at packed
  by_cases none : jitterValues state = []
  · rw [if_pos none, Except.ok.injEq] at packed
    rw [← packed, none]
    exact ⟨rfl, rfl⟩
  · simp only [if_neg none] at packed
    cases interval : effectiveInterval state with
    | none => simp [interval] at packed
    | some intervalUs =>
        cases residual : packJitterResidualS32le (jitterValues state) intervalUs with
        | none => simp [interval, residual] at packed
        | some bytes =>
            simp only [interval, residual, Except.ok.injEq] at packed
            rw [← packed]
            exact ⟨rfl, rfl⟩

/-- What the packing needs: a readable interval and residuals of 32 bits. -/
def JitterPacks (state : TrialState) : Prop :=
  jitterValues state = [] ∨
    ∃ intervalUs, effectiveInterval state = some intervalUs ∧
      ∀ value ∈ jitterValues state, residualFits intervalUs value

instance (state : TrialState) : Decidable (JitterPacks state) :=
  have readable : Decidable (∃ intervalUs, effectiveInterval state = some intervalUs ∧
      ∀ value ∈ jitterValues state, residualFits intervalUs value) :=
    match effectiveInterval state with
    | none => isFalse (by simp)
    | some intervalUs =>
        decidable_of_iff (∀ value ∈ jitterValues state, residualFits intervalUs value) (by simp)
  inferInstanceAs (Decidable (_ ∨ _))

theorem jitter_packs_iff (state : TrialState) :
    JitterPacks state ↔ ∃ streams, jitterStreams state = .ok streams := by
  unfold JitterPacks jitterStreams
  by_cases none : jitterValues state = []
  · rw [if_pos none]
    exact ⟨fun _ => ⟨_, rfl⟩, fun _ => .inl none⟩
  · simp only [if_neg none, packJitterResidualS32le]
    constructor
    · rintro (empty | ⟨intervalUs, interval, fits⟩)
      · exact absurd empty none
      · simp only [interval, if_pos fits]
        exact ⟨_, rfl⟩
    · rintro ⟨streams, packed⟩
      right
      cases interval : effectiveInterval state with
      | none => simp [interval] at packed
      | some intervalUs =>
          refine ⟨intervalUs, rfl, ?_⟩
          by_contra outside
          simp [interval, if_neg outside] at packed

/-! ## What a call changes -/

def OutFile.captureId : OutFile → Nat
  | .raw captureId => captureId
  | .rawPartial captureId => captureId
  | .jitterDelta captureId => captureId
  | .jitterResidual captureId => captureId
  | .response captureId => captureId

section Writes

variable (disk : Disk) (state : TrialState) (raw : Option Bytes) (captureId : Nat)
  (streams : JitterStreams)

theorem write_bytes_same (file : OutFile) (content : Bytes) :
    (disk.writeBytes file content).files file = some content := Function.update_self ..

theorem write_bytes_other {file other : OutFile} (content : Bytes) (different : other ≠ file) :
    (disk.writeBytes file content).files other = disk.files other :=
  Function.update_of_ne different ..

@[simp] theorem write_raw_all_bin : (writeRaw state raw disk).allBin = disk.allBin ++ raw.getD [] := by
  cases raw with
  | none =>
      rw [writeRaw, Option.getD_none, List.append_nil]
      split_ifs <;> rfl
  | some bytes => rfl

@[simp] theorem write_raw_all_jitter_delta :
    (writeRaw state raw disk).allJitterDelta = disk.allJitterDelta := by
  cases raw with
  | none => rw [writeRaw]; split_ifs <;> rfl
  | some bytes => rfl

@[simp] theorem write_raw_all_joint : (writeRaw state raw disk).allJoint = disk.allJoint := by
  cases raw with
  | none => rw [writeRaw]; split_ifs <;> rfl
  | some bytes => rfl

@[simp] theorem write_raw_trials : (writeRaw state raw disk).trials = disk.trials := by
  cases raw with
  | none => rw [writeRaw]; split_ifs <;> rfl
  | some bytes => rfl

theorem write_raw_file {bytes : Bytes} :
    (writeRaw state (some bytes) disk).files (.raw state.captureId) = some bytes :=
  write_bytes_same ..

theorem write_raw_files_other {file : OutFile} (other : file.captureId ≠ state.captureId) :
    (writeRaw state raw disk).files file = disk.files file := by
  cases raw with
  | none =>
      rw [writeRaw]
      split_ifs
      · apply write_bytes_other
        intro same
        exact other (congrArg OutFile.captureId same)
      · rfl
  | some bytes =>
      apply write_bytes_other
      intro same
      exact other (congrArg OutFile.captureId same)

@[simp] theorem write_jitter_all_bin : (writeJitter captureId streams disk).allBin = disk.allBin := by
  rw [writeJitter]
  split_ifs <;> rfl

@[simp] theorem write_jitter_all_joint :
    (writeJitter captureId streams disk).allJoint = disk.allJoint := by
  rw [writeJitter]
  split_ifs <;> rfl

@[simp] theorem write_jitter_trials : (writeJitter captureId streams disk).trials = disk.trials := by
  rw [writeJitter]
  split_ifs <;> rfl

/-- Jitter files are the only ones `writeJitter` touches. -/
theorem write_jitter_files {file : OutFile} (delta : file ≠ .jitterDelta captureId)
    (residual : file ≠ .jitterResidual captureId) :
    (writeJitter captureId streams disk).files file = disk.files file := by
  rw [writeJitter]
  split_ifs
  · rfl
  · exact (write_bytes_other _ _ residual).trans (write_bytes_other _ _ delta)

@[simp] theorem write_response_all_bin :
    (writeResponse captureId raw streams disk).allBin = disk.allBin := by
  cases raw <;> rfl

@[simp] theorem write_response_all_jitter_delta :
    (writeResponse captureId raw streams disk).allJitterDelta = disk.allJitterDelta := by
  cases raw <;> rfl

@[simp] theorem write_response_all_joint :
    (writeResponse captureId raw streams disk).allJoint =
      disk.allJoint ++ ((raw.map (· ++ streams.delta)).getD []) := by
  cases raw with
  | none => exact (List.append_nil _).symm
  | some bytes => rfl

@[simp] theorem write_response_trials :
    (writeResponse captureId raw streams disk).trials = disk.trials := by
  cases raw <;> rfl

theorem write_response_file {bytes : Bytes} :
    (writeResponse captureId (some bytes) streams disk).files (.response captureId) =
      some (bytes ++ streams.delta) :=
  write_bytes_same ..

theorem write_response_files {file : OutFile} (other : file ≠ .response captureId) :
    (writeResponse captureId raw streams disk).files file = disk.files file := by
  cases raw with
  | none => rfl
  | some bytes => exact write_bytes_other _ _ other

theorem write_raw_jitter (raw : Option Bytes) :
    (writeRaw state raw disk).jitterCsv = disk.jitterCsv ∧
      (writeRaw state raw disk).allJitterDelta = disk.allJitterDelta ∧
      (writeRaw state raw disk).allJitterResidual = disk.allJitterResidual := by
  cases raw with
  | none =>
      rw [writeRaw]
      split_ifs
      · exact ⟨rfl, rfl, rfl⟩
      · exact ⟨rfl, rfl, rfl⟩
  | some bytes => exact ⟨rfl, rfl, rfl⟩

variable (sha256 : Bytes → Text)

@[simp] theorem finish_disk_all_bin :
    (finishDisk sha256 state raw streams disk).allBin = disk.allBin :=
  (write_response_all_bin ..).trans (write_jitter_all_bin ..)

@[simp] theorem finish_disk_all_joint :
    (finishDisk sha256 state raw streams disk).allJoint =
      disk.allJoint ++ ((raw.map (· ++ streams.delta)).getD []) :=
  (write_response_all_joint ..).trans (congrArg (· ++ _) (write_jitter_all_joint ..))

@[simp] theorem finish_disk_trials :
    (finishDisk sha256 state raw streams disk).trials =
      disk.trials ++ [trialRow sha256 state raw streams] :=
  congrArg (· ++ _) ((write_response_trials ..).trans (write_jitter_trials ..))

theorem finish_disk_files {file : OutFile} (delta : file ≠ .jitterDelta state.captureId)
    (residual : file ≠ .jitterResidual state.captureId)
    (response : file ≠ .response state.captureId) :
    (finishDisk sha256 state raw streams disk).files file = disk.files file :=
  (write_response_files _ _ _ _ response).trans (write_jitter_files _ _ _ delta residual)

theorem finish_disk_without_jitter (none : streams.values = []) :
    (finishDisk sha256 state raw streams disk).jitterCsv = disk.jitterCsv ∧
      (finishDisk sha256 state raw streams disk).allJitterDelta = disk.allJitterDelta ∧
      (finishDisk sha256 state raw streams disk).allJitterResidual = disk.allJitterResidual := by
  unfold finishDisk writeJitter
  rw [if_pos none]
  cases raw with
  | none => exact ⟨rfl, rfl, rfl⟩
  | some bytes => exact ⟨rfl, rfl, rfl⟩

theorem finish_disk_with_jitter (some : streams.values ≠ []) :
    (finishDisk sha256 state raw streams disk).jitterCsv =
        Function.update disk.jitterCsv state.captureId (.some (jitterRows streams)) ∧
      (finishDisk sha256 state raw streams disk).allJitterDelta =
        disk.allJitterDelta ++ streams.delta ∧
      (finishDisk sha256 state raw streams disk).allJitterResidual =
        disk.allJitterResidual ++ streams.residual := by
  unfold finishDisk writeJitter
  rw [if_neg some]
  cases raw with
  | none => exact ⟨rfl, rfl, rfl⟩
  | some bytes => exact ⟨rfl, rfl, rfl⟩

end Writes

theorem finalize_trial_cases (sha256 : Bytes → Text) (state : TrialState) (disk : Disk) :
    (declaredLength state = none ∧
        finalizeTrial sha256 state disk = (disk, .error .valueError)) ∨
      ∃ rawLen, declaredLength state = some rawLen ∧
        ((∃ error, jitterStreams state = .error error ∧
            finalizeTrial sha256 state disk =
              (writeRaw state (completeRaw state rawLen) disk, .error error)) ∨
          ∃ streams, jitterStreams state = .ok streams ∧
            finalizeTrial sha256 state disk =
              (finishDisk sha256 state (completeRaw state rawLen) streams
                (writeRaw state (completeRaw state rawLen) disk),
                .ok (completeRaw state rawLen).isSome)) := by
  cases declared : declaredLength state with
  | none => exact .inl ⟨rfl, by rw [finalizeTrial, declared]⟩
  | some rawLen =>
      right
      refine ⟨rawLen, rfl, ?_⟩
      cases packed : jitterStreams state with
      | error error => exact .inl ⟨error, rfl, by rw [finalizeTrial, declared]; simp only [packed]⟩
      | ok streams => exact .inr ⟨streams, rfl, by rw [finalizeTrial, declared]; simp only [packed]⟩

end BootEntropy.Aeb
