import BootEntropy.Aeb.Reassembly

/-!
# The joint stream of a complete trial

The firmware hashes its raw buffer followed by every delta. The collector joins
the raw file with the deltas it holds when RAW_END comes, and no check counts
the jitter chunks.
-/

namespace BootEntropy.Aeb

open BootEntropy.Lib

set_option autoImplicit false

/-- What `sha256_response` feeds to the hash, update by update. -/
def sha256ResponseInput (raw : Bytes) (deltas : List UInt32) : Bytes :=
  raw ++ deltas.flatMap fun delta => leBytes 4 delta.toNat

section Response

variable (args : CollectorArgs) (host : Host) {cfg : Config} (trial : Trial cfg) (peer : Peer)

def JointStreamIs (response : Bytes) (before after : Disk) (row : TrialRow) : Prop :=
  (∃ file, row.responseFile = some file ∧ after.files file = some response) ∧
    after.allJoint = before.allJoint ++ response

theorem joint_stream_of_complete (calls : Nat → SendCall) {collector : Collector}
    {opened : TrialState} {before : List Rx} {finish : Rx} {row : TrialRow}
    (running : (collector.completed : Int) < args.trials)
    (known : collector.states.lookup (uploadKey trial peer) = some opened) (fresh : Fresh opened)
    (nonempty : 0 < trial.raw.length)
    (upload : ∀ rx ∈ before ++ [finish],
      rx.peer = peer ∧ rx.sent ∈ (sendRawStream trial calls).2)
    (first : ¬Delivered trial before .rawEnd)
    (ends : finish.sent = datagram (partMsg trial .rawEnd))
    (recorded : (collectorLoop args host collector (events (before ++ [finish]))).1.disk.trials =
      collector.disk.trials ++ [row])
    (complete : row.complete = true) (response : Bytes) :
    JointStreamIs response collector.disk
        (collectorLoop args host collector (events (before ++ [finish]))).1.disk row ↔
      response = trial.raw ++ packDeltas (receivedDeltas trial fun index =>
        decide (Delivered trial before (.jitterChunk index))) := by
  obtain ⟨_, state, _, _, closing, fails, finishes⟩ :=
    loop_closes args host calls running known fresh nonempty upload first ends
  cases packed : jitterStreams state with
  | error error =>
      have kept := fails error packed []
      rw [List.append_nil, recorded] at kept
      exact absurd kept (by simp)
  | ok streams =>
      obtain ⟨closed, _, _, disk, run⟩ := finishes streams packed
      have alone := run []
      rw [List.append_nil, collectorLoop] at alone
      rw [alone] at recorded ⊢
      rw [disk, finish_disk_trials, write_raw_trials] at recorded
      have rowEq := List.singleton_inj.mp (List.append_cancel_left recorded)
      rcases closing.raw with ⟨_, raw⟩ | ⟨_, raw⟩
      · rw [raw] at rowEq disk
        have values := (jitter_streams_ok packed).2
        rw [closing.jitter, pack_unpacked] at values
        have joint : closed.disk.allJoint =
            collector.disk.allJoint ++ (trial.raw ++ streams.delta) := by
          rw [disk, finish_disk_all_joint, write_raw_all_joint]
          rfl
        have content : closed.disk.files (.response state.captureId) =
            some (trial.raw ++ streams.delta) := by
          rw [disk]
          exact write_response_file ..
        have file : row.responseFile = some (.response state.captureId) := by
          rw [← rowEq]
          rfl
        rw [JointStreamIs, joint, List.append_cancel_left_eq, values]
        constructor
        · exact fun both => both.2.symm
        · intro same
          rw [same]
          exact ⟨⟨_, file, content.trans (by rw [values])⟩, rfl⟩
      · rw [raw] at rowEq
        rw [← rowEq] at complete
        exact absurd complete Bool.false_ne_true

/-- A complete trial's joint stream is the firmware's response exactly when no
jitter chunk was lost before RAW_END or cut by the receiver. -/
theorem joint_stream_is_response_iff (calls : Nat → SendCall) {collector : Collector}
    {opened : TrialState} {before : List Rx} {finish : Rx} {row : TrialRow}
    (running : (collector.completed : Int) < args.trials)
    (known : collector.states.lookup (uploadKey trial peer) = some opened) (fresh : Fresh opened)
    (nonempty : 0 < trial.raw.length)
    (upload : ∀ rx ∈ before ++ [finish],
      rx.peer = peer ∧ rx.sent ∈ (sendRawStream trial calls).2)
    (first : ¬Delivered trial before .rawEnd)
    (ends : finish.sent = datagram (partMsg trial .rawEnd))
    (recorded : (collectorLoop args host collector (events (before ++ [finish]))).1.disk.trials =
      collector.disk.trials ++ [row])
    (complete : row.complete = true) :
    JointStreamIs (sha256ResponseInput trial.raw trial.deltas) collector.disk
        (collectorLoop args host collector (events (before ++ [finish]))).1.disk row ↔
      ∀ index < jitterCount trial, Delivered trial before (.jitterChunk index) ∧
        (jitterPart trial index).length ≤ payloadLimit := by
  rw [joint_stream_of_complete args host trial peer calls running known fresh nonempty upload first
    ends recorded complete, sha256ResponseInput, ← packDeltas, List.append_cancel_left_eq]
  have all := received_deltas_eq_iff trial
    fun index => decide (Delivered trial before (.jitterChunk index))
  simp only [decide_eq_true_eq] at all
  rw [← all]
  exact ⟨fun same => (pack_deltas_injective same).symm, fun same => by rw [same]⟩

end Response

/-! ## The small upload -/

def tinyDisk (before : List Rx) : Disk :=
  (collectorLoop defaultCollectorArgs quietHost tinyCollector
    (events (before ++ [tinyRx .rawEnd]))).1.disk

private theorem exists_tiny_row {before : List Rx}
    (completes : (tinyDisk before).trials.map TrialRow.complete = [true]) :
    ∃ row, (tinyDisk before).trials = emptyDisk.trials ++ [row] ∧ row.complete = true := by
  obtain ⟨row, rows, complete⟩ := List.map_eq_singleton_iff.mp completes
  exact ⟨row, rows, complete⟩

/-- With its one jitter chunk delivered the small upload keeps the response. -/
theorem tiny_joint_stream_is_response_iff :
    ∃ row, JointStreamIs (sha256ResponseInput [1, 2, 3, 4, 5] [7]) emptyDisk
        (tinyDisk [tinyRx (.rawChunk 1), tinyRx (.jitterChunk 0), tinyRx (.rawChunk 0)]) row ↔
      ∀ index < jitterCount tinyTrial,
        Delivered tinyTrial [tinyRx (.rawChunk 1), tinyRx (.jitterChunk 0), tinyRx (.rawChunk 0)]
          (.jitterChunk index) ∧ (jitterPart tinyTrial index).length ≤ payloadLimit := by
  have completes : (tinyDisk [tinyRx (.rawChunk 1), tinyRx (.jitterChunk 0),
      tinyRx (.rawChunk 0)]).trials.map TrialRow.complete = [true] := by decide +kernel
  obtain ⟨row, recorded, complete⟩ := exists_tiny_row completes
  have known : tinyCollector.states.lookup (uploadKey tinyTrial tinyPeer) = some tinyOpened :=
    AList.lookup_insert _
  exact ⟨row, joint_stream_is_response_iff defaultCollectorArgs quietHost tinyTrial tinyPeer
    (goodSends tinyTrial) (by decide) known ⟨rfl, rfl, rfl, rfl⟩ (by decide) (by decide +kernel)
    (by decide +kernel) rfl recorded complete⟩

/-- Without the jitter chunk the trial is complete all the same, and its joint
stream is the raw buffer alone. -/
theorem lost_jitter_breaks_response :
    ¬∀ row, (tinyDisk [tinyRx (.rawChunk 0), tinyRx (.rawChunk 1)]).trials =
          emptyDisk.trials ++ [row] → row.complete = true →
        JointStreamIs (sha256ResponseInput tinyTrial.raw tinyTrial.deltas) emptyDisk
          (tinyDisk [tinyRx (.rawChunk 0), tinyRx (.rawChunk 1)]) row := by
  intro always
  have completes : (tinyDisk [tinyRx (.rawChunk 0), tinyRx (.rawChunk 1)]).trials.map
      TrialRow.complete = [true] := by decide +kernel
  obtain ⟨row, recorded, complete⟩ := exists_tiny_row completes
  have joint := (always row recorded complete).2
  exact absurd joint (by decide +kernel)

end BootEntropy.Aeb
