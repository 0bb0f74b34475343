import BootEntropy.Aeb.Analysis
import BootEntropy.Aeb.Append

/-!
# Collector and analyzer

The streams the collector appends to while it runs against the streams the analyzer
rebuilds from the files the rows cite, in every directory a session reaches.
-/

namespace BootEntropy.Aeb

open BootEntropy.Lib

set_option autoImplicit false

/-! ## The jitter files of one trial -/

section Packed

variable {state : TrialState} {streams : JitterStreams}

theorem jitter_values_small (state : TrialState) : ∀ value ∈ jitterValues state, value < 2 ^ 32 := by
  have words (payload : Bytes) : ∀ value ∈ unpackU32s payload, value < 2 ^ 32 := by
    fun_induction unpackU32s payload with
    | case1 a b c d rest ih =>
        intro value member
        rcases List.mem_cons.mp member with rfl | later
        · have small := le_value_lt [a, b, c, d]
          simp only [List.length_cons, List.length_nil] at small
          omega
        · exact ih value later
    | case2 payload short =>
        intro value member
        cases member
  intro value member
  obtain ⟨index, _, inside⟩ := List.mem_flatMap.mp member
  exact words _ value inside

theorem jitter_streams_packed (some : jitterValues state ≠ [])
    (packed : jitterStreams state = .ok streams) :
    (∀ value ∈ jitterValues state, residualFits streams.intervalUs value) ∧
      streams.residual = (jitterValues state).flatMap fun value =>
        leBytes 4 (((value : Int) - streams.intervalUs) % 2 ^ 32).toNat := by
  rw [jitterStreams] at packed
  simp only [if_neg some] at packed
  cases interval : effectiveInterval state with
  | none => simp [interval] at packed
  | some intervalUs =>
      simp only [interval, packJitterResidualS32le] at packed
      by_cases fits : ∀ value ∈ jitterValues state, residualFits intervalUs value
      · rw [if_pos fits] at packed
        rw [← Except.ok.inj packed]
        exact ⟨fits, rfl⟩
      · rw [if_neg fits] at packed
        cases packed

theorem jitter_rows_values (streams : JitterStreams) :
    (jitterRows streams).map (·.deltaUs) = streams.values ∧
      (jitterRows streams).map (·.residualUs) =
        streams.values.map fun value : Nat => (value : Int) - streams.intervalUs := by
  unfold jitterRows
  constructor
  · apply List.ext_getElem
    · simp
    · intro index _ _
      simp
  · apply List.ext_getElem
    · simp
    · intro index _ _
      simp

theorem jitter_rows_fit (packed : jitterStreams state = .ok streams) :
    JitterFits (jitterRows streams) := by
  have values := (jitter_streams_ok packed).1
  intro row member
  by_cases none : jitterValues state = []
  · rw [jitterRows, values, none] at member
    cases member
  · have delta : row.deltaUs ∈ jitterValues state := by
      rw [← values, ← (jitter_rows_values streams).1]
      exact List.mem_map_of_mem member
    have residual := List.mem_map_of_mem (f := (·.residualUs)) member
    rw [(jitter_rows_values streams).2, values] at residual
    obtain ⟨value, inside, same⟩ := List.mem_map.mp residual
    have fits := (jitter_streams_packed none packed).1 value inside
    unfold residualFits at fits
    rw [← same]
    exact ⟨jitter_values_small state _ delta, fits⟩

theorem delta_bytes_rows (packed : jitterStreams state = .ok streams) :
    deltaBytes (jitterRows streams) = streams.delta := by
  obtain ⟨values, delta⟩ := jitter_streams_ok packed
  rw [deltaBytes, (jitter_rows_values streams).1, values, delta]

theorem residual_bytes_rows (some : jitterValues state ≠ [])
    (packed : jitterStreams state = .ok streams) :
    residualBytes (jitterRows streams) = streams.residual := by
  have rows : residualBytes (jitterRows streams) =
      ((jitterRows streams).map (·.residualUs)).flatMap
        fun residual => leBytes 4 (residual % 2 ^ 32).toNat := by
    rw [List.flatMap_map]
    rfl
  rw [rows, (jitter_rows_values streams).2, List.flatMap_map, (jitter_streams_ok packed).1,
    (jitter_streams_packed some packed).2]

end Packed

/-! ## One finalized trial -/

/-- The files of an earlier row hold what the trial is about to write over them. -/
def SameFiles (disk : Disk) (state : TrialState) (msg : Message) (row : TrialRow) : Prop :=
  citedRaw disk row = receivedRaw state msg ∧
    (jitterStreams state).toOption.map (fun streams => (streams.delta, streams.residual)) =
      some (deltaBytes (citedJitter disk row), residualBytes (citedJitter disk row))

instance sameFilesDecidable (disk : Disk) (state : TrialState) (msg : Message) (row : TrialRow) :
    Decidable (SameFiles disk state msg row) := inferInstanceAs (Decidable (_ ∧ _))

/-- The trial is complete just when it has jitter, and its files are new, or no
different from the ones they replace. -/
structure KeepsFiles (disk : Disk) (state : TrialState) (msg : Message) : Prop where
  jittered : RawCompletes state msg ↔ jitterValues state ≠ []
  unclashed : RawCompletes state msg → ∀ row ∈ completeRows disk,
    row.captureId = state.captureId → SameFiles disk state msg row

/-- The files agree, and the row of the trial can be read. -/
structure KeepsSources (disk : Disk) (state : TrialState) (msg : Message) : Prop
    extends KeepsFiles disk state msg where
  listed : (missingCell (missingChunks (endFrame state msg))).length ≤ csvFieldLimit

instance keepsSourcesDecidable (disk : Disk) (state : TrialState) (msg : Message) :
    Decidable (KeepsSources disk state msg) :=
  decidable_of_iff
    (((RawCompletes state msg ↔ jitterValues state ≠ []) ∧
      (RawCompletes state msg → ∀ row ∈ completeRows disk,
        row.captureId = state.captureId → SameFiles disk state msg row)) ∧
      (missingCell (missingChunks (endFrame state msg))).length ≤ csvFieldLimit)
    ⟨fun all => ⟨⟨all.1.1, all.1.2⟩, all.2⟩,
      fun keeps => ⟨⟨keeps.jittered, keeps.unclashed⟩, keeps.listed⟩⟩

section Recorded

variable (sha256 : Bytes → Text) {disk : Disk} {state : TrialState} {msg : Message}
  {streams : JitterStreams}

theorem complete_rows_recorded :
    completeRows (recordedDisk sha256 disk state msg streams) =
      completeRows disk ++
        if (closedRaw state msg).isSome then [recordedRow sha256 state msg streams] else [] := by
  unfold completeRows
  rw [recorded_trials, List.filter_append, List.filter_singleton, cond_eq_ite]
  rfl

theorem recorded_without_jitter (packed : jitterStreams (endFrame state msg) = .ok streams)
    (none : jitterValues state = []) :
    (recordedDisk sha256 disk state msg streams).jitterCsv = disk.jitterCsv ∧
      (recordedDisk sha256 disk state msg streams).allJitterDelta = disk.allJitterDelta ∧
      (recordedDisk sha256 disk state msg streams).allJitterResidual = disk.allJitterResidual := by
  have empty : streams.values = [] := (jitter_streams_ok packed).1.trans none
  unfold recordedDisk
  rw [(finish_disk_without_jitter _ _ _ _ sha256 empty).1,
    (finish_disk_without_jitter _ _ _ _ sha256 empty).2.1,
    (finish_disk_without_jitter _ _ _ _ sha256 empty).2.2]
  exact write_raw_jitter _ _ _

theorem recorded_with_jitter (packed : jitterStreams (endFrame state msg) = .ok streams)
    (some : jitterValues state ≠ []) :
    (recordedDisk sha256 disk state msg streams).jitterCsv =
        Function.update disk.jitterCsv state.captureId (.some (jitterRows streams)) ∧
      (recordedDisk sha256 disk state msg streams).allJitterDelta =
        disk.allJitterDelta ++ streams.delta ∧
      (recordedDisk sha256 disk state msg streams).allJitterResidual =
        disk.allJitterResidual ++ streams.residual := by
  have nonempty : streams.values ≠ [] := by
    rw [(jitter_streams_ok packed).1]
    exact some
  have kept := write_raw_jitter disk (endFrame state msg) (closedRaw state msg)
  unfold recordedDisk
  rw [(finish_disk_with_jitter _ _ _ _ sha256 nonempty).1,
    (finish_disk_with_jitter _ _ _ _ sha256 nonempty).2.1,
    (finish_disk_with_jitter _ _ _ _ sha256 nonempty).2.2, kept.1, kept.2.1, kept.2.2]
  exact ⟨rfl, rfl, rfl⟩

theorem recorded_row_jitter_file (packed : jitterStreams (endFrame state msg) = .ok streams) :
    (recordedRow sha256 state msg streams).jitterFile =
      if jitterValues state = [] then none else some state.captureId := by
  unfold recordedRow trialRow
  rw [(jitter_streams_ok packed).1]
  rfl

theorem cited_raw_recorded (filed : Filed disk) {row : TrialRow} (member : row ∈ completeRows disk) :
    citedRaw (recordedDisk sha256 disk state msg streams) row =
      if row.captureId = state.captureId then (closedRaw state msg).getD (citedRaw disk row)
      else citedRaw disk row := by
  have rawFile := (filed.raw row member).1
  unfold citedRaw
  rw [rawFile]
  show ((recordedDisk sha256 disk state msg streams).files (.raw row.captureId)).getD [] = _
  split_ifs with clash
  · rw [clash]
    cases raw : closedRaw state msg with
    | none => rw [recorded_raw_file_of_gaps sha256 raw]; rfl
    | some bytes => rw [recorded_raw_file sha256 raw]; rfl
  · rw [@recorded_files_other sha256 disk state msg streams (.raw row.captureId) clash]
    rfl

theorem cited_jitter_recorded (filed : Filed disk)
    (packed : jitterStreams (endFrame state msg) = .ok streams) (some : jitterValues state ≠ [])
    {row : TrialRow} (member : row ∈ completeRows disk) (jittered : row.jitterFile ≠ none) :
    citedJitter (recordedDisk sha256 disk state msg streams) row =
      if row.captureId = state.captureId then jitterRows streams else citedJitter disk row := by
  have jitterFile := ((filed.jitter row member).resolve_left jittered).1
  unfold citedJitter
  rw [jitterFile, (recorded_with_jitter sha256 packed some).1]
  show (Function.update disk.jitterCsv state.captureId (.some (jitterRows streams))
    row.captureId).getD [] = _
  split_ifs with clash
  · rw [clash, Function.update_self]
    rfl
  · rw [Function.update_of_ne clash]
    rfl

theorem filed_recorded (filed : Filed disk)
    (packed : jitterStreams (endFrame state msg) = .ok streams) :
    Filed (recordedDisk sha256 disk state msg streams) := by
  have fits := jitter_rows_fit packed
  have newMember {row : TrialRow} (new : row ∈
      if (closedRaw state msg).isSome then [recordedRow sha256 state msg streams] else []) :
      (∃ bytes, closedRaw state msg = some bytes) ∧
        row = recordedRow sha256 state msg streams := by
    split_ifs at new with complete
    · exact ⟨Option.isSome_iff_exists.mp complete, List.mem_singleton.mp new⟩
    · cases new
  constructor
  · intro row member
    rw [complete_rows_recorded] at member
    rcases List.mem_append.mp member with old | new
    · obtain ⟨rawFile, bytes, written⟩ := filed.raw row old
      refine ⟨rawFile, ?_⟩
      by_cases clash : row.captureId = state.captureId
      · cases raw : closedRaw state msg with
        | none =>
            rw [clash] at written ⊢
            exact ⟨bytes, (recorded_raw_file_of_gaps sha256 raw).trans written⟩
        | some content =>
            rw [clash]
            exact ⟨content, recorded_raw_file sha256 raw⟩
      · exact ⟨bytes, (@recorded_files_other sha256 disk state msg streams (.raw row.captureId) clash).trans written⟩
    · obtain ⟨⟨bytes, raw⟩, rfl⟩ := newMember new
      have cited : (recordedRow sha256 state msg streams).rawFile = some (.raw state.captureId) := by
        unfold recordedRow trialRow
        rw [raw]
        rfl
      exact ⟨cited, bytes, recorded_raw_file sha256 raw⟩
  · intro row member
    rw [complete_rows_recorded] at member
    by_cases none : jitterValues state = []
    · rw [(recorded_without_jitter sha256 packed none).1]
      rcases List.mem_append.mp member with old | new
      · exact filed.jitter row old
      · obtain ⟨_, rfl⟩ := newMember new
        left
        rw [recorded_row_jitter_file sha256 packed, if_pos none]
    · rw [(recorded_with_jitter sha256 packed none).1]
      rcases List.mem_append.mp member with old | new
      · rcases filed.jitter row old with bare | ⟨jitterFile, rows, csv, rowsFit⟩
        · exact .inl bare
        · refine .inr ⟨jitterFile, ?_⟩
          by_cases clash : row.captureId = state.captureId
          · rw [clash, Function.update_self]
            exact ⟨_, rfl, fits⟩
          · rw [Function.update_of_ne clash]
            exact ⟨rows, csv, rowsFit⟩
      · obtain ⟨_, rfl⟩ := newMember new
        right
        rw [recorded_row_jitter_file sha256 packed, if_neg none]
        refine ⟨rfl, jitterRows streams, ?_, fits⟩
        exact Function.update_self ..

theorem Rebuilt.joint_length (rebuilt : Rebuilt disk) :
    disk.allJoint.length = disk.allBin.length + disk.allJitterDelta.length := by
  rw [← rebuilt.joint, ← rebuilt.raw, ← rebuilt.delta]
  unfold rebuiltStreams
  dsimp only
  induction completeRows disk with
  | nil => rfl
  | cons row rest ih =>
      simp only [List.flatMap_cons, List.length_append] at ih ⊢
      omega

/-- A partial trial with jitter makes the collected streams longer than the rows do. -/
theorem not_rebuilt_of_partial_jitter (rebuilt : Rebuilt disk)
    (packed : jitterStreams (endFrame state msg) = .ok streams) (some : jitterValues state ≠ [])
    (raw : closedRaw state msg = none) :
    ¬Rebuilt (recordedDisk sha256 disk state msg streams) := by
  intro after
  have long := after.joint_length
  have short := rebuilt.joint_length
  rw [recorded_all_joint, recorded_all_bin, (recorded_with_jitter sha256 packed some).2.1, raw]
    at long
  simp only [Option.map_none, Option.getD_none, List.append_nil, List.length_append] at long
  have delta : streams.delta.length = 4 * (jitterValues state).length := by
    rw [(jitter_streams_ok packed).2]
    show (packJitterDeltaU32le (jitterValues state)).length = 4 * (jitterValues state).length
    rw [packJitterDeltaU32le, List.length_flatMap]
    simp [le_bytes_length, Nat.mul_comm]
  have positive := List.length_pos_of_ne_nil some
  omega

theorem rebuilt_of_partial_bare (filed : Filed disk)
    (packed : jitterStreams (endFrame state msg) = .ok streams) (none : jitterValues state = [])
    (raw : closedRaw state msg = .none) (rebuilt : Rebuilt disk) :
    Rebuilt (recordedDisk sha256 disk state msg streams) := by
  have rows : completeRows (recordedDisk sha256 disk state msg streams) = completeRows disk := by
    rw [complete_rows_recorded, raw]
    exact List.append_nil _
  have raws : ∀ row ∈ completeRows disk,
      citedRaw (recordedDisk sha256 disk state msg streams) row = citedRaw disk row := by
    intro row member
    rw [cited_raw_recorded sha256 filed member, raw]
    exact ite_self _
  have jitters : citedJitter (recordedDisk sha256 disk state msg streams) = citedJitter disk := by
    funext row
    unfold citedJitter
    rw [(recorded_without_jitter sha256 packed none).1]
  have joints : ∀ row ∈ completeRows disk,
      citedRaw (recordedDisk sha256 disk state msg streams) row ++
        deltaBytes (citedJitter disk row) =
      citedRaw disk row ++ deltaBytes (citedJitter disk row) := by
    intro row member
    rw [raws row member]
  constructor
  · rw [rows]
    exact rebuilt.jittered
  · rw [recorded_all_bin, raw, Option.getD_none, List.append_nil, ← rebuilt.raw]
    unfold rebuiltStreams
    dsimp only
    rw [rows]
    exact List.flatMap_congr raws
  · rw [recorded_all_joint, raw, Option.map_none, Option.getD_none, List.append_nil, ← rebuilt.joint]
    unfold rebuiltStreams
    dsimp only
    rw [rows, jitters]
    exact List.flatMap_congr joints
  · rw [(recorded_without_jitter sha256 packed none).2.1, ← rebuilt.delta]
    unfold rebuiltStreams
    dsimp only
    rw [rows, jitters]
  · rw [(recorded_without_jitter sha256 packed none).2.2, ← rebuilt.residual]
    unfold rebuiltStreams
    dsimp only
    rw [rows, jitters]

theorem same_files_iff {bytes : Bytes} (raw : closedRaw state msg = some bytes)
    (packed : jitterStreams (endFrame state msg) = .ok streams) (row : TrialRow) :
    SameFiles disk state msg row ↔ citedRaw disk row = bytes ∧
      deltaBytes (citedJitter disk row) = streams.delta ∧
      residualBytes (citedJitter disk row) = streams.residual := by
  have received := ((closed_raw_some_iff state msg bytes).mp raw).2
  have same : jitterStreams state = .ok streams := packed
  unfold SameFiles
  rw [← received, same]
  simp only [Except.toOption, Option.map_some, Option.some.injEq, Prod.mk.injEq]
  apply and_congr_right
  intro _
  exact and_congr eq_comm eq_comm

/-- Behind a complete trial with jitter the analyzer still agrees just when no older
file was replaced by a different one. -/
theorem rebuilt_of_complete_iff (filed : Filed disk) (rebuilt : Rebuilt disk)
    (packed : jitterStreams (endFrame state msg) = .ok streams) (some : jitterValues state ≠ [])
    {bytes : Bytes} (raw : closedRaw state msg = .some bytes) :
    Rebuilt (recordedDisk sha256 disk state msg streams) ↔
      ∀ row ∈ completeRows disk, row.captureId = state.captureId → SameFiles disk state msg row := by
  have rows : completeRows (recordedDisk sha256 disk state msg streams) =
      completeRows disk ++ [recordedRow sha256 state msg streams] := by
    rw [complete_rows_recorded, raw]
    rfl
  have jitterFile : (recordedRow sha256 state msg streams).jitterFile = .some state.captureId := by
    rw [recorded_row_jitter_file sha256 packed, if_neg some]
  have lastRaw : citedRaw (recordedDisk sha256 disk state msg streams)
      (recordedRow sha256 state msg streams) = bytes := by
    rw [citedRaw, recorded_row_raw_file sha256 raw]
    rfl
  have lastJitter : citedJitter (recordedDisk sha256 disk state msg streams)
      (recordedRow sha256 state msg streams) = jitterRows streams := by
    rw [citedJitter, jitterFile, (recorded_with_jitter sha256 packed some).1]
    show (Function.update disk.jitterCsv state.captureId _ state.captureId).getD [] = _
    rw [Function.update_self]
    rfl
  have behind {view : TrialRow → Bytes} {stream last : Bytes}
      (lastView : view (recordedRow sha256 state msg streams) = last) :
      (completeRows disk ++ [recordedRow sha256 state msg streams]).flatMap view = stream ++ last ↔
        (completeRows disk).flatMap view = stream := by
    rw [List.flatMap_append, List.flatMap_singleton, lastView]
    exact List.append_left_inj last
  have oldJitter : ∀ row ∈ completeRows disk, row.captureId = state.captureId →
      citedJitter disk row = (disk.jitterCsv state.captureId).getD [] := by
    intro row member clash
    have cited := ((filed.jitter row member).resolve_left (rebuilt.jittered row member)).1
    rw [citedJitter, cited, clash]
    rfl
  have newRaw : ∀ row ∈ completeRows disk,
      citedRaw (recordedDisk sha256 disk state msg streams) row =
        if row.captureId = state.captureId then bytes else citedRaw disk row := by
    intro row member
    rw [cited_raw_recorded sha256 filed member, raw]
    rfl
  have newJitter : ∀ row ∈ completeRows disk,
      citedJitter (recordedDisk sha256 disk state msg streams) row =
        if row.captureId = state.captureId then jitterRows streams else citedJitter disk row :=
    fun row member =>
      cited_jitter_recorded sha256 filed packed some member (rebuilt.jittered row member)
  have raws := @flat_map_overwritten_iff _ _ (citedRaw disk)
    (citedRaw (recordedDisk sha256 disk state msg streams)) (completeRows disk)
    (fun row => row.captureId = state.captureId) ((disk.files (.raw state.captureId)).getD []) bytes
    (fun row member clash => by
      rw [newRaw row member, if_pos clash, citedRaw, (filed.raw row member).1, clash]
      exact ⟨rfl, rfl⟩)
    (fun row member other => by rw [newRaw row member, if_neg other])
  have jitters (view : List JitterRow → Bytes) := @flat_map_overwritten_iff _ _
    (fun row => view (citedJitter disk row))
    (fun row => view (citedJitter (recordedDisk sha256 disk state msg streams) row))
    (completeRows disk) (fun row => row.captureId = state.captureId)
    (view ((disk.jitterCsv state.captureId).getD [])) (view (jitterRows streams))
    (fun row member clash => by
      rw [newJitter row member, if_pos clash, oldJitter row member clash]
      exact ⟨rfl, rfl⟩)
    (fun row member other => by rw [newJitter row member, if_neg other])
  have deltas := jitters deltaBytes
  have residuals := jitters residualBytes
  rw [delta_bytes_rows packed] at deltas
  rw [residual_bytes_rows some packed] at residuals
  have lastDelta : deltaBytes (citedJitter (recordedDisk sha256 disk state msg streams)
      (recordedRow sha256 state msg streams)) = streams.delta := by
    rw [lastJitter, delta_bytes_rows packed]
  have lastResidual : residualBytes (citedJitter (recordedDisk sha256 disk state msg streams)
      (recordedRow sha256 state msg streams)) = streams.residual := by
    rw [lastJitter, residual_bytes_rows some packed]
  have written := @recorded_with_jitter sha256 disk state msg streams packed some
  constructor
  · intro after row member clash
    have rawSame := after.raw
    have deltaSame := after.delta
    have residualSame := after.residual
    unfold rebuiltStreams at rawSame deltaSame residualSame
    dsimp only at rawSame deltaSame residualSame
    rw [rows, recorded_all_bin, raw, Option.getD_some, behind lastRaw, ← rebuilt.raw] at rawSame
    rw [rows, written.2.1, behind lastDelta, ← rebuilt.delta] at deltaSame
    rw [rows, written.2.2, behind lastResidual, ← rebuilt.residual] at residualSame
    apply (same_files_iff raw packed row).mpr
    exact ⟨raws.mp rawSame row member clash, deltas.mp deltaSame row member clash,
      residuals.mp residualSame row member clash⟩
  · intro same
    have sources : ∀ row ∈ completeRows disk, row.captureId = state.captureId →
        citedRaw disk row = bytes ∧ deltaBytes (citedJitter disk row) = streams.delta ∧
          residualBytes (citedJitter disk row) = streams.residual :=
      fun row member clash => (same_files_iff raw packed row).mp (same row member clash)
    have joints : ∀ row ∈ completeRows disk,
        citedRaw (recordedDisk sha256 disk state msg streams) row ++
            deltaBytes (citedJitter (recordedDisk sha256 disk state msg streams) row) =
          citedRaw disk row ++ deltaBytes (citedJitter disk row) := by
      intro row member
      rw [newRaw row member, newJitter row member]
      split_ifs with clash
      · rw [delta_bytes_rows packed, (sources row member clash).1, (sources row member clash).2.1]
      · rfl
    constructor
    · intro row member
      rw [rows] at member
      rcases List.mem_append.mp member with old | new
      · exact rebuilt.jittered row old
      · rw [List.mem_singleton.mp new, jitterFile]
        exact Option.some_ne_none _
    · unfold rebuiltStreams
      dsimp only
      rw [rows, recorded_all_bin, raw, Option.getD_some, behind lastRaw, ← rebuilt.raw]
      exact raws.mpr fun row member clash => (sources row member clash).1
    · unfold rebuiltStreams
      dsimp only
      rw [rows, recorded_all_joint, raw, Option.map_some, Option.getD_some,
        behind (by rw [lastRaw, lastDelta]), ← rebuilt.joint]
      exact List.flatMap_congr joints
    · unfold rebuiltStreams
      dsimp only
      rw [rows, written.2.1, behind lastDelta, ← rebuilt.delta]
      exact deltas.mpr fun row member clash => (sources row member clash).2.1
    · unfold rebuiltStreams
      dsimp only
      rw [rows, written.2.2, behind lastResidual, ← rebuilt.residual]
      exact residuals.mpr fun row member clash => (sources row member clash).2.2

theorem rebuilt_recorded_iff (filed : Filed disk) (rebuilt : Rebuilt disk)
    (packed : jitterStreams (endFrame state msg) = .ok streams) :
    Rebuilt (recordedDisk sha256 disk state msg streams) ↔ KeepsFiles disk state msg := by
  have completes : RawCompletes state msg ↔ closedRaw state msg ≠ none := by
    rw [Option.ne_none_iff_exists']
    constructor
    · intro complete
      exact ⟨_, (closed_raw_some_iff state msg _).mpr ⟨complete, rfl⟩⟩
    · rintro ⟨bytes, raw⟩
      exact ((closed_raw_some_iff state msg bytes).mp raw).1
  cases raw : closedRaw state msg with
  | none =>
      have incomplete : ¬RawCompletes state msg := fun complete => completes.mp complete raw
      by_cases bare : jitterValues state = []
      · apply iff_of_true
        · exact rebuilt_of_partial_bare sha256 filed packed bare raw rebuilt
        · exact ⟨iff_of_false incomplete (not_not_intro bare), fun complete => absurd complete incomplete⟩
      · apply iff_of_false
        · exact not_rebuilt_of_partial_jitter sha256 rebuilt packed bare raw
        · exact fun keeps => incomplete (keeps.jittered.mpr bare)
  | some bytes =>
      have complete : RawCompletes state msg := completes.mpr (by rw [raw]; exact Option.some_ne_none _)
      by_cases bare : jitterValues state = []
      · apply iff_of_false
        · intro after
          apply after.jittered (recordedRow sha256 state msg streams)
          · rw [complete_rows_recorded, raw]
            exact List.mem_append_right _ (List.mem_singleton_self _)
          · rw [recorded_row_jitter_file sha256 packed, if_pos bare]
        · exact fun keeps => keeps.jittered.mp complete bare
      · rw [rebuilt_of_complete_iff sha256 filed rebuilt packed bare raw]
        constructor
        · exact fun same => ⟨iff_of_true complete bare, fun _ => same⟩
        · exact fun keeps => keeps.unclashed complete

theorem listed_recorded_iff (listed : Listed disk) :
    Listed (recordedDisk sha256 disk state msg streams) ↔
      (missingCell (missingChunks (endFrame state msg))).length ≤ csvFieldLimit := by
  unfold Listed
  rw [recorded_trials, List.forall_mem_append, List.forall_mem_singleton]
  exact and_iff_right listed

end Recorded

/-! ## One datagram -/

section Datagram

variable (args : CollectorArgs) (host : Host) {collector : Collector} {rx : Rx}

theorem quiet_datagram_cases (quiet : (handleDatagram args host collector rx).2 = none) :
    (∃ msg state streams, parseMessage rx.data = some msg ∧ msg.msgType = aebTypeRawEnd ∧
        collector.states.lookup (rx.peer, (msg.trial : Int)) = some state ∧
        jitterStreams (endFrame state msg) = .ok streams ∧
        (handleDatagram args host collector rx).1.disk =
          recordedDisk host.sha256 collector.disk state msg streams) ∨
      (∀ ok, OnRawEnd ok collector rx) ∧
        ∃ csv, (handleDatagram args host collector rx).1.disk =
          { collector.disk with stimulusCsv := csv } := by
  by_cases ends : ∃ msg state, parseMessage rx.data = some msg ∧ msg.msgType = aebTypeRawEnd ∧
      collector.states.lookup (rx.peer, (msg.trial : Int)) = some state
  · obtain ⟨msg, state, parsed, rawEnd, known⟩ := ends
    left
    rw [handle_datagram_raw_end args host parsed rawEnd known, handleRawEnd] at quiet ⊢
    rcases final : finalizeTrial host.sha256 (endFrame state msg) (collector.received rx).disk with
      ⟨disk, error | complete⟩
    · rw [final] at quiet
      cases quiet
    · obtain ⟨streams, written, _, packed⟩ := returned_disk host.sha256 _ _ _ final
      exact ⟨msg, state, streams, parsed, rawEnd, known, packed, written⟩
  · right
    have untouched : ∀ ok, OnRawEnd ok collector rx := by
      intro ok msg state parsed rawEnd known
      exact absurd ⟨msg, state, parsed, rawEnd, known⟩ ends
    refine ⟨untouched, ?_⟩
    have step := handle_datagram_disk args host collector rx
    generalize (handleDatagram args host collector rx).1.disk = disk at step
    cases step with
    | kept csv => exact ⟨csv, rfl⟩
    | raised parsed rawEnd known => exact absurd ⟨_, _, parsed, rawEnd, known⟩ ends
    | recorded parsed rawEnd known => exact absurd ⟨_, _, parsed, rawEnd, known⟩ ends

theorem filed_datagram (filed : Filed collector.disk)
    (quiet : (handleDatagram args host collector rx).2 = none) :
    Filed (handleDatagram args host collector rx).1.disk := by
  rcases quiet_datagram_cases args host quiet with
    ⟨msg, state, streams, _, _, _, packed, written⟩ | ⟨_, csv, written⟩
  · rw [written]
    exact filed_recorded host.sha256 filed packed
  · rw [written]
    exact ⟨filed.raw, filed.jitter⟩

theorem rebuilt_datagram_iff (filed : Filed collector.disk) (rebuilt : Rebuilt collector.disk)
    (listed : Listed collector.disk)
    (quiet : (handleDatagram args host collector rx).2 = none) :
    Rebuilt (handleDatagram args host collector rx).1.disk ∧
        Listed (handleDatagram args host collector rx).1.disk ↔
      OnRawEnd (KeepsSources collector.disk) collector rx := by
  rcases quiet_datagram_cases args host quiet with
    ⟨msg, state, streams, parsed, rawEnd, known, packed, written⟩ | ⟨untouched, csv, written⟩
  · rw [written, rebuilt_recorded_iff host.sha256 filed rebuilt packed,
      listed_recorded_iff host.sha256 listed]
    constructor
    · rintro ⟨keeps, short⟩ other otherState otherParsed _ otherKnown
      obtain rfl := Option.some.inj (parsed.symm.trans otherParsed)
      obtain rfl := Option.some.inj (known.symm.trans otherKnown)
      exact ⟨keeps, short⟩
    · intro keeps
      have kept := keeps msg state parsed rawEnd known
      exact ⟨kept.toKeepsFiles, kept.listed⟩
  · rw [written]
    apply iff_of_true _ (untouched _)
    exact ⟨⟨rebuilt.jittered, rebuilt.raw, rebuilt.joint, rebuilt.delta, rebuilt.residual⟩, listed⟩

end Datagram

/-! ## Sessions -/

variable {sha256 : Bytes → Text}

namespace Invocation

variable (invocation : Invocation sha256) (append : Bool) (disk : Disk)

def RaisesNothing : Prop :=
  ∀ error, (collectorMain (invocation.withAppend append) invocation.host invocation.startTime
    invocation.events disk).2 ≠ .raised error

/-- A directory the invocation leaves when it stops after some of its events. -/
def Reaches (reached : Disk) : Prop :=
  ∃ count, reached = (collectorMain (invocation.withAppend append) invocation.host
    invocation.startTime (invocation.events.take count) disk).1.disk

end Invocation

def AppendedRaiseNothing : List (Invocation sha256) → Disk → Prop
  | [], _ => True
  | invocation :: later, disk =>
      invocation.RaisesNothing true disk ∧ AppendedRaiseNothing later (invocation.run true disk)

structure SessionRaisesNothing (first : Invocation sha256) (later : List (Invocation sha256))
    (disk : Disk) : Prop where
  atFirst : first.RaisesNothing false disk
  appended : AppendedRaiseNothing later (first.run false disk)

def AppendedReach : List (Invocation sha256) → Disk → Disk → Prop
  | [], _, _ => False
  | invocation :: later, disk, reached =>
      invocation.Reaches true disk reached ∨ AppendedReach later (invocation.run true disk) reached

def SessionReaches (first : Invocation sha256) (later : List (Invocation sha256))
    (disk reached : Disk) : Prop :=
  first.Reaches false disk reached ∨ AppendedReach later (first.run false disk) reached

def KeepsSourcesOnEnd (collector : Collector) (rx : Rx) : Prop :=
  OnRawEnd (KeepsSources collector.disk) collector rx

instance keepsSourcesOnEndDecidable (collector : Collector) (rx : Rx) :
    Decidable (KeepsSourcesOnEnd collector rx) := inferInstanceAs (Decidable (OnRawEnd _ _ _))

/-- What the collector and the analyzer both rely on. -/
structure InAgreement (disk : Disk) : Prop where
  filed : Filed disk
  rebuilt : Rebuilt disk
  listed : Listed disk

section Sessions

variable (outDir : PurePath)

theorem run_reached (invocation : Invocation sha256) (append : Bool) (disk : Disk) :
    invocation.Reaches append disk (invocation.run append disk) := by
  refine ⟨invocation.events.length, ?_⟩
  rw [List.take_length]
  rfl

theorem in_agreement_always_iff (invocation : Invocation sha256) (append : Bool) (disk : Disk)
    (agreed : InAgreement (prepareOutputs append disk))
    (quiet : invocation.RaisesNothing append disk) :
    (∀ reached, invocation.Reaches append disk reached → InAgreement reached) ↔
      invocation.Meets append disk KeepsSourcesOnEnd := by
  have agreement := @collector_loop_always_iff_of_quiet (invocation.withAppend append)
    invocation.host _ KeepsSourcesOnEnd (fun collector => InAgreement collector.disk)
    (fun collector rx agreed quiet => by
      rw [KeepsSourcesOnEnd,
        ← rebuilt_datagram_iff _ _ agreed.filed agreed.rebuilt agreed.listed quiet]
      exact ⟨fun after => ⟨after.rebuilt, after.listed⟩,
        fun both => ⟨filed_datagram _ _ agreed.filed quiet, both.1, both.2⟩⟩)
    invocation.events
    (startCollector (invocation.withAppend append) invocation.startTime disk) agreed
    (loop_raises_nothing_iff.mp quiet)
  rw [Invocation.Meets, ← agreement]
  constructor
  · intro always count
    exact always _ ⟨count, rfl⟩
  · rintro always reached ⟨count, rfl⟩
    exact always count

theorem filed_reached (invocation : Invocation sha256) (append : Bool) (disk : Disk)
    (filed : Filed (prepareOutputs append disk)) (quiet : invocation.RaisesNothing append disk)
    {reached : Disk} (reaches : invocation.Reaches append disk reached) : Filed reached := by
  obtain ⟨count, rfl⟩ := reaches
  have always := @collector_loop_always_iff_of_quiet (invocation.withAppend append)
    invocation.host _ (fun _ _ => True) (fun collector => Filed collector.disk)
    (fun collector rx filed quiet => iff_of_true (filed_datagram _ _ filed quiet) trivial)
    invocation.events
    (startCollector (invocation.withAppend append) invocation.startTime disk) filed
    (loop_raises_nothing_iff.mp quiet)
  exact always.mpr (EveryDatagram.of_forall (fun _ _ => trivial) _ _) count

theorem invocation_agrees_iff (invocation : Invocation sha256) (append : Bool) (disk : Disk)
    (agreed : InAgreement (prepareOutputs append disk))
    (quiet : invocation.RaisesNothing append disk) :
    (∀ reached, invocation.Reaches append disk reached → AnalyzerAgrees outDir reached) ↔
      invocation.Meets append disk KeepsSourcesOnEnd := by
  rw [← in_agreement_always_iff invocation append disk agreed quiet]
  apply forall_congr'
  intro reached
  constructor
  · intro agrees reaches
    have filed := filed_reached invocation append disk agreed.filed quiet reaches
    obtain ⟨rebuilt, listed⟩ := (analyzer_agrees_iff_rebuilt filed).mp (agrees reaches)
    exact ⟨filed, rebuilt, listed⟩
  · intro agrees reaches
    have agreed := agrees reaches
    exact (analyzer_agrees_iff_rebuilt agreed.filed).mpr ⟨agreed.rebuilt, agreed.listed⟩

theorem in_agreement_run (invocation : Invocation sha256) (append : Bool) (disk : Disk)
    (agreed : InAgreement (prepareOutputs append disk))
    (quiet : invocation.RaisesNothing append disk)
    (keeps : invocation.Meets append disk KeepsSourcesOnEnd) :
    InAgreement (invocation.run append disk) := by
  apply (in_agreement_always_iff invocation append disk agreed quiet).mpr keeps
  exact run_reached invocation append disk

theorem appended_agrees_iff (later : List (Invocation sha256)) : ∀ disk, InAgreement disk →
    AppendedRaiseNothing later disk →
      ((∀ reached, AppendedReach later disk reached → AnalyzerAgrees outDir reached) ↔
        EveryAppended KeepsSourcesOnEnd later disk) := by
  induction later with
  | nil =>
      intro disk _ _
      exact iff_of_true (fun _ never => never.elim) trivial
  | cons invocation later ih =>
      intro disk agreed quiet
      simp only [AppendedReach, EveryAppended, or_imp, forall_and]
      rw [invocation_agrees_iff outDir invocation true disk agreed quiet.1]
      apply and_congr_right
      intro keeps
      exact ih _ (in_agreement_run invocation true disk agreed quiet.1 keeps) quiet.2

/-- In a session without exceptions the analyzer agrees with the collector on every
directory on the way exactly when every trial that ends is complete if and only if it
has jitter, replaces no cited file by a different one, and misses so few chunks that
`csv` reads their list. -/
theorem analyzer_agrees_iff (first : Invocation sha256) (later : List (Invocation sha256))
    (disk : Disk) (quiet : SessionRaisesNothing first later disk) :
    (∀ reached, SessionReaches first later disk reached → AnalyzerAgrees outDir reached) ↔
      EveryInvocation KeepsSourcesOnEnd first later disk := by
  have fresh : InAgreement (prepareOutputs false disk) := by
    constructor
    · constructor
      · intro row member
        cases member
      · intro row member
        cases member
    · constructor
      · intro row member
        cases member
      · rfl
      · rfl
      · rfl
      · rfl
    · intro row member
      cases member
  have firstAgrees := invocation_agrees_iff outDir first false disk fresh quiet.atFirst
  simp only [SessionReaches, or_imp, forall_and]
  rw [firstAgrees]
  constructor
  · rintro ⟨keeps, laterAgree⟩
    have agreed := in_agreement_run first false disk fresh quiet.atFirst keeps
    exact ⟨keeps, (appended_agrees_iff outDir later _ agreed quiet.appended).mp laterAgree⟩
  · intro every
    have agreed := in_agreement_run first false disk fresh quiet.atFirst every.atFirst
    exact ⟨every.atFirst,
      (appended_agrees_iff outDir later _ agreed quiet.appended).mpr every.appended⟩

end Sessions

/-! ## A trial with jitter and one without -/

def resultsDir : PurePath := .relative ["results".toList, "aeb_client".toList]

/-- The second capture loses its jitter and a raw chunk. -/
theorem jittered_session_agrees :
    AnalyzerAgrees resultsDir
      (sessionRun (tinyCapture tinyTrial [.rawChunk 0, .rawChunk 1, .jitterChunk 0, .rawEnd])
        [tinyCapture otherTrial [.rawChunk 1, .rawEnd]] emptyDisk) := by
  have quiet : SessionRaisesNothing
      (tinyCapture tinyTrial [.rawChunk 0, .rawChunk 1, .jitterChunk 0, .rawEnd])
      [tinyCapture otherTrial [.rawChunk 1, .rawEnd]] emptyDisk := by
    constructor
    · intro error
      rw [show (collectorMain _ _ _ _ emptyDisk).2 = .running by decide +kernel]
      exact LoopEnd.noConfusion
    · refine ⟨?_, trivial⟩
      intro error
      rw [show (collectorMain _ _ _ _ _).2 = .running by decide +kernel]
      exact LoopEnd.noConfusion
  exact (analyzer_agrees_iff resultsDir _ _ _ quiet).mpr
    ⟨by decide +kernel, by decide +kernel, trivial⟩ _ (.inr (.inl (run_reached _ _ _)))

def idleHello : Rx := ⟨buildMsg ⟨3, 0, 0, 1000, 8, zeroBlock 16⟩, tinyPeer, 0⟩

def idleCapture : Invocation hexText where
  args := defaultCollectorArgs
  host := hexHost
  hashes := hex_host_hashes
  startTime := 0
  events := .datagram idleHello :: [Part.rawChunk 0, .rawChunk 1, .rawEnd].map fun part =>
    .datagram (tinyRx part)

/-- An idle trial is complete and has no jitter file to open. -/
theorem idle_trial_stops_analyzer :
    SessionRaisesNothing idleCapture [] emptyDisk ∧
      ¬AnalyzerAgrees resultsDir (sessionRun idleCapture [] emptyDisk) := by
  constructor
  · refine ⟨?_, trivial⟩
    intro error
    rw [show (collectorMain _ _ _ _ emptyDisk).2 = .running by decide +kernel]
    exact LoopEnd.noConfusion
  · intro agrees
    have bare : ∃ row ∈ completeRows (sessionRun idleCapture [] emptyDisk),
        row.jitterFile = none := by decide +kernel
    obtain ⟨row, member, jitterFile⟩ := bare
    obtain ⟨machine, mounted⟩ := mounted_somewhere resultsDir (sessionRun idleCapture [] emptyDisk)
    obtain ⟨streams, returned, _⟩ := agrees machine resultsDir mounted
    have listed : Listed (sessionRun idleCapture [] emptyDisk) := by
      unfold Listed
      decide +kernel
    obtain ⟨error, failed⟩ :=
      @analysis_of_bare machine resultsDir resultsDir _ row listed member jitterFile
    rw [returned] at failed
    cases failed

end BootEntropy.Aeb
