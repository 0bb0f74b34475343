import BootEntropy.Lib.Checked
import BootEntropy.Lib.Paths
import BootEntropy.Lib.Numerals
import BootEntropy.Aeb.Streams

/-!
# The source analyzer

`analyze_aeb_sources.py` up to its binary streams: the complete rows of
`aeb_trials.csv`, the files they cite, and what is packed from them. The
statistics it prints about the streams are left out.
-/

namespace BootEntropy.Aeb

open BootEntropy.Lib

set_option autoImplicit false

/-! ## File names -/

def trialName (captureId : Nat) (suffix : Text) : Text :=
  "aeb_trial_".toList ++ (paddedDecimal 6 captureId ++ suffix)

def OutFile.dir : OutFile → Text
  | .raw _ => "raw".toList
  | .rawPartial _ => "raw".toList
  | .jitterDelta _ => "jitter".toList
  | .jitterResidual _ => "jitter".toList
  | .response _ => "joint".toList

def OutFile.suffix : OutFile → Text
  | .raw _ => ".bin".toList
  | .rawPartial _ => ".partial.bin".toList
  | .jitterDelta _ => ".delta_u32le.bin".toList
  | .jitterResidual _ => ".residual_s32le.bin".toList
  | .response _ => ".response.bin".toList

def OutFile.place (file : OutFile) : List Text := [file.dir, trialName file.captureId file.suffix]

def jitterPlace (captureId : Nat) : List Text :=
  ["jitter".toList, trialName captureId ".csv".toList]

theorem trial_name_injective {left right : Nat} {leftRest rightRest : Text}
    (same : trialName left ('.' :: leftRest) = trialName right ('.' :: rightRest)) :
    left = right ∧ leftRest = rightRest := by
  have digits (captureId : Nat) (rest : Text) :
      (paddedDecimal 6 captureId ++ '.' :: rest).takeWhile Char.isDigit =
        paddedDecimal 6 captureId := by
    rw [List.takeWhile_append_of_pos (padded_decimal_plain 6 captureId)]
    exact List.append_nil _
  have tails := List.append_cancel_left same
  have printed := congrArg (List.takeWhile Char.isDigit) tails
  rw [digits, digits] at printed
  rw [printed] at tails
  exact ⟨padded_decimal_injective 6 printed, (List.cons.inj (List.append_cancel_left tails)).2⟩

theorem place_injective : Function.Injective OutFile.place := by
  have dotted (file : OutFile) : ∃ rest, file.suffix = '.' :: rest := by
    cases file <;> exact ⟨_, rfl⟩
  intro left right same
  have names := (List.cons.inj (List.cons.inj same).2).1
  obtain ⟨leftRest, leftSuffix⟩ := dotted left
  obtain ⟨rightRest, rightSuffix⟩ := dotted right
  rw [leftSuffix, rightSuffix] at names
  have parts := trial_name_injective names
  have kinds : left.suffix = right.suffix := by rw [leftSuffix, rightSuffix, parts.2]
  have ids : left.captureId = right.captureId := parts.1
  cases left <;> cases right <;> dsimp only [OutFile.suffix] at kinds <;> first
    | exact congrArg _ ids
    | exact absurd kinds (by decide)

theorem jitter_place_injective : Function.Injective jitterPlace := by
  intro left right same
  exact (trial_name_injective (List.cons.inj (List.cons.inj same).2).1).1

/-! ## The machine -/

/-- A row of a jitter CSV as `csv.DictReader` returns it. -/
structure JitterRecord where
  deltaUs : Text
  residualUs : Option Text
  deriving DecidableEq, Repr

def JitterRow.record (row : JitterRow) : JitterRecord :=
  ⟨decimal row.deltaUs, some (signedDecimal row.residualUs)⟩

/-- What the analyzer finds under a path from its working directory. That one is a
directory: it is there and cannot be opened. -/
structure Machine where
  isThere : PurePath → Bool
  readBytes : PurePath → Except PyError Bytes
  readRecords : PurePath → Except PyError (List JitterRecord)
  hereIsThere : isThere .here = true
  hereIsDirectory : readRecords .here = .error .osError

def markedCandidate (runDir value : PurePath) (marker : Text) : Option PurePath :=
  (value.fromPart marker).map runDir.join

/-- The fallbacks of `resolve_path`, in order. -/
def resolveCandidates (runDir value : PurePath) : List PurePath :=
  ["raw".toList, "jitter".toList, "joint".toList, "stimulus".toList].filterMap
    (markedCandidate runDir value) ++
  [runDir.join value, runDir.parent.parent.join value] ++
  ["raw".toList, "jitter".toList, "joint".toList].map fun marker =>
    (runDir.join (.relative [marker])).join value.base

def resolvePath (machine : Machine) (runDir value : PurePath) : PurePath :=
  if value.absolute then value
  else if machine.isThere value then value
  else ((resolveCandidates runDir value).find? machine.isThere).getD value

/-! ## One trial -/

/-- `int(row["delta_us"])`, and the residual, which falls back to the delta. -/
def jitterPair (record : JitterRecord) : Option (Int × Int) :=
  (parseInt record.deltaUs).bind fun delta =>
    match record.residualUs with
    | none => some (delta, delta)
    | some [] => some (delta, delta)
    | some text => (parseInt text).map fun residual => (delta, residual)

def loadJitterCsv (machine : Machine) (path : PurePath) : Except PyError (List Int × List Int) :=
  match machine.readRecords path with
  | .error error => .error error
  | .ok records =>
      match records.mapM jitterPair with
      | none => .error .valueError
      | some pairs => .ok pairs.unzip

/-- `none` is a `struct.error`. -/
def packU32 (values : List Int) : Option Bytes :=
  if ∀ value ∈ values, 0 ≤ value ∧ value < 2 ^ 32 then
    some (values.flatMap fun value => leBytes 4 value.toNat)
  else none

def packS32 (values : List Int) : Option Bytes :=
  if ∀ value ∈ values, -2 ^ 31 ≤ value ∧ value < 2 ^ 31 then
    some (values.flatMap fun value => leBytes 4 (value % 2 ^ 32).toNat)
  else none

def low8 (values : List Int) : Bytes := values.map fun value => UInt8.ofNat (value % 256).toNat

/-- The path a cell of `aeb_trials.csv` spells. An empty cell is `Path("")`. -/
def cellPath (outDir : PurePath) : Option (List Text) → PurePath
  | none => .here
  | some place => outDir.join (.relative place)

structure TrialViews where
  raw : Bytes
  deltas : List Int
  residuals : List Int
  joint : Bytes

def orStructError (packed : Option Bytes) : Except PyError Bytes :=
  match packed with
  | none => .error .structError
  | some bytes => .ok bytes

/-- The body of the loop over the complete rows. `outDir` is the `--out-dir` of the
collector. -/
def analyzeTrial (machine : Machine) (runDir outDir : PurePath) (row : TrialRow) :
    Except PyError TrialViews := do
  let rawPath := resolvePath machine runDir (cellPath outDir (row.rawFile.map OutFile.place))
  let jitterPath := resolvePath machine runDir (cellPath outDir (row.jitterFile.map jitterPlace))
  let raw ← machine.readBytes rawPath
  let (deltas, residuals) ← loadJitterCsv machine jitterPath
  let deltaBytes ← orStructError (packU32 deltas)
  let _ ← orStructError (packS32 residuals)
  return ⟨raw, deltas, residuals, raw ++ deltaBytes⟩

/-! ## All trials -/

/-- The `.bin` files of the output directory. -/
structure SourceStreams where
  wdevAll : Bytes
  jitterDeltaU32leAll : Bytes
  jitterResidualS32leAll : Bytes
  jitterDeltaLow8All : Bytes
  jitterResidualLow8All : Bytes
  responseJointAll : Bytes
  deriving DecidableEq, Repr

/-- `csv.field_size_limit()` -/
def csvFieldLimit : Nat := 131072

def missingCell (missing : List Nat) : Text := [' '].intercalate (missing.map decimal)

/-- `load_rows`. The list of missing chunks is the one cell that can exceed the limit:
the others hold a number, a digest, a path or a field of one datagram. -/
def loadRows (rows : List TrialRow) : Except PyError (List TrialRow) :=
  if ∀ row ∈ rows, (missingCell row.missingChunks).length ≤ csvFieldLimit then .ok rows
  else .error .csvError

def analyzeAebSources (machine : Machine) (runDir outDir : PurePath) (trials : List TrialRow) :
    Except PyError SourceStreams := do
  let rows ← loadRows trials
  let views ← (rows.filter (·.complete)).mapM (analyzeTrial machine runDir outDir)
  let deltas := views.flatMap (·.deltas)
  let residuals := views.flatMap (·.residuals)
  let deltaBytes ← orStructError (packU32 deltas)
  let residualBytes ← orStructError (packS32 residuals)
  return {
    wdevAll := views.flatMap (·.raw)
    jitterDeltaU32leAll := deltaBytes
    jitterResidualS32leAll := residualBytes
    jitterDeltaLow8All := low8 deltas
    jitterResidualLow8All := low8 residuals
    responseJointAll := views.flatMap (·.joint) }

/-! ## A run directory on a machine -/

/-- The files the collector wrote are found below `dir`. -/
structure FilesAt (machine : Machine) (dir : PurePath) (disk : Disk) : Prop where
  files : ∀ file bytes, disk.files file = some bytes →
    machine.isThere (dir.join (.relative file.place)) = true ∧
      machine.readBytes (dir.join (.relative file.place)) = .ok bytes
  jitterCsv : ∀ captureId rows, disk.jitterCsv captureId = some rows →
    machine.isThere (dir.join (.relative (jitterPlace captureId))) = true ∧
      machine.readRecords (dir.join (.relative (jitterPlace captureId))) =
        .ok (rows.map JitterRow.record)

def fileDirs : List Text := ["raw".toList, "jitter".toList, "joint".toList]

/-- The run directory is where the collector wrote it, or only a copy of it exists,
and the relative paths of the rows lead nowhere. -/
inductive Mounted (machine : Machine) (runDir outDir : PurePath) (disk : Disk) : Prop where
  | inPlace (found : FilesAt machine outDir disk)
  | moved (relative : outDir.absolute = false) (unmarked : ∀ dir ∈ fileDirs, dir ∉ outDir.parts)
      (gone : ∀ parts, parts ≠ [] → machine.isThere (outDir.join (.relative parts)) = false)
      (found : FilesAt machine runDir disk)

section Resolution

variable {machine : Machine} {runDir outDir : PurePath} {disk : Disk}

theorem resolve_path_existing {value : PurePath} (there : machine.isThere value = true) :
    resolvePath machine runDir value = value := by
  unfold resolvePath
  split_ifs
  · rfl
  · rfl

theorem trial_name_not_dir (captureId : Nat) (suffix : Text) :
    ∀ dir ∈ fileDirs, dir ≠ trialName captureId suffix := by
  have heads : ∀ dir ∈ fileDirs, dir.head? ≠ some 'a' := by decide
  intro dir member same
  apply heads dir member
  rw [same]
  rfl

/-- The first fallback that exists is the one behind the name of the directory. -/
theorem resolve_path_moved {dir name : Text} (member : dir ∈ fileDirs)
    (plain : ∀ other ∈ fileDirs, other ≠ name) (relative : outDir.absolute = false)
    (unmarked : ∀ dir ∈ fileDirs, dir ∉ outDir.parts)
    (gone : machine.isThere (outDir.join (.relative [dir, name])) = false)
    (there : machine.isThere (runDir.join (.relative [dir, name])) = true) :
    resolvePath machine runDir (outDir.join (.relative [dir, name])) =
      runDir.join (.relative [dir, name]) := by
  have absent : ∀ other ∈ fileDirs, other ≠ dir →
      (outDir.join (.relative [dir, name])).fromPart other = none := by
    intro other otherMember different
    apply PurePath.from_part_absent
    rw [PurePath.join_relative]
    simp only [List.mem_append, List.mem_cons, List.not_mem_nil, or_false, not_or]
    exact ⟨unmarked other otherMember, different, plain other otherMember⟩
  have present : (outDir.join (.relative [dir, name])).fromPart dir =
      some (.relative [dir, name]) := PurePath.from_part_below (unmarked dir member) [name]
  have first : ∃ rest, ["raw".toList, "jitter".toList, "joint".toList, "stimulus".toList].filterMap
      (markedCandidate runDir (outDir.join (.relative [dir, name]))) =
        runDir.join (.relative [dir, name]) :: rest := by
    have skip {other : Text} (otherMember : other ∈ fileDirs) (different : other ≠ dir) :
        markedCandidate runDir (outDir.join (.relative [dir, name])) other = none := by
      rw [markedCandidate, absent other otherMember different]
      rfl
    have take : markedCandidate runDir (outDir.join (.relative [dir, name])) dir =
        some (runDir.join (.relative [dir, name])) := by
      rw [markedCandidate, present]
      rfl
    have which : dir = "raw".toList ∨ dir = "jitter".toList ∨ dir = "joint".toList := by
      simpa [fileDirs] using member
    rcases which with rfl | rfl | rfl
    · rw [List.filterMap_cons_some take]
      exact ⟨_, rfl⟩
    · rw [List.filterMap_cons_none (skip (by decide) (by decide)), List.filterMap_cons_some take]
      exact ⟨_, rfl⟩
    · rw [List.filterMap_cons_none (skip (by decide) (by decide)),
        List.filterMap_cons_none (skip (by decide) (by decide)), List.filterMap_cons_some take]
      exact ⟨_, rfl⟩
  obtain ⟨rest, candidates⟩ := first
  have notAbsolute : (outDir.join (.relative [dir, name])).absolute = false := relative
  unfold resolvePath resolveCandidates
  rw [if_neg (by rw [notAbsolute]; decide), if_neg (by rw [gone]; decide), candidates,
    List.cons_append, List.cons_append, List.find?_cons_of_pos there]
  rfl

theorem file_dir_mem (file : OutFile) : file.dir ∈ fileDirs := by
  unfold fileDirs
  cases file with
  | raw _ => exact List.mem_cons_self ..
  | rawPartial _ => exact List.mem_cons_self ..
  | jitterDelta _ => exact List.mem_cons_of_mem _ (List.mem_cons_self ..)
  | jitterResidual _ => exact List.mem_cons_of_mem _ (List.mem_cons_self ..)
  | response _ => exact List.mem_cons_of_mem _ (List.mem_cons_of_mem _ (List.mem_cons_self ..))

theorem Mounted.read_file (mounted : Mounted machine runDir outDir disk) {file : OutFile}
    {bytes : Bytes} (written : disk.files file = some bytes) :
    machine.readBytes (resolvePath machine runDir (outDir.join (.relative file.place))) =
      .ok bytes := by
  have dir := file_dir_mem file
  cases mounted with
  | inPlace found =>
      rw [resolve_path_existing (found.files file bytes written).1]
      exact (found.files file bytes written).2
  | moved relative unmarked gone found =>
      have resolved := resolve_path_moved dir (trial_name_not_dir _ _) relative unmarked
        (gone file.place (List.cons_ne_nil _ _)) (found.files file bytes written).1
      exact (congrArg machine.readBytes resolved).trans (found.files file bytes written).2

theorem Mounted.read_records (mounted : Mounted machine runDir outDir disk) {captureId : Nat}
    {rows : List JitterRow} (written : disk.jitterCsv captureId = some rows) :
    machine.readRecords
        (resolvePath machine runDir (outDir.join (.relative (jitterPlace captureId)))) =
      .ok (rows.map JitterRow.record) := by
  cases mounted with
  | inPlace found =>
      rw [resolve_path_existing (found.jitterCsv captureId rows written).1]
      exact (found.jitterCsv captureId rows written).2
  | moved relative unmarked gone found =>
      have resolved := resolve_path_moved (by decide) (trial_name_not_dir _ _) relative unmarked
        (gone (jitterPlace captureId) (List.cons_ne_nil _ _))
        (found.jitterCsv captureId rows written).1
      exact (congrArg machine.readRecords resolved).trans
        (found.jitterCsv captureId rows written).2

/-- A file of the run directory, or the error of a path without one. -/
def fileOr {content : Type} (written : Option content) : Except PyError content :=
  match written with
  | none => .error .osError
  | some content => .ok content

/-- Every run directory can stand on a machine: no two files share a path. -/
theorem mounted_somewhere (outDir : PurePath) (disk : Disk) :
    ∃ machine, Mounted machine outDir outDir disk := by
  have files : Function.Injective fun file : OutFile => outDir.join (.relative file.place) :=
    outDir.join_relative_injective.comp place_injective
  have csvs : Function.Injective fun captureId => outDir.join (.relative (jitterPlace captureId)) :=
    outDir.join_relative_injective.comp jitter_place_injective
  refine ⟨⟨fun _ => true,
      Function.extend (fun file : OutFile => outDir.join (.relative file.place))
        (fun file => fileOr (disk.files file)) fun _ => .error .osError,
      Function.extend (fun captureId => outDir.join (.relative (jitterPlace captureId)))
        (fun captureId => fileOr ((disk.jitterCsv captureId).map (·.map JitterRow.record)))
        fun _ => .error .osError, rfl, ?_⟩, .inPlace ⟨?_, ?_⟩⟩
  · apply Function.extend_apply'
    rintro ⟨captureId, same⟩
    exact outDir.join_relative_ne_here (List.cons_ne_nil _ _) same
  · intro file bytes written
    refine ⟨rfl, ?_⟩
    dsimp only
    rw [files.extend_apply, written]
    rfl
  · intro captureId rows written
    refine ⟨rfl, ?_⟩
    dsimp only
    rw [csvs.extend_apply, written]
    rfl

end Resolution

/-! ## What the loop body returns -/

/-- What `struct` can pack. -/
def JitterFits (rows : List JitterRow) : Prop :=
  ∀ row ∈ rows, row.deltaUs < 2 ^ 32 ∧ -2 ^ 31 ≤ row.residualUs ∧ row.residualUs < 2 ^ 31

def deltaBytes (rows : List JitterRow) : Bytes := packJitterDeltaU32le (rows.map (·.deltaUs))

def residualBytes (rows : List JitterRow) : Bytes :=
  rows.flatMap fun row => leBytes 4 (row.residualUs % 2 ^ 32).toNat

def deltaValues (rows : List JitterRow) : List Int := rows.map fun row => (row.deltaUs : Int)

def residualValues (rows : List JitterRow) : List Int := rows.map (·.residualUs)

theorem jitter_fits_flat_map {ι : Type} {indices : List ι} {rows : ι → List JitterRow}
    (fits : ∀ index ∈ indices, JitterFits (rows index)) : JitterFits (indices.flatMap rows) := by
  intro row member
  obtain ⟨index, inside, there⟩ := List.mem_flatMap.mp member
  exact fits index inside row there

section Rows

variable {rows : List JitterRow}

theorem jitter_pair_record {row : JitterRow} (fits : JitterFits [row]) :
    jitterPair row.record = some ((row.deltaUs : Int), row.residualUs) := by
  obtain ⟨small, low, high⟩ := fits row (List.mem_singleton_self row)
  have delta := parse_int_decimal (decimal_short (small.trans (by decide)))
  have residual := @parse_int_signed row.residualUs (decimal_short (by omega))
  unfold jitterPair JitterRow.record
  rw [delta, Option.bind_some]
  dsimp only
  generalize signedDecimal row.residualUs = text at residual
  cases text with
  | nil =>
      rw [show parseInt [] = none by decide] at residual
      cases residual
  | cons c text =>
      dsimp only
      rw [residual]
      rfl

theorem map_m_jitter_pair (fits : JitterFits rows) :
    (rows.map JitterRow.record).mapM jitterPair =
      some (rows.map fun row => ((row.deltaUs : Int), row.residualUs)) := by
  induction rows with
  | nil => rfl
  | cons row rest ih =>
      have here : JitterFits [row] := by
        intro other member
        rw [List.mem_singleton.mp member]
        exact fits row (List.mem_cons_self ..)
      have later := ih fun other member => fits other (List.mem_cons_of_mem _ member)
      rw [List.map_cons, List.mapM_cons, jitter_pair_record here, later]
      rfl

theorem load_jitter_csv_ok {machine : Machine} {path : PurePath} (fits : JitterFits rows)
    (found : machine.readRecords path = .ok (rows.map JitterRow.record)) :
    loadJitterCsv machine path = .ok (deltaValues rows, residualValues rows) := by
  have unzipped : (rows.map fun row => ((row.deltaUs : Int), row.residualUs)).unzip =
      (deltaValues rows, residualValues rows) := by
    rw [List.unzip_eq_map, List.map_map, List.map_map]
    rfl
  unfold loadJitterCsv
  rw [found]
  dsimp only
  rw [map_m_jitter_pair fits]
  exact congrArg Except.ok unzipped

theorem pack_u32_deltas (fits : JitterFits rows) :
    packU32 (deltaValues rows) = some (deltaBytes rows) := by
  have inside : ∀ value ∈ deltaValues rows, 0 ≤ value ∧ value < 2 ^ 32 := by
    intro value member
    obtain ⟨row, there, rfl⟩ := List.mem_map.mp member
    have small := (fits row there).1
    omega
  rw [packU32, if_pos inside, deltaValues, deltaBytes, packJitterDeltaU32le, List.flatMap_map,
    List.flatMap_map]
  rfl

theorem pack_s32_residuals (fits : JitterFits rows) :
    packS32 (residualValues rows) = some (residualBytes rows) := by
  have inside : ∀ value ∈ residualValues rows, -2 ^ 31 ≤ value ∧ value < 2 ^ 31 := by
    intro value member
    obtain ⟨row, there, rfl⟩ := List.mem_map.mp member
    exact (fits row there).2
  rw [packS32, if_pos inside, residualValues, List.flatMap_map]
  rfl

end Rows

def citedRaw (disk : Disk) (row : TrialRow) : Bytes := (row.rawFile.bind disk.files).getD []

def citedJitter (disk : Disk) (row : TrialRow) : List JitterRow :=
  (row.jitterFile.bind disk.jitterCsv).getD []

def trialViews (disk : Disk) (row : TrialRow) : TrialViews where
  raw := citedRaw disk row
  deltas := deltaValues (citedJitter disk row)
  residuals := residualValues (citedJitter disk row)
  joint := citedRaw disk row ++ deltaBytes (citedJitter disk row)

structure Cited (disk : Disk) (row : TrialRow) : Prop where
  raw : ∃ bytes, row.rawFile.bind disk.files = some bytes
  jitter : ∃ rows, row.jitterFile.bind disk.jitterCsv = some rows
  fits : JitterFits (citedJitter disk row)

section Loop

variable {machine : Machine} {runDir outDir : PurePath} {disk : Disk} {row : TrialRow}

theorem analyze_trial_cited (mounted : Mounted machine runDir outDir disk) (cited : Cited disk row) :
    analyzeTrial machine runDir outDir row = .ok (trialViews disk row) := by
  obtain ⟨bytes, raw⟩ := cited.raw
  obtain ⟨rows, jitter⟩ := cited.jitter
  obtain ⟨file, rawFile, written⟩ := Option.bind_eq_some_iff.mp raw
  obtain ⟨captureId, jitterFile, csv⟩ := Option.bind_eq_some_iff.mp jitter
  have fits := cited.fits
  unfold trialViews
  unfold citedJitter at fits ⊢
  rw [citedRaw, raw]
  rw [jitter] at fits ⊢
  have fits : JitterFits rows := fits
  have bytesRead : machine.readBytes (resolvePath machine runDir
      (cellPath outDir (row.rawFile.map OutFile.place))) = .ok bytes := by
    rw [rawFile]
    exact mounted.read_file written
  have recordsRead : loadJitterCsv machine (resolvePath machine runDir
      (cellPath outDir (row.jitterFile.map jitterPlace))) =
        .ok (deltaValues rows, residualValues rows) := by
    rw [jitterFile]
    exact load_jitter_csv_ok fits (mounted.read_records csv)
  unfold analyzeTrial
  dsimp only
  rw [bytesRead, recordsRead]
  show (do
    let deltas ← orStructError (packU32 (deltaValues rows))
    let _ ← orStructError (packS32 (residualValues rows))
    return (⟨bytes, deltaValues rows, residualValues rows, bytes ++ deltas⟩ : TrialViews)) = _
  rw [pack_u32_deltas fits, pack_s32_residuals fits]
  rfl

/-- The empty cell of a trial without jitter resolves to the working directory. -/
theorem analyze_trial_bare (bare : row.jitterFile = none) :
    ∃ error, analyzeTrial machine runDir outDir row = .error error := by
  have resolved : resolvePath machine runDir (cellPath outDir (row.jitterFile.map jitterPlace)) =
      .here := by
    rw [bare]
    exact resolve_path_existing machine.hereIsThere
  have unread : loadJitterCsv machine .here = .error .osError := by
    rw [loadJitterCsv, machine.hereIsDirectory]
  unfold analyzeTrial
  dsimp only
  rw [resolved, unread]
  cases machine.readBytes
      (resolvePath machine runDir (cellPath outDir (row.rawFile.map OutFile.place))) with
  | error error => exact ⟨error, rfl⟩
  | ok bytes => exact ⟨.osError, rfl⟩

end Loop

/-! ## Agreement with the collector -/

/-- On every machine with the run directory the analyzer returns, and its streams
are the ones the collector appended to. -/
def AnalyzerAgrees (outDir : PurePath) (disk : Disk) : Prop :=
  ∀ machine runDir, Mounted machine runDir outDir disk →
    ∃ streams, analyzeAebSources machine runDir outDir disk.trials = .ok streams ∧
      streams.wdevAll = disk.allBin ∧ streams.responseJointAll = disk.allJoint ∧
      streams.jitterDeltaU32leAll = disk.allJitterDelta ∧
      streams.jitterResidualS32leAll = disk.allJitterResidual

def rebuiltStreams (disk : Disk) : SourceStreams where
  wdevAll := (completeRows disk).flatMap (citedRaw disk)
  jitterDeltaU32leAll := (completeRows disk).flatMap fun row => deltaBytes (citedJitter disk row)
  jitterResidualS32leAll :=
    (completeRows disk).flatMap fun row => residualBytes (citedJitter disk row)
  jitterDeltaLow8All := low8 (deltaValues ((completeRows disk).flatMap (citedJitter disk)))
  jitterResidualLow8All := low8 (residualValues ((completeRows disk).flatMap (citedJitter disk)))
  responseJointAll := (completeRows disk).flatMap
    fun row => citedRaw disk row ++ deltaBytes (citedJitter disk row)

/-- Every complete row has jitter, and the cited files make the streams. -/
structure Rebuilt (disk : Disk) : Prop where
  jittered : ∀ row ∈ completeRows disk, row.jitterFile ≠ none
  raw : (rebuiltStreams disk).wdevAll = disk.allBin
  joint : (rebuiltStreams disk).responseJointAll = disk.allJoint
  delta : (rebuiltStreams disk).jitterDeltaU32leAll = disk.allJitterDelta
  residual : (rebuiltStreams disk).jitterResidualS32leAll = disk.allJitterResidual

/-- Complete rows cite files of their own capture id that were written. -/
structure Filed (disk : Disk) : Prop where
  raw : ∀ row ∈ completeRows disk, row.rawFile = some (.raw row.captureId) ∧
    ∃ bytes, disk.files (.raw row.captureId) = some bytes
  jitter : ∀ row ∈ completeRows disk, row.jitterFile = none ∨
    row.jitterFile = some row.captureId ∧
      ∃ rows, disk.jitterCsv row.captureId = some rows ∧ JitterFits rows

def Listed (disk : Disk) : Prop :=
  ∀ row ∈ disk.trials, (missingCell row.missingChunks).length ≤ csvFieldLimit

theorem load_rows_of_listed {disk : Disk} (listed : Listed disk) :
    loadRows disk.trials = .ok disk.trials := if_pos listed

section Agreement

variable {machine : Machine} {runDir outDir : PurePath} {disk : Disk}

theorem Filed.cited (filed : Filed disk) {row : TrialRow} (member : row ∈ completeRows disk)
    (jittered : row.jitterFile ≠ none) : Cited disk row := by
  obtain ⟨rawFile, bytes, written⟩ := filed.raw row member
  obtain ⟨jitterFile, rows, csv, fits⟩ := (filed.jitter row member).resolve_left jittered
  have jitter : row.jitterFile.bind disk.jitterCsv = some rows := by
    rw [jitterFile]
    exact csv
  constructor
  · rw [rawFile]
    exact ⟨bytes, written⟩
  · exact ⟨rows, jitter⟩
  · rw [citedJitter, jitter]
    exact fits

theorem analysis_of_filed (mounted : Mounted machine runDir outDir disk) (filed : Filed disk)
    (listed : Listed disk) (jittered : ∀ row ∈ completeRows disk, row.jitterFile ≠ none) :
    analyzeAebSources machine runDir outDir disk.trials = .ok (rebuiltStreams disk) := by
  have cited : ∀ row ∈ completeRows disk, Cited disk row :=
    fun row member => filed.cited member (jittered row member)
  have views : (completeRows disk).mapM (analyzeTrial machine runDir outDir) =
      .ok ((completeRows disk).map (trialViews disk)) :=
    map_m_ok fun row member => analyze_trial_cited mounted (cited row member)
  have fits : JitterFits ((completeRows disk).flatMap (citedJitter disk)) :=
    jitter_fits_flat_map fun row member => (cited row member).fits
  have deltas : ((completeRows disk).map (trialViews disk)).flatMap (·.deltas) =
      deltaValues ((completeRows disk).flatMap (citedJitter disk)) := by
    rw [List.flatMap_map, deltaValues, List.map_flatMap]
    rfl
  have residuals : ((completeRows disk).map (trialViews disk)).flatMap (·.residuals) =
      residualValues ((completeRows disk).flatMap (citedJitter disk)) := by
    rw [List.flatMap_map, residualValues, List.map_flatMap]
    rfl
  have deltaParts : deltaBytes ((completeRows disk).flatMap (citedJitter disk)) =
      (rebuiltStreams disk).jitterDeltaU32leAll := by
    rw [deltaBytes, packJitterDeltaU32le, List.map_flatMap, List.flatMap_assoc]
    rfl
  have residualParts : residualBytes ((completeRows disk).flatMap (citedJitter disk)) =
      (rebuiltStreams disk).jitterResidualS32leAll := List.flatMap_assoc ..
  unfold analyzeAebSources
  rw [load_rows_of_listed listed]
  dsimp only [bind, Except.bind]
  rw [show disk.trials.filter (·.complete) = completeRows disk from rfl, views]
  dsimp only
  rw [deltas, residuals, pack_u32_deltas fits, pack_s32_residuals fits, deltaParts, residualParts,
    List.flatMap_map, List.flatMap_map]
  rfl

/-- One complete row without jitter stops the analyzer. -/
theorem analysis_of_bare {row : TrialRow} (listed : Listed disk) (member : row ∈ completeRows disk)
    (bare : row.jitterFile = none) :
    ∃ error, analyzeAebSources machine runDir outDir disk.trials = .error error := by
  obtain ⟨error, failed⟩ := map_m_error member
    (@analyze_trial_bare machine runDir outDir row bare)
  refine ⟨error, ?_⟩
  unfold analyzeAebSources
  rw [load_rows_of_listed listed]
  dsimp only [bind, Except.bind]
  rw [show disk.trials.filter (·.complete) = completeRows disk from rfl, failed]

theorem analyzer_agrees_iff_rebuilt (filed : Filed disk) :
    AnalyzerAgrees outDir disk ↔ Rebuilt disk ∧ Listed disk := by
  constructor
  · intro agrees
    obtain ⟨machine, mounted⟩ := mounted_somewhere outDir disk
    obtain ⟨streams, returned, raw, joint, delta, residual⟩ := agrees machine outDir mounted
    have listed : Listed disk := by
      by_contra unlisted
      have unread : loadRows disk.trials = .error .csvError := if_neg unlisted
      rw [analyzeAebSources, unread] at returned
      cases returned
    have jittered : ∀ row ∈ completeRows disk, row.jitterFile ≠ none := by
      intro row member bare
      obtain ⟨error, failed⟩ :=
        @analysis_of_bare machine outDir outDir disk row listed member bare
      rw [returned] at failed
      cases failed
    rw [analysis_of_filed mounted filed listed jittered] at returned
    obtain rfl := Except.ok.inj returned
    exact ⟨⟨jittered, raw, joint, delta, residual⟩, listed⟩
  · rintro ⟨rebuilt, listed⟩ machine runDir mounted
    exact ⟨rebuiltStreams disk, analysis_of_filed mounted filed listed rebuilt.jittered,
      rebuilt.raw, rebuilt.joint, rebuilt.delta, rebuilt.residual⟩

end Agreement

end BootEntropy.Aeb
