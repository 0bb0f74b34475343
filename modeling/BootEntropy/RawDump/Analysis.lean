import BootEntropy.Lib.Checked
import BootEntropy.Lib.Groups
import BootEntropy.RawDump.Aligned
import BootEntropy.RawDump.Measures
import BootEntropy.RawDump.Resumed

/-!
# Analysis of a dataset of slices

`analyze_reboot_slices.py` reads the slices that the manifest names: one row for each
slice, one for each window of it, the ranges over the slices, and how much the slices
have in common.
-/

namespace BootEntropy.RawDump.Reboots

open BootEntropy.Lib
open BootEntropy.RawDump.Slices

set_option autoImplicit false

/-! ## Statistics of a column -/

noncomputable def mean (values : List ℝ) : ℝ := values.sum / values.length

noncomputable def linearSlope (xs ys : List ℝ) : ℝ :=
  if xs.length < 2 then 0
  else
    let xMean := mean xs
    let yMean := mean ys
    let denom := (xs.map fun x => (x - xMean) ^ 2).sum
    if denom = 0 then 0
    else (xs.zipWith (fun x y => (x - xMean) * (y - yMean)) ys).sum / denom

structure StatRange where
  n : Nat
  min : Option ℝ
  mean : Option ℝ
  max : Option ℝ

noncomputable def statRange : List ℝ → StatRange
  | [] => ⟨0, none, none, none⟩
  | value :: rest =>
      { n := (value :: rest).length
        min := some (rest.foldl min value)
        mean := some (mean (value :: rest))
        max := some (rest.foldl max value) }

structure FirstLast where
  firstMean : ℝ
  lastMean : ℝ
  difference : ℝ
  n : Nat

noncomputable def firstLast (firstValues lastValues : List ℝ) (n : Nat) : FirstLast :=
  let firstMean := mean firstValues
  let lastMean := mean lastValues
  ⟨firstMean, lastMean, lastMean - firstMean, n⟩

/-! ## Similarity -/

def duplicateRunGroups (values : List Text) : List (List Nat) :=
  ((groupRows Prod.fst Prod.snd (values.zipIdx 1)).map Prod.snd).filter fun runs => 1 < runs.length

inductive Refusal where
  | missingManifest
  | tornManifest
  | noCapturedRuns
  | aggregateMissing (path : Text)
  | noFile (path : Text)
  | value (text : String)
  | overflowError
  | memoryError

/-- What `read(size)` makes room for in front of the end of a file. -/
def askedBytes (size : Int) (length : Nat) : Nat := if size = -1 then length else size.toNat

/-- The bytes that `read(size)` may give back at most. The host can make room for
`memory` bytes at once. -/
def readLimit (memory : Nat) (size : Int) (file : Bytes) : Except Refusal Nat :=
  if size < -2 ^ 63 ∨ 2 ^ 63 ≤ size then .error .overflowError
  else if size < -1 then .error (.value "read length must be non-negative or -1")
  else if memory < askedBytes size file.length then .error .memoryError
  else .ok (askedBytes size file.length)

structure Similarity where
  runs : Nat
  uniqueSha256 : Nat
  duplicateSha256Runs : List (List Nat)
  prefixBytes : Int
  uniquePrefixSha256 : Nat
  duplicatePrefixRuns : List (List Nat)
  adjacentPairs : Nat
  adjacentBitDifferenceRatio : StatRange
  adjacentByteEqualRatio : StatRange
  firstLast : Option Comparison

def prefixSha256 (memory : Nat) (sha256 : Bytes → Text) (prefixBytes : Int) (file : Bytes) :
    Except Refusal Text := do
  let size ← readLimit memory prefixBytes file
  return sha256 (file.take size)

noncomputable def crossRebootSimilarity (numpy : Bool) (memory : Nat) (sha256 : Bytes → Text)
    (files : List Bytes) (shaValues : List Text) (prefixBytes : Int) :
    Except Refusal Similarity := do
  let prefixValues ← files.mapM (prefixSha256 memory sha256 prefixBytes)
  let compare := fun pair : Bytes × Bytes => compareAlignedFiles numpy pair.1 pair.2 (1024 * 1024)
  let adjacent := (files.dropLast.zip files.tail).map compare
  return {
    runs := files.length
    uniqueSha256 := shaValues.dedup.length
    duplicateSha256Runs := duplicateRunGroups shaValues
    prefixBytes := prefixBytes
    uniquePrefixSha256 := prefixValues.dedup.length
    duplicatePrefixRuns := duplicateRunGroups prefixValues
    adjacentPairs := adjacent.length
    adjacentBitDifferenceRatio :=
      statRange (adjacent.map fun item => (item.bitDifferenceRatio : ℝ))
    adjacentByteEqualRatio := statRange (adjacent.map fun item => (item.byteEqualRatio : ℝ))
    firstLast :=
      if 1 < files.length then some (compare (files.headD [], files.getLastD [])) else none }

/-! ## Rows -/

structure RunRow where
  run : Nat
  path : Text
  metrics : Metrics
  sha256 : Text

structure WindowRow where
  run : Nat
  window : Nat
  offset : Nat
  windowBytes : Nat
  metrics : Metrics

/-- The columns that `main` summarizes. -/
inductive Column where
  | entropy
  | mcvMinEntropy
  | chiSquareExceed
  | meanByte
  | onesRatio
  | serialCorrelation
  deriving DecidableEq, Repr

def Column.value (metrics : Metrics) : Column → ℝ
  | .entropy => metrics.entropyBitsPerByte
  | .mcvMinEntropy => metrics.mcvMinEntropyBitsPerByte
  | .chiSquareExceed => metrics.chiSquareExceedPercent
  | .meanByte => metrics.meanByte
  | .onesRatio => metrics.onesRatio
  | .serialCorrelation => metrics.serialCorrelation

def windowColumns : List Column := [.entropy, .mcvMinEntropy, .serialCorrelation]

structure Analysis where
  aggregate : Metrics
  aggregateSha256 : Text
  runRows : List RunRow
  windowRows : List WindowRow
  perRun : Column → StatRange
  slopes : Column → ℝ
  firstLastQuartile : Column → FirstLast
  firstLastWindow : List (Column × FirstLast)
  similarity : Similarity

def runPaths (manifest : Manifest) : List Text :=
  (manifest.runs.filter fun run => run.status = "captured".toList).map ManifestRun.path

def Dataset.open (dataset : Dataset) (path : Text) : Except Refusal Bytes :=
  match dataset.files path with
  | none => .error (.noFile path)
  | some file => .ok file

section Analyze

variable (numpy : Bool) (memory : Nat) (chiSquareExceed : ℝ → ℝ) (sha256 : Bytes → Text)

noncomputable def analyzeRun (windowBytes : Int) (dataset : Dataset) (numbered : Text × Nat) :
    Except Refusal (RunRow × List WindowRow) := do
  let (path, runIndex) := numbered
  let file ← dataset.open path
  let metrics ← (metricsForFile numpy chiSquareExceed file).mapError Refusal.value
  let size ← readLimit memory windowBytes file
  let windows ← (iterWindows numpy chiSquareExceed size file).mapError Refusal.value
  return (⟨runIndex, path, metrics, sha256 file⟩,
    windows.map fun window =>
      ⟨runIndex, window.1, window.2.1, window.2.2.bytes, window.2.2⟩)

def maxWindowByRun (windowRows : List WindowRow) (run : Nat) : Int :=
  (windowRows.filter fun row => row.run = run).foldl (fun most row => max most row.window) (-1)

def firstRows (windowRows : List WindowRow) : List WindowRow :=
  windowRows.filter fun row => row.window = 0

def lastRows (windowRows : List WindowRow) : List WindowRow :=
  windowRows.filter fun row => row.window = maxWindowByRun windowRows row.run

noncomputable def firstLastWindow (windowRows : List WindowRow) (column : Column) : FirstLast :=
  firstLast ((firstRows windowRows).map fun row => column.value row.metrics)
    ((lastRows windowRows).map fun row => column.value row.metrics)
    (min (firstRows windowRows).length (lastRows windowRows).length)

noncomputable def summarizeRuns (aggregate : Metrics) (aggregateSha256 : Text)
    (runs : List (RunRow × List WindowRow)) (similarity : Similarity) : Analysis :=
  let runRows := runs.map Prod.fst
  let windowRows := runs.flatMap Prod.snd
  let values := fun column : Column => runRows.map fun row => column.value row.metrics
  let quartile := max 1 (runRows.length / 4)
  { aggregate := aggregate
    aggregateSha256 := aggregateSha256
    runRows := runRows
    windowRows := windowRows
    perRun := fun column => statRange (values column)
    slopes := fun column => linearSlope (runRows.map fun row => (row.run : ℝ)) (values column)
    firstLastQuartile := fun column => firstLast ((values column).take quartile)
      ((values column).drop ((values column).length - quartile)) quartile
    firstLastWindow :=
      if windowRows = [] then []
      else windowColumns.map fun column => (column, firstLastWindow windowRows column)
    similarity := similarity }

noncomputable def analyze (windowBytes prefixBytes : Int) (dataset : Dataset) :
    Except Refusal Analysis :=
  match dataset.manifest with
  | .missing => .error .missingManifest
  | .torn => .error .tornManifest
  | .whole manifest =>
      let paths := runPaths manifest
      if paths = [] then .error .noCapturedRuns
      else
        match dataset.files manifest.aggregatePath with
        | none => .error (.aggregateMissing manifest.aggregatePath)
        | some aggregateFile => do
            let aggregate ←
              (metricsForFile numpy chiSquareExceed aggregateFile).mapError Refusal.value
            let runs ←
              (paths.zipIdx 1).mapM
                (analyzeRun numpy memory chiSquareExceed sha256 windowBytes dataset)
            let files ← paths.mapM dataset.open
            let similarity ← crossRebootSimilarity numpy memory sha256 files
              (runs.map fun run => run.1.sha256) (min prefixBytes manifest.bytesPerRun)
            return summarizeRuns aggregate (sha256 aggregateFile) runs similarity

end Analyze

end BootEntropy.RawDump.Reboots
