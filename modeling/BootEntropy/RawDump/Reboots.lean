import BootEntropy.Lib.Bytes
import BootEntropy.Lib.Numerals
import BootEntropy.Lib.Run

/-!
# A dataset of reboot slices

`collect_reboot_slices.py` captures one slice for each reset of the board and may be
started again with `--resume` after it failed. The dataset is the files below its root,
its manifest, and which captures were started for it.
-/

namespace BootEntropy.RawDump.Reboots

open BootEntropy.Lib

set_option autoImplicit false

/-! ## Arguments -/

def defaultBytesPerRun : Int := 8 * 1024 * 1024

structure RebootArgs where
  runs : Int
  bytesPerRun : Option Int
  totalBytes : Option Int

inductive Refused where
  | runsNotPositive
  | totalNotPositive
  | productDiffers
  | notDivisible
  | bytesNotPositive
  deriving DecidableEq, Repr

def deriveBytesPerRun (args : RebootArgs) : Except Refused Int :=
  match args.totalBytes with
  | some total =>
      if total ≤ 0 then .error .totalNotPositive
      else
        match args.bytesPerRun with
        | some bytes => if bytes * args.runs ≠ total then .error .productDiffers else .ok bytes
        | none =>
            if total.fmod args.runs ≠ 0 then .error .notDivisible else .ok (total.fdiv args.runs)
  | none =>
      match args.bytesPerRun with
      | some 0 | none => .ok defaultBytesPerRun
      | some bytes => .ok bytes

/-- What `main` goes on with. -/
structure Plan where
  runs : Nat
  bytesPerRun : Nat
  runsPositive : 0 < runs
  bytesPositive : 0 < bytesPerRun

def plan (args : RebootArgs) : Except Refused Plan :=
  if runs : args.runs ≤ 0 then .error .runsNotPositive
  else
    match deriveBytesPerRun args with
    | .error refused => .error refused
    | .ok bytes =>
        if positive : bytes ≤ 0 then .error .bytesNotPositive
        else .ok ⟨args.runs.toNat, bytes.toNat, by omega, by omega⟩

/-! ## Files -/

def sliceTag : Text := "raw/wifi_idle_reboot_".toList

def Plan.slicePath (plan : Plan) (index : Nat) : Text :=
  sliceTag ++ (paddedDecimal (max 3 (decimal plan.runs).length) index ++
    '_' :: (decimal plan.bytesPerRun ++ ".bin".toList))

def concatPath (total : Nat) : Text := sliceTag ++ ("concat_".toList ++ decimal total ++ ".bin".toList)

/-- The file that `concatenate` writes and then moves into place. -/
def concatTemp (total : Nat) : Text := concatPath total ++ ".tmp".toList

/-- What a capture script did: the file it left, if it opened it, and how it exited. With
no status the host was interrupted together with it. -/
structure Attempt where
  left : Option Bytes
  status : Option Int

/-- An entry of `runs` of the manifest. `reused` says that there are no capture seconds. -/
structure ManifestRun where
  run : Nat
  status : Text
  path : Text
  bytes : Nat
  sha256 : Text
  reused : Bool
  deriving DecidableEq

structure Manifest where
  runsRequested : Nat
  runsCaptured : Nat
  bytesPerRun : Nat
  aggregateBytes : Nat
  aggregatePath : Text
  aggregateFileBytes : Nat
  aggregateSha256 : Text
  runs : List ManifestRun
  deriving DecidableEq

/-- `manifest.json` is opened, which empties it, and written in place. -/
inductive ManifestFile where
  | missing
  | torn
  | whole (manifest : Manifest)
  deriving DecidableEq

structure Dataset where
  files : Text → Option Bytes
  manifest : ManifestFile
  log : List (Nat × Attempt)

def emptyDataset : Dataset := ⟨fun _ => none, .missing, []⟩

def Dataset.size (dataset : Dataset) (path : Text) : Nat :=
  ((dataset.files path).map List.length).getD 0

/-- `path.open("rb").read()` of a file that is there. -/
def Dataset.contents (dataset : Dataset) (path : Text) : Bytes := (dataset.files path).getD []

def Dataset.write (dataset : Dataset) (path : Text) (file : Bytes) : Dataset :=
  { dataset with files := Function.update dataset.files path (some file) }

/-- `source.replace(target)`. -/
def Dataset.replace (dataset : Dataset) (source target : Text) : Dataset :=
  { dataset with
    files := Function.update (Function.update dataset.files target (dataset.files source)) source none }

/-! ## Collection -/

inductive Failure where
  | buildFailed
  | captureFailed (status : Int)
  | wrongSize (path : Text) (size expected : Nat)
  | interrupted
  deriving DecidableEq

/-- Where a start ends early, other than in a capture. -/
inductive Interruption where
  /-- Ahead of a run, or with the digest of the slice in front of it. -/
  | run (index : Nat)
  | collected
  /-- In `concatenate`, behind so many bytes. -/
  | copying (written : Nat)
  | replaced
  /-- While `manifest.json` is written. -/
  | describing
  /-- Behind the manifest, with the README. -/
  | described
  deriving DecidableEq

/-- One start of the script: what the build and each capture come to, and where it is
interrupted. -/
structure Invocation where
  resume : Bool
  built : Bool
  attempts : Nat → Attempt
  interrupted : Option Interruption

/-- The variables of the loop of `main`. -/
structure Collection where
  dataset : Dataset
  runs : List ManifestRun
  captured : List Text

section Collect

variable (sha256 : Bytes → Text) (plan : Plan)

def Dataset.captureOne (dataset : Dataset) (index : Nat) (attempt : Attempt) : Dataset :=
  let logged := { dataset with log := dataset.log ++ [(index, attempt)] }
  match attempt.left with
  | none => logged
  | some file => logged.write (plan.slicePath index) file

def Collection.note (collection : Collection) (index : Nat) (reused : Bool) :
    Next Collection Failure :=
  let path := plan.slicePath index
  let size := collection.dataset.size path
  if size ≠ plan.bytesPerRun then .stop collection (.wrongSize path size plan.bytesPerRun)
  else
    .go { collection with
      captured := collection.captured ++ [path]
      runs := collection.runs ++ [⟨index, "captured".toList, path, size,
        sha256 (collection.dataset.contents path), reused⟩] }

def captureRun (invocation : Invocation) (collection : Collection) (index : Nat) :
    Next Collection Failure :=
  let path := plan.slicePath index
  if invocation.interrupted = some (.run index) then .stop collection .interrupted
  else if invocation.resume ∧ (collection.dataset.files path).isSome ∧
      collection.dataset.size path = plan.bytesPerRun then
    collection.note sha256 plan index true
  else
    let attempt := invocation.attempts index
    let after :=
      { collection with dataset := collection.dataset.captureOne plan index attempt }
    match attempt.status with
    | none => .stop after .interrupted
    | some status =>
        if status ≠ 0 then .stop after (.captureFailed status)
        else after.note sha256 plan index false

def Collection.total (collection : Collection) : Nat := plan.bytesPerRun * collection.captured.length

/-- What `concatenate` has copied so far. -/
def Collection.copied (collection : Collection) (written : Nat) : Dataset :=
  collection.dataset.write (concatTemp (collection.total plan))
    ((collection.captured.flatMap collection.dataset.contents).take written)

def Collection.concatenated (collection : Collection) : Dataset :=
  (collection.dataset.write (concatTemp (collection.total plan))
    (collection.captured.flatMap collection.dataset.contents)).replace
      (concatTemp (collection.total plan)) (concatPath (collection.total plan))

def Collection.manifest (collection : Collection) : Manifest :=
  let path := concatPath (collection.total plan)
  let dataset := collection.concatenated plan
  { runsRequested := plan.runs
    runsCaptured := collection.captured.length
    bytesPerRun := plan.bytesPerRun
    aggregateBytes := collection.total plan
    aggregatePath := path
    aggregateFileBytes := dataset.size path
    aggregateSha256 := sha256 (dataset.contents path)
    runs := collection.runs }

def finish (interrupted : Option Interruption) (collection : Collection) :
    Dataset × Except Failure Manifest :=
  let dataset := collection.concatenated plan
  let manifest := collection.manifest sha256 plan
  match interrupted with
  | some .collected => (collection.dataset, .error .interrupted)
  | some (.copying written) => (collection.copied plan written, .error .interrupted)
  | some .replaced => (dataset, .error .interrupted)
  | some .describing => ({ dataset with manifest := .torn }, .error .interrupted)
  | some .described => ({ dataset with manifest := .whole manifest }, .error .interrupted)
  | some (.run _) | none => ({ dataset with manifest := .whole manifest }, .ok manifest)

def collect (dataset : Dataset) (invocation : Invocation) : Dataset × Except Failure Manifest :=
  if ¬invocation.built then (dataset, .error .buildFailed)
  else
    match run (captureRun sha256 plan invocation) ⟨dataset, [], []⟩ (List.range' 1 plan.runs) with
    | (collection, some failure) => (collection.dataset, .error failure)
    | (collection, none) => finish sha256 plan invocation.interrupted collection

/-- The script started again and again for one dataset. -/
def collectAll (dataset : Dataset) (invocations : List Invocation) : Dataset :=
  invocations.foldl (fun dataset invocation => (collect sha256 plan dataset invocation).1) dataset

end Collect

/-! ## Paths -/

theorem slice_path_injective (plan : Plan) : Function.Injective plan.slicePath := by
  intro left right same
  have tails := List.append_cancel_left same
  have taken {index : Nat} (rest : Text) :
      (paddedDecimal (max 3 (decimal plan.runs).length) index ++ '_' :: rest).takeWhile
        Char.isDigit = paddedDecimal (max 3 (decimal plan.runs).length) index := by
    rw [List.takeWhile_append_of_pos (padded_decimal_plain _ index)]
    simp
  have digits := congrArg (List.takeWhile Char.isDigit) tails
  rw [taken, taken] at digits
  exact padded_decimal_injective _ digits

/-- Behind the tag a slice has a digit, the aggregate a letter. -/
theorem slice_path_ne (plan : Plan) (index : Nat) (rest : Text) :
    plan.slicePath index ≠ sliceTag ++ 'c' :: rest := by
  intro same
  have tails := List.append_cancel_left same
  have digits := padded_decimal_plain (max 3 (decimal plan.runs).length) index
  cases printed : paddedDecimal (max 3 (decimal plan.runs).length) index with
  | nil =>
      rw [printed] at tails
      exact absurd (List.cons.inj tails).1 (by decide)
  | cons d behind =>
      rw [printed] at tails digits
      have first : d = 'c' := (List.cons.inj tails).1
      have digit := digits d (List.mem_cons_self ..)
      rw [first] at digit
      exact absurd digit (by decide)

theorem slice_path_ne_concat (plan : Plan) (index total : Nat) :
    plan.slicePath index ≠ concatPath total := slice_path_ne plan index _

theorem slice_path_ne_temp (plan : Plan) (index total : Nat) :
    plan.slicePath index ≠ concatTemp total := slice_path_ne plan index _

theorem concat_temp_ne (total : Nat) : concatTemp total ≠ concatPath total := by
  intro same
  exact absurd (List.append_right_eq_self.mp same) (by decide)

end BootEntropy.RawDump.Reboots
