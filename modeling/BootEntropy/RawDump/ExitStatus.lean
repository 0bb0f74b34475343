import BootEntropy.RawDump.Capture

/-!
# The exit status of `capture_binary.py`

`main` from its banner to the interpreter's exit status. Exceptions before the
collection and inside the `finally` block end the script with an error, also those of
printing a target that is too large for a float. Those inside the collection are
printed, and the script ends normally: its status is zero however short the file is.
-/

namespace BootEntropy.RawDump

open BootEntropy.Lib

set_option autoImplicit false

/-- One pass of the collection loop. A `write` that raises is given by the number of
bytes it leaves in the file. -/
structure Pass where
  result : ReadResult
  writeFault : Option Nat
  deriving DecidableEq, Repr

/-- What a `write` or `close` that raises leaves of `file`: the last byte is lost. -/
def leftBy (kept : Nat) (file : Bytes) : Bytes := file.dropLast.take kept

inductive Collected where
  | waiting
  | raised (file : Bytes)
  | finished (file : Bytes)
  deriving DecidableEq, Repr

/-- The loop of the collection, with the writes. An interrupt between two passes is
one during the next read. -/
def collectPasses (target : Int) : Bytes → Nat → Bytes → List Pass → Collected
  | file, _, _, [] => if target ≤ file.length then .finished file else .waiting
  | file, timeouts, pending, pass :: passes =>
      if target ≤ file.length then .finished file
      else
        match pass.result with
        | .raises => .raised file
        | .ready count =>
            let toRead := min chunkSize (target - file.length).toNat
            let data := pending.take (min count toRead)
            if data = [] then
              if 3 ≤ timeouts + 1 then .raised file
              else collectPasses target file (timeouts + 1) pending passes
            else
              match pass.writeFault with
              | some kept => .raised (leftBy kept (file ++ data))
              | none => collectPasses target (file ++ data) 0 (pending.drop (min count toRead)) passes

/-- Everything one run of `main` meets. -/
structure CaptureRun where
  args : CaptureArgs
  /-- Opening, draining or resetting the port raises. -/
  setupRaises : Bool
  startTime : Int
  stream : Bytes
  /-- The reads of the marker scan. -/
  calls : List ReadCall
  /-- Creating the output directory raises. -/
  directoryRaises : Bool
  oldFile : Option Bytes
  openRaises : Bool
  initialFault : Option Nat
  passes : List Pass
  closeFault : Option Nat
  /-- Draining the logs behind the raw bytes raises. -/
  drainRaises : Bool
  /-- Stopping the UDP sender or closing the port raises. -/
  cleanupRaises : Bool

/-- The `try` block: whether an exception was caught, and the file it leaves. -/
def captureToFile (run : CaptureRun) (target : Int) (initialData pending : Bytes) :
    Option (Bool × Option Bytes) :=
  if run.openRaises then some (true, run.oldFile)
  else
    let initialChunk := sliceTo initialData target
    let collect :=
      match collectPasses target initialChunk 0 pending run.passes with
      | .waiting => none
      | .raised file => some (true, some file)
      | .finished file =>
          match run.closeFault with
          | some kept => some (true, some (leftBy kept file))
          | none => some (run.drainRaises, some file)
    match run.initialFault with
    | some kept =>
        if initialChunk = [] then collect else some (true, some (leftBy kept initialChunk))
    | none => collect

structure CaptureExit where
  exitsZero : Bool
  /-- An exception of the collection was reported. -/
  reported : Bool
  file : Option Bytes
  deriving DecidableEq, Repr

/-- `none` is a run that has not ended when its reads are used up. -/
def captureMain (run : CaptureRun) : Option CaptureExit :=
  match bannerSize run.args with
  | .error _ => some ⟨false, false, run.oldFile⟩
  | .ok _ =>
      if run.setupRaises then some ⟨false, false, run.oldFile⟩
      else
        match scanMarker run.args run.startTime (startScan run.args) run.stream run.calls with
        | .waiting => none
        | .timedOut => some ⟨false, false, run.oldFile⟩
        | .crashed => some ⟨false, false, run.oldFile⟩
        | .handedOver state initialData pending _ =>
            let target := targetBytes run.args state.firmwareBytes
            match sizeInGb target with
            | .error _ => some ⟨false, false, run.oldFile⟩
            | .ok _ =>
                if run.directoryRaises then some ⟨false, false, run.oldFile⟩
                else
                  (captureToFile run target initialData pending).map
                    fun ended => ⟨!run.cleanupRaises, ended.1, ended.2⟩

/-- The last line of `run_condition.sh`: `set -e` ends the script at a capture that
fails. -/
def runCondition (outputFile : Text) (ended : CaptureExit) : List Text :=
  if ended.exitsZero then ["Captured: ".toList ++ outputFile] else []

/-- With every write going through, the loop is the one of `capture_binary`. -/
theorem collect_binary_eq (target : Int) (calls : List ReadCall) :
    ∀ (file pending : Bytes) (timeouts : Nat),
      collectBinary target file timeouts pending calls =
        match collectPasses target file timeouts pending
          (calls.map fun call => ⟨call.result, none⟩) with
        | .waiting => .waiting
        | .raised file => .failed file
        | .finished file => .success file := by
  induction calls with
  | nil =>
      intro file pending timeouts
      rw [List.map_nil, collectBinary, collectPasses]
      split_ifs
      · rfl
      · rfl
  | cons call calls ih =>
      intro file pending timeouts
      rw [List.map_cons, collectBinary, collectPasses]
      by_cases full : target ≤ file.length
      · rw [if_pos full, if_pos full]
      · rw [if_neg full, if_neg full]
        cases call.result with
        | raises => rfl
        | ready count =>
            dsimp only
            split_ifs
            · rfl
            · exact ih _ _ _
            · exact ih _ _ _

/-! ## Reads that serve a target -/

def Pass.count (pass : Pass) : Nat :=
  match pass.result with
  | .ready count => count
  | .raises => 0

/-- Neither the read raises nor the write of what it brought. -/
def Pass.Sound (pass : Pass) : Prop :=
  pass.result ≠ .raises ∧ (pass.count = 0 ∨ pass.writeFault = none)

/-- The first passes `served` bring a file of `have` bytes to `size` bytes when `left`
bytes are still to come: nothing raises, no three reads in a row are empty, and
enough bytes arrive. `timeouts` counts the empty reads right before. -/
structure Served (size held timeouts left : Nat) (served : List Pass) : Prop where
  sound : ∀ pass ∈ served, pass.Sound
  noStall : ¬[0, 0, 0] <:+: List.replicate timeouts 0 ++ served.map Pass.count
  enough : size ≤ held + min left (served.map fun pass => min pass.count chunkSize).sum

/-- The reads serve the target before anything goes wrong. -/
def Serves (size held timeouts left : Nat) (passes : List Pass) : Prop :=
  ∃ served, served <+: passes ∧ Served size held timeouts left served

theorem no_stall_short {timeouts : Nat} (few : timeouts ≤ 2) :
    ¬[0, 0, 0] <:+: List.replicate timeouts 0 ++ ([] : List Nat) := by
  intro stall
  have length := stall.length_le
  simp at length
  omega

theorem stall_behind_data {timeouts count : Nat} (few : timeouts ≤ 2) (data : count ≠ 0)
    (counts : List Nat) :
    [0, 0, 0] <:+: List.replicate timeouts 0 ++ count :: counts ↔ [0, 0, 0] <:+: counts := by
  have some : 0 ≠ count := data.symm
  match timeouts with
  | 0 => simp [List.infix_cons_iff, List.cons_prefix_cons, some]
  | 1 => simp [List.infix_cons_iff, List.cons_prefix_cons, some]
  | 2 => simp [List.infix_cons_iff, List.cons_prefix_cons, List.replicate, some]
  | more + 3 => omega

theorem serves_reached {size held timeouts left : Nat} (reached : size ≤ held)
    (few : timeouts ≤ 2) (passes : List Pass) : Serves size held timeouts left passes := by
  refine ⟨[], List.nil_prefix, ?_, no_stall_short few, ?_⟩
  · simp
  · omega

section Step

variable {size held timeouts left : Nat} {pass : Pass} {passes : List Pass}

theorem serves_cons (short : ¬size ≤ held) (serves : Serves size held timeouts left (pass :: passes)) :
    ∃ served, served <+: passes ∧ Served size held timeouts left (pass :: served) := by
  obtain ⟨served, front, served'⟩ := serves
  cases served with
  | nil =>
      have enough := served'.enough
      simp at enough
      omega
  | cons first served =>
      obtain ⟨rfl, behind⟩ := List.cons_prefix_cons.mp front
      exact ⟨served, behind, served'⟩

theorem not_serves_drained (short : ¬size ≤ held) : ¬Serves size held timeouts 0 passes := by
  rintro ⟨served, _, _, _, enough⟩
  simp at enough
  omega

theorem not_serves_unsound (short : ¬size ≤ held) (unsound : ¬pass.Sound) :
    ¬Serves size held timeouts left (pass :: passes) := by
  intro serves
  obtain ⟨served, _, sound, _, _⟩ := serves_cons short serves
  exact unsound (sound pass List.mem_cons_self)

theorem not_serves_stalled (short : ¬size ≤ held) (stalled : 2 ≤ timeouts)
    (silent : pass.count = 0) : ¬Serves size held timeouts left (pass :: passes) := by
  intro serves
  obtain ⟨served, _, _, noStall, _⟩ := serves_cons short serves
  apply noStall
  obtain ⟨before, rfl⟩ := Nat.exists_eq_add_of_le' stalled
  rw [List.map_cons, silent, List.replicate_add, List.append_assoc]
  exact ⟨List.replicate before 0, served.map Pass.count, by simp [List.replicate]⟩

theorem serves_silent (short : ¬size ≤ held) (sound : pass.Sound) (silent : pass.count = 0) :
    Serves size held timeouts left (pass :: passes) ↔
      Serves size held (timeouts + 1) left passes := by
  have counts (served : List Pass) :
      List.replicate timeouts 0 ++ (pass :: served).map Pass.count =
        List.replicate (timeouts + 1) 0 ++ served.map Pass.count := by
    rw [List.map_cons, silent, List.replicate_succ', List.append_assoc, List.singleton_append]
  have sum (served : List Pass) :
      ((pass :: served).map fun pass => min pass.count chunkSize).sum =
        (served.map fun pass => min pass.count chunkSize).sum := by
    rw [List.map_cons, List.sum_cons, silent, Nat.zero_min, Nat.zero_add]
  constructor
  · intro serves
    obtain ⟨served, front, served'⟩ := serves_cons short serves
    refine ⟨served, front, (List.forall_mem_cons.mp served'.sound).2, ?_, ?_⟩
    · rw [← counts]
      exact served'.noStall
    · rw [← sum]
      exact served'.enough
  · rintro ⟨served, front, served'⟩
    refine ⟨pass :: served, List.cons_prefix_cons.mpr ⟨rfl, front⟩,
      List.forall_mem_cons.mpr ⟨sound, served'.sound⟩, ?_, ?_⟩
    · rw [counts]
      exact served'.noStall
    · rw [sum]
      exact served'.enough

theorem serves_data (short : ¬size ≤ held) (few : timeouts ≤ 2) (sound : pass.Sound)
    (data : pass.count ≠ 0) {brought : Nat}
    (length : brought = min (min pass.count (min chunkSize (size - held))) left) :
    Serves size held timeouts left (pass :: passes) ↔
      Serves size (held + brought) 0 (left - min pass.count (min chunkSize (size - held)))
        passes := by
  have stall (served : List Pass) := @stall_behind_data _ _ few data (served.map Pass.count)
  constructor
  · intro serves
    obtain ⟨served, front, served'⟩ := serves_cons short serves
    refine ⟨served, front, (List.forall_mem_cons.mp served'.sound).2, ?_, ?_⟩
    · intro stalled
      exact served'.noStall ((stall served).mpr stalled)
    · have enough := served'.enough
      rw [List.map_cons, List.sum_cons] at enough
      omega
  · rintro ⟨served, front, served'⟩
    refine ⟨pass :: served, List.cons_prefix_cons.mpr ⟨rfl, front⟩,
      List.forall_mem_cons.mpr ⟨sound, served'.sound⟩, ?_, ?_⟩
    · intro stalled
      exact served'.noStall ((stall served).mp stalled)
    · have enough := served'.enough
      rw [List.map_cons, List.sum_cons]
      omega

end Step

/-- The loop that ends has a full file when the reads serve the target, and raises
with a short one when they do not. -/
def Collected.Agrees (size : Nat) (serves : Prop) : Collected → Prop
  | .waiting => True
  | .raised file => file.length < size ∧ ¬serves
  | .finished file => file.length = size ∧ serves

theorem left_by_length {kept : Nat} {file : Bytes} (filled : file ≠ []) :
    (leftBy kept file).length < file.length := by
  have some := List.length_pos_iff.mpr filled
  rw [leftBy, List.length_take, List.length_dropLast]
  omega

theorem Pass.sound_of_ready {pass : Pass} {count : Nat} (ready : pass.result = .ready count) :
    pass.count = count ∧ (pass.Sound ↔ count = 0 ∨ pass.writeFault = none) := by
  have same : pass.count = count := by rw [Pass.count, ready]
  rw [Pass.Sound, same, ready]
  simp

theorem Collected.Agrees.congr {size : Nat} {serves other : Prop} {collected : Collected}
    (agrees : collected.Agrees size serves) (same : other ↔ serves) :
    collected.Agrees size other := by
  rw [propext same]
  exact agrees

/-- By induction on the passes; the file never exceeds the target. -/
theorem collect_passes_agrees (size : Nat) (passes : List Pass) :
    ∀ {file pending : Bytes} {timeouts : Nat}, file.length ≤ size → timeouts ≤ 2 →
      (collectPasses size file timeouts pending passes).Agrees size
        (Serves size file.length timeouts pending.length passes) := by
  induction passes with
  | nil =>
      intro file pending timeouts room few
      rw [collectPasses]
      split_ifs with full
      · exact ⟨by omega, serves_reached (by omega) few []⟩
      · trivial
  | cons pass passes ih =>
      intro file pending timeouts room few
      rw [collectPasses]
      by_cases full : (size : Int) ≤ file.length
      · rw [if_pos full]
        exact ⟨by omega, serves_reached (by omega) few _⟩
      rw [if_neg full]
      have short : ¬size ≤ file.length := by omega
      cases result : pass.result with
      | raises =>
          have unsound : ¬pass.Sound := fun sound => sound.1 result
          exact ⟨by omega, not_serves_unsound short unsound⟩
      | ready count =>
          obtain ⟨counted, sound⟩ := Pass.sound_of_ready result
          have missing : ((size : Int) - file.length).toNat = size - file.length := by omega
          simp only [missing]
          have dataLength : (pending.take (min count (min chunkSize (size - file.length)))).length =
              min (min pass.count (min chunkSize (size - file.length))) pending.length := by
            rw [counted, List.length_take]
          by_cases silent : pending.take (min count (min chunkSize (size - file.length))) = []
          · simp only [silent, if_true]
            rw [silent, List.length_nil] at dataLength
            by_cases drained : pending = []
            · have none (timeouts : Nat) (passes : List Pass) :
                  ¬Serves size file.length timeouts pending.length passes := by
                rw [drained]
                exact not_serves_drained short
              split_ifs with last
              · exact ⟨by omega, none _ _⟩
              · exact (ih room (by omega)).congr (iff_of_false (none _ _) (none _ _))
            · have some := List.length_pos_iff.mpr drained
              have zero : pass.count = 0 := by
                rw [chunkSize] at dataLength
                omega
              split_ifs with last
              · exact ⟨by omega, not_serves_stalled short (by omega) zero⟩
              · exact (ih room (by omega)).congr
                  (serves_silent short (sound.mpr (.inl (counted ▸ zero))) zero)
          · simp only [silent, if_false]
            have some := List.length_pos_iff.mpr silent
            have data : pass.count ≠ 0 := by omega
            have room' : (file ++ pending.take
                (min count (min chunkSize (size - file.length)))).length ≤ size := by
              rw [List.length_append]
              omega
            cases fault : pass.writeFault with
            | some kept =>
                have unsound : ¬pass.Sound := by
                  rw [sound, fault]
                  simp [← counted, data]
                have lost := @left_by_length kept _ (List.append_ne_nil_of_right_ne_nil file silent)
                exact ⟨by omega, not_serves_unsound short unsound⟩
            | none =>
                apply (ih room' (by omega)).congr
                rw [List.length_append, List.length_drop, ← counted]
                rw [← counted] at dataLength
                exact serves_data short few (sound.mpr (.inr fault)) data dataLength

/-! ## The status and the file -/

def CaptureExit.FullLength (ended : CaptureExit) (target : Option Int) : Prop :=
  ∃ bytes, ended.file = some bytes ∧ target = some (bytes.length : Int)

/-- Status zero, and the line of the calling script, only with a full file. -/
structure Truthful (run : CaptureRun) (ended : CaptureExit) (outputFile : Text) : Prop where
  status : ended.exitsZero = true →
    ended.FullLength (captureTarget run.args run.startTime run.stream run.calls)
  script : "Captured: ".toList ++ outputFile ∈ runCondition outputFile ended →
    ended.FullLength (captureTarget run.args run.startTime run.stream run.calls)

/-- The collection brings `size` bytes into the file: nothing raises before they are
there and the file is closed. An output that cannot be opened stays as it was. -/
def FullCapture (run : CaptureRun) (size : Nat) (initialData pending : Bytes) : Prop :=
  if run.openRaises then run.oldFile.map List.length = some size
  else
    size = 0 ∨
      ((initialData = [] ∨ run.initialFault = none) ∧ run.closeFault = none ∧
        Serves size (min size initialData.length) 0 pending.length run.passes)

/-- The run gets to the collection: the marker is found, the target can be printed
and the directory is there. -/
structure CaptureRun.Starts (run : CaptureRun) (state : ScanState) (initialData pending : Bytes) :
    Prop where
  setup : run.setupRaises = false
  marker : ∃ later, scanMarker run.args run.startTime (startScan run.args) run.stream run.calls =
    .handedOver state initialData pending later
  printed : |targetBytes run.args state.firmwareBytes| < printableTarget
  directory : run.directoryRaises = false

/-- The run gets to the collection and through the `finally` block. -/
structure CaptureRun.Collects (run : CaptureRun) (state : ScanState) (initialData pending : Bytes) :
    Prop extends run.Starts state initialData pending where
  cleanup : run.cleanupRaises = false

theorem collected_file_length {run : CaptureRun} {size : Nat} {chunk pending : Bytes}
    {ended : Bool × Option Bytes} (room : chunk.length ≤ size)
    (ends : (match collectPasses size chunk 0 pending run.passes with
      | .waiting => none
      | .raised file => some (true, some file)
      | .finished file =>
          match run.closeFault with
          | some kept => some (true, some (leftBy kept file))
          | none => some (run.drainRaises, some file)) = some ended) :
    ended.2.map List.length = some size ↔
      Serves size chunk.length 0 pending.length run.passes ∧ (size = 0 ∨ run.closeFault = none) := by
  have agrees := @collect_passes_agrees size run.passes chunk pending 0 room (Nat.zero_le 2)
  cases collected : collectPasses size chunk 0 pending run.passes with
  | waiting => simp [collected] at ends
  | raised file =>
      rw [collected] at agrees ends
      obtain ⟨short, stuck⟩ := agrees
      cases ends
      simp only [Option.map_some, Option.some.injEq, stuck, false_and, iff_false]
      omega
  | finished file =>
      rw [collected] at agrees ends
      obtain ⟨full, serves⟩ := agrees
      simp only [serves, true_and]
      cases fault : run.closeFault with
      | none =>
          rw [fault] at ends
          cases ends
          simp [full]
      | some kept =>
          rw [fault] at ends
          cases ends
          simp only [Option.map_some, Option.some.injEq, reduceCtorEq, or_false]
          by_cases filled : file = []
          · rw [filled] at full
            rw [filled, ← full, leftBy, List.dropLast_nil, List.take_nil]
            exact iff_of_true rfl rfl
          · have lost := @left_by_length kept _ filled
            have some := List.length_pos_iff.mpr filled
            omega

theorem capture_to_file_full_iff {run : CaptureRun} {size : Nat} {initialData pending : Bytes}
    {ended : Bool × Option Bytes} (ends : captureToFile run size initialData pending = some ended) :
    ended.2.map List.length = some size ↔ FullCapture run size initialData pending := by
  have chunk : sliceTo initialData size = initialData.take size := by
    rw [sliceTo, if_pos (Int.natCast_nonneg size), Int.toNat_natCast]
  have length : (initialData.take size).length = min size initialData.length := List.length_take
  have room : (initialData.take size).length ≤ size := by omega
  have reached (none : size = 0) :
      Serves size (min size initialData.length) 0 pending.length run.passes :=
    serves_reached (by omega) (Nat.zero_le 2) run.passes
  rw [captureToFile] at ends
  rw [FullCapture]
  by_cases opened : run.openRaises = true
  · rw [if_pos opened] at ends ⊢
    cases ends
    rfl
  · rw [if_neg opened] at ends ⊢
    simp only [chunk] at ends
    have collect (ends : (match collectPasses size (initialData.take size) 0 pending run.passes with
        | .waiting => none
        | .raised file => some (true, some file)
        | .finished file =>
            match run.closeFault with
            | some kept => some (true, some (leftBy kept file))
            | none => some (run.drainRaises, some file)) = some ended)
        (written : size = 0 ∨ initialData = [] ∨ run.initialFault = none) :
        ended.2.map List.length = some size ↔ size = 0 ∨
          ((initialData = [] ∨ run.initialFault = none) ∧ run.closeFault = none ∧
            Serves size (min size initialData.length) 0 pending.length run.passes) := by
      rw [collected_file_length room ends, length]
      by_cases none : size = 0
      · exact iff_of_true ⟨reached none, .inl none⟩ (.inl none)
      · simp only [none, false_or] at written ⊢
        simp only [written, true_and]
        exact and_comm
    cases fault : run.initialFault with
    | none =>
        rw [fault] at ends collect
        exact collect ends (.inr (.inr rfl))
    | some kept =>
        rw [fault] at ends collect
        by_cases empty : initialData.take size = []
        · simp only [empty, if_true] at ends collect
          apply collect ends
          rcases List.take_eq_nil_iff.mp empty with none | none
          · exact .inl none
          · exact .inr (.inl none)
        · simp only [empty, if_false] at ends
          cases ends
          have lost := @left_by_length kept _ empty
          rw [List.take_eq_nil_iff, not_or] at empty
          simp only [Option.map_some, Option.some.injEq, empty, reduceCtorEq, or_self, false_and,
            iff_false]
          omega

theorem truthful_iff_status {run : CaptureRun} {ended : CaptureExit} (outputFile : Text) :
    Truthful run ended outputFile ↔ (ended.exitsZero = true →
      ended.FullLength (captureTarget run.args run.startTime run.stream run.calls)) := by
  have script : ("Captured: ".toList ++ outputFile ∈ runCondition outputFile ended) ↔
      ended.exitsZero = true := by
    rw [runCondition]
    split_ifs with zero
    · simp [zero]
    · simp [zero]
  constructor
  · exact Truthful.status
  · intro truthful
    exact ⟨truthful, fun printed => truthful (script.mp printed)⟩

theorem collection_full_iff {run : CaptureRun} {target : Int} {initialData pending : Bytes}
    {ended : Bool × Option Bytes}
    (ends : captureToFile run target initialData pending = some ended) (exitsZero : Bool) :
    CaptureExit.FullLength ⟨exitsZero, ended.1, ended.2⟩ (some target) ↔
      ∃ size : Nat, target = size ∧ FullCapture run size initialData pending := by
  constructor
  · rintro ⟨bytes, file, length⟩
    cases Option.some.inj length
    refine ⟨bytes.length, rfl, (capture_to_file_full_iff ends).mp ?_⟩
    rw [show ended.2 = some bytes from file]
    rfl
  · rintro ⟨size, rfl, full⟩
    have length := (capture_to_file_full_iff ends).mpr full
    obtain ⟨bytes, file, rfl⟩ := Option.map_eq_some_iff.mp length
    exact ⟨bytes, file, rfl⟩

theorem CaptureRun.Starts.only {run : CaptureRun} {state otherState : ScanState}
    {initialData pending otherData otherPending : Bytes} (starts : run.Starts state initialData pending)
    (other : run.Starts otherState otherData otherPending) :
    otherState = state ∧ otherData = initialData ∧ otherPending = pending := by
  obtain ⟨_, marker⟩ := starts.marker
  obtain ⟨_, otherMarker⟩ := other.marker
  rw [marker] at otherMarker
  cases otherMarker
  exact ⟨rfl, rfl, rfl⟩

theorem capture_main_cases {run : CaptureRun} {ended : CaptureExit}
    (ends : captureMain run = some ended) :
    (ended = ⟨false, false, run.oldFile⟩ ∧
        ∀ state initialData pending, ¬run.Starts state initialData pending) ∨
      ∃ state initialData pending written, run.Starts state initialData pending ∧
        captureToFile run (targetBytes run.args state.firmwareBytes) initialData pending =
          some written ∧
        ended = ⟨!run.cleanupRaises, written.1, written.2⟩ := by
  have unmarked {result : ScanEnd}
      (scan : scanMarker run.args run.startTime (startScan run.args) run.stream run.calls = result)
      (other : ∀ state initialData pending later,
        result ≠ .handedOver state initialData pending later) :
      ∀ state initialData pending, ¬run.Starts state initialData pending := by
    intro state initialData pending starts
    obtain ⟨later, marker⟩ := starts.marker
    exact other state initialData pending later (scan.symm.trans marker)
  rw [captureMain] at ends
  cases banner : bannerSize run.args with
  | error raised =>
      simp only [banner, Option.some.injEq] at ends
      refine .inl ⟨ends.symm, fun state initialData pending starts => ?_⟩
      obtain ⟨size, shown⟩ := banner_size_of_target ((size_in_gb_succeeds _).mpr starts.printed)
      rw [banner] at shown
      cases shown
  | ok size =>
      simp only [banner] at ends
      by_cases setup : run.setupRaises = true
      · rw [if_pos setup, Option.some.injEq] at ends
        refine .inl ⟨ends.symm, fun state initialData pending starts => ?_⟩
        rw [starts.setup] at setup
        cases setup
      rw [if_neg setup] at ends
      cases scan : scanMarker run.args run.startTime (startScan run.args) run.stream run.calls with
      | waiting => simp [scan] at ends
      | timedOut =>
          simp only [scan, Option.some.injEq] at ends
          exact .inl ⟨ends.symm, unmarked scan fun _ _ _ _ => ScanEnd.noConfusion⟩
      | crashed =>
          simp only [scan, Option.some.injEq] at ends
          exact .inl ⟨ends.symm, unmarked scan fun _ _ _ _ => ScanEnd.noConfusion⟩
      | handedOver state initialData pending later =>
          simp only [scan] at ends
          have same {otherState : ScanState} {otherData otherPending : Bytes}
              (starts : run.Starts otherState otherData otherPending) : otherState = state := by
            obtain ⟨_, marker⟩ := starts.marker
            rw [scan] at marker
            cases marker
            rfl
          have printable := size_in_gb_succeeds (targetBytes run.args state.firmwareBytes)
          cases printed : sizeInGb (targetBytes run.args state.firmwareBytes) with
          | error raised =>
              simp only [printed, Option.some.injEq] at ends
              refine .inl ⟨ends.symm, fun otherState otherData otherPending starts => ?_⟩
              have shown := starts.printed
              rw [same starts, ← printable, printed] at shown
              exact not_succeeds_error raised shown
          | ok size =>
              simp only [printed] at ends
              rw [printed] at printable
              by_cases directory : run.directoryRaises = true
              · rw [if_pos directory, Option.some.injEq] at ends
                refine .inl ⟨ends.symm, fun otherState otherData otherPending starts => ?_⟩
                rw [starts.directory] at directory
                cases directory
              · rw [if_neg directory, Option.map_eq_some_iff] at ends
                obtain ⟨written, wrote, rfl⟩ := ends
                exact .inr ⟨state, initialData, pending, written,
                  ⟨by simpa using setup, ⟨later, scan⟩, printable.mp (succeeds_ok size),
                    by simpa using directory⟩, wrote, rfl⟩

/-- A run that ends tells the truth exactly when it never gets through the
collection, or the target is not negative and all its bytes are in the file. -/
theorem exit_status_truthful_iff {run : CaptureRun} {ended : CaptureExit}
    (ends : captureMain run = some ended) (outputFile : Text) :
    Truthful run ended outputFile ↔
      ∀ state initialData pending, run.Collects state initialData pending →
        ∃ size : Nat, targetBytes run.args state.firmwareBytes = size ∧
          FullCapture run size initialData pending := by
  rw [truthful_iff_status]
  rcases capture_main_cases ends with ⟨rfl, never⟩ | ⟨state, initialData, pending, written, starts,
    wrote, rfl⟩
  · apply iff_of_true
    · exact fun zero => Bool.noConfusion zero
    · intro state initialData pending collects
      exact absurd collects.toStarts (never state initialData pending)
  · obtain ⟨later, marker⟩ := starts.marker
    rw [captureTarget, marker]
    simp only [collection_full_iff wrote, Bool.not_eq_true']
    constructor
    · intro full otherState otherData otherPending collects
      obtain ⟨rfl, rfl, rfl⟩ := starts.only collects.toStarts
      exact full collects.cleanup
    · intro full cleanup
      exact full state initialData pending ⟨starts, cleanup⟩

/-- Two bytes are wanted, one comes with the marker, and then the line is silent. -/
def stalledRun : CaptureRun where
  args := ⟨some 2, 90000, false, none⟩
  setupRaises := false
  startTime := 0
  stream := startMarker ++ [0x0A, 0x41]
  calls := [⟨.ready 256, 5000, false⟩]
  directoryRaises := false
  oldFile := none
  openRaises := false
  initialFault := none
  passes := List.replicate 3 ⟨.ready 0, none⟩
  closeFault := none
  drainRaises := false
  cleanupRaises := false

def stalledExit : CaptureExit where
  exitsZero := true
  reported := true
  file := some [0x41]

theorem stalled_run_ends : captureMain stalledRun = some stalledExit := by decide +kernel

theorem exit_status_truthful_iff_stalled :
    Truthful stalledRun stalledExit "raw.bin".toList ↔
      ∀ state initialData pending, stalledRun.Collects state initialData pending →
        ∃ size : Nat, targetBytes stalledRun.args state.firmwareBytes = size ∧
          FullCapture stalledRun size initialData pending :=
  exit_status_truthful_iff stalled_run_ends "raw.bin".toList

/-- The stalled capture is reported, and the script still ends with status zero. -/
theorem stalled_capture_exits_zero :
    captureMain stalledRun = some stalledExit ∧
      ¬Truthful stalledRun stalledExit "raw.bin".toList := by
  refine ⟨stalled_run_ends, fun truthful => ?_⟩
  obtain ⟨bytes, file, target⟩ := truthful.status rfl
  have collected : bytes = [0x41] := (Option.some.inj file).symm
  have wanted : captureTarget stalledRun.args stalledRun.startTime stalledRun.stream
      stalledRun.calls = some 2 := by decide +kernel
  rw [wanted, collected] at target
  exact absurd target (by decide)

end BootEntropy.RawDump
