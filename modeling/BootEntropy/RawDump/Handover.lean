import BootEntropy.RawDump.Capture

/-!
# The hand-over from marker scan to raw bytes

The scanner finds the first start marker of the stream however the stream is cut
into reads. It then strips every CR and LF that came with the read that completed
the marker, and no other. Unless that is exactly the marker's own newline, the file is
right only where the raw bytes repeat what was misplaced.
-/

namespace BootEntropy.RawDump

open BootEntropy.Lib

set_option autoImplicit false

theorem start_marker_length : startMarker.length = 17 := by decide

theorem start_marker_solid : startMarker ≠ [] := by decide

theorem newline_not_in_start_marker : (0x0A : UInt8) ∉ startMarker := by decide

/-- A split of `stream` into reads: every call gets at least one byte while there
are any, no call raises, and there are as many calls as the stream has bytes. -/
structure ReadSplit (stream : Bytes) where
  calls : List ReadCall
  delivers : ∀ call ∈ calls, ∃ count, call.result = .ready (count + 1)
  quiet : ∀ call ∈ calls, call.triggerRaises = false
  covers : stream.length ≤ calls.length

/-! ## Boundaries of a split -/

def callCount (call : ReadCall) : Nat :=
  match call.result with
  | .ready count => min count scanRead
  | .raises => 0

/-- Bytes read when the first `wanted` bytes are in, the last read included. -/
def readBoundary (wanted total : Nat) : Nat → List ReadCall → Nat
  | arrived, [] => arrived
  | arrived, call :: calls =>
      if wanted ≤ arrived then arrived
      else readBoundary wanted total (min total (arrived + callCount call)) calls

def markerEnd (stream : Bytes) : Nat :=
  (findSub startMarker stream).getD stream.length + startMarker.length

/-- Line ends that came in one read with the end of the marker. -/
def strippedCount (stream : Bytes) (calls : List ReadCall) : Nat :=
  (((stream.take (readBoundary (markerEnd stream) stream.length 0 calls)).drop
    (markerEnd stream)).takeWhile isCrlf).length

def handover (stream : Bytes) (calls : List ReadCall) : Nat :=
  markerEnd stream + strippedCount stream calls

/-! ## The scan -/

private theorem partition_lines_split (buffer : Bytes) :
    ((partitionLines buffer).1 = [] → (partitionLines buffer).2 = buffer) ∧
      ((partitionLines buffer).1 ≠ [] →
        ∃ line, buffer = line ++ 0x0A :: (partitionLines buffer).2) := by
  induction buffer with
  | nil => exact ⟨fun _ => rfl, fun some => absurd rfl some⟩
  | cons byte rest ih =>
      obtain ⟨whole, split⟩ := ih
      rw [partitionLines]
      rcases parted : partitionLines rest with ⟨lines, remainder⟩
      rw [parted] at whole split
      by_cases newline : byte = 0x0A
      · simp only [newline, if_true]
        refine ⟨fun none => absurd none (List.cons_ne_nil _ _), ?_⟩
        intro _
        cases lines with
        | nil =>
            have same : remainder = rest := whole rfl
            exact ⟨[], by rw [same]; rfl⟩
        | cons line others =>
            obtain ⟨front, eq⟩ := split (List.cons_ne_nil _ _)
            exact ⟨0x0A :: front, by rw [eq]; rfl⟩
      · simp only [newline, if_false]
        cases lines with
        | nil =>
            have same : remainder = rest := whole rfl
            exact ⟨fun _ => congrArg (byte :: ·) same, fun some => absurd rfl some⟩
        | cons line others =>
            obtain ⟨front, eq⟩ := split (List.cons_ne_nil _ _)
            refine ⟨fun none => absurd none (List.cons_ne_nil _ _), ?_⟩
            intro _
            exact ⟨byte :: front, by rw [eq]; rfl⟩

/-- Reading lines drops nothing that could begin a marker: a marker has no
newline. -/
theorem read_lines_retains {consumed : Bytes} {state : ScanState}
    (window : Retains startMarker consumed state.scanBuf) :
    Retains startMarker consumed (readLines state).scanBuf := by
  obtain ⟨whole, split⟩ := partition_lines_split state.scanBuf
  have buffer : (readLines state).scanBuf = (partitionLines state.scanBuf).2 := rfl
  rw [buffer]
  by_cases none : (partitionLines state.scanBuf).1 = []
  · rw [whole none]
    exact window
  · obtain ⟨line, eq⟩ := split none
    exact window.drop_line eq newline_not_in_start_marker

theorem trim_scan_buf_retains {consumed : Bytes} {state : ScanState}
    (window : Retains startMarker consumed state.scanBuf) :
    Retains startMarker consumed (trimScanBuf state).scanBuf := by
  rw [trimScanBuf]
  split_ifs
  · exact window.trim
  · exact window

theorem write_trigger_retains {consumed : Bytes} {state : ScanState} (call : ReadCall)
    (quiet : call.triggerRaises = false)
    (window : Retains startMarker consumed state.scanBuf) :
    ∃ after, writeTrigger call state = .next after ∧
      Retains startMarker consumed after.scanBuf := by
  rw [writeTrigger, quiet]
  exact ⟨_, rfl, trim_scan_buf_retains (by exact window)⟩

theorem poll_trigger_retains {consumed : Bytes} {state : ScanState} (args : CaptureArgs)
    (call : ReadCall) (quiet : call.triggerRaises = false)
    (window : Retains startMarker consumed state.scanBuf) :
    ∃ after, pollTrigger args call state = .next after ∧
      Retains startMarker consumed after.scanBuf := by
  rw [pollTrigger]
  split_ifs
  · split
    · exact write_trigger_retains call quiet window
    · exact ⟨_, rfl, window⟩
  · exact write_trigger_retains call quiet window
  · exact ⟨_, rfl, trim_scan_buf_retains window⟩

theorem scan_data_next {consumed data : Bytes} {state : ScanState} (args : CaptureArgs)
    (call : ReadCall) (quiet : call.triggerRaises = false)
    (window : Retains startMarker consumed state.scanBuf)
    (missing : findSub startMarker (consumed ++ data) = none) :
    ∃ after, scanData args call state data = .next after ∧
      Retains startMarker (consumed ++ data) after.scanBuf := by
  rw [window.find_sub_window, Option.map_eq_none_iff] at missing
  simp only [scanData, missing]
  exact poll_trigger_retains args call quiet (read_lines_retains (by exact window.extend missing))

theorem scan_data_found {consumed data : Bytes} {state : ScanState} {index : Nat}
    (args : CaptureArgs) (call : ReadCall)
    (window : Retains startMarker consumed state.scanBuf)
    (found : findSub startMarker (consumed ++ data) = some index) :
    scanData args call state data =
      .found (((consumed ++ data).drop (index + startMarker.length)).dropWhile isCrlf) := by
  rw [window.find_sub_window, Option.map_eq_some_iff] at found
  obtain ⟨inner, innerFound, rfl⟩ := found
  obtain ⟨gone, split⟩ := window.ending
  have offset : consumed.length - state.scanBuf.length = gone.length := by
    rw [← split, List.length_append]
    omega
  simp only [scanData, innerFound]
  rw [offset, ← split, List.append_assoc, Nat.add_assoc, List.drop_length_add_append]

theorem read_boundary_reached {wanted total arrived : Nat} (reached : wanted ≤ arrived)
    (calls : List ReadCall) : readBoundary wanted total arrived calls = arrived := by
  cases calls with
  | nil => rfl
  | cons call calls => rw [readBoundary, if_pos reached]

/-- Where the scan hands over: `boundary` is the end of the read that completed
the first marker. -/
structure HandedOver (stream : Bytes) (boundary : Nat) (calls : List ReadCall)
    (initialData pending : Bytes) (later : List ReadCall) : Prop where
  marker : markerEnd stream ≤ boundary
  inside : boundary ≤ stream.length
  initial : initialData = ((stream.take boundary).drop (markerEnd stream)).dropWhile isCrlf
  rest : pending = stream.drop boundary
  remaining : later <:+ calls
  covers : pending.length ≤ later.length

theorem marker_end_of_found {front : Bytes} {place : Nat}
    (found : findSub startMarker front = some place) (rest : Bytes) :
    markerEnd (front ++ rest) = place + startMarker.length := by
  rw [markerEnd, find_sub_append start_marker_solid found rest, Option.getD_some]

theorem handed_over_of_found {front rest : Bytes} {place : Nat} {calls later : List ReadCall}
    (found : findSub startMarker front = some place) (remaining : later <:+ calls)
    (covers : rest.length ≤ later.length) :
    HandedOver (front ++ rest) front.length calls
      ((front.drop (place + startMarker.length)).dropWhile isCrlf) rest later where
  marker := by
    rw [marker_end_of_found found]
    exact (find_sub_some found).1.fits start_marker_solid
  inside := by
    rw [List.length_append]
    exact Nat.le_add_right _ _
  initial := by rw [List.take_left, marker_end_of_found found]
  rest := List.drop_left.symm
  remaining := remaining
  covers := covers

/-- The scan finds the first marker of the stream, by induction on the reads. The
buffer keeps every beginning of a marker, so no read boundary hides one. -/
theorem scan_marker_hands_over (args : CaptureArgs) (startTime : Int) {stream : Bytes}
    {index : Nat} (marker : findSub startMarker stream = some index) (calls : List ReadCall) :
    ∀ (consumed pending : Bytes) (state : ScanState),
      Retains startMarker consumed state.scanBuf →
      consumed ++ pending = stream →
      (∀ call ∈ calls, ∃ count, call.result = .ready (count + 1)) →
      (∀ call ∈ calls, call.triggerRaises = false) →
      pending.length ≤ calls.length →
      ∃ after initialData rest later,
        scanMarker args startTime state pending calls =
            .handedOver after initialData rest later ∧
          HandedOver stream (readBoundary (markerEnd stream) stream.length consumed.length calls)
            calls initialData rest later := by
  have markerEndEq : markerEnd stream = index + startMarker.length := by
    rw [markerEnd, marker, Option.getD_some]
  have occurs := (find_sub_some marker).1
  induction calls with
  | nil =>
      intro consumed pending state window split _ _ covers
      have drained : pending = [] := List.eq_nil_of_length_eq_zero (Nat.le_zero.mp covers)
      rw [drained, List.append_nil] at split
      rw [split] at window
      exact absurd window.absent (by simp [marker])
  | cons call calls ih =>
      intro consumed pending state window split delivers quiet covers
      have unread : ¬index + startMarker.length ≤ consumed.length := by
        intro inside
        rw [← split] at occurs
        exact find_sub_none window.absent index (occurs.of_append inside)
      have ends := occurs.fits start_marker_solid
      have total : stream.length = consumed.length + pending.length := by
        rw [← split, List.length_append]
      obtain ⟨count, ready⟩ := delivers call List.mem_cons_self
      have callCountEq : callCount call = min (count + 1) scanRead := by
        simp only [callCount, ready]
      have positive : 0 < callCount call := by
        rw [callCountEq, scanRead]
        omega
      let data := pending.take (callCount call)
      let rest := pending.drop (callCount call)
      have dataLength : data.length = min (callCount call) pending.length := List.length_take
      have restLength : rest.length = pending.length - callCount call := List.length_drop
      have solid : data ≠ [] := by
        apply List.ne_nil_of_length_pos
        omega
      have joined : consumed ++ data ++ rest = stream := by
        rw [List.append_assoc, List.take_append_drop, split]
      have arrived : min stream.length (consumed.length + callCount call) =
          (consumed ++ data).length := by
        rw [List.length_append, dataLength]
        omega
      have boundary : readBoundary (markerEnd stream) stream.length consumed.length
            (call :: calls) =
          readBoundary (markerEnd stream) stream.length (consumed ++ data).length calls := by
        rw [readBoundary, if_neg (by omega), arrived]
      have callQuiet := quiet call List.mem_cons_self
      rw [boundary]
      cases found : findSub startMarker (consumed ++ data) with
      | none =>
          obtain ⟨after, step, kept⟩ := scan_data_next args call callQuiet window found
          obtain ⟨last, initialData, pending', later, run, handed⟩ := ih (consumed ++ data) rest after kept joined
            (fun other member => delivers other (List.mem_cons_of_mem _ member))
            (fun other member => quiet other (List.mem_cons_of_mem _ member))
            (by simp only [List.length_cons] at covers; omega)
          refine ⟨last, initialData, pending', later, ?_,
            { handed with remaining := handed.remaining.trans (List.suffix_cons _ _) }⟩
          rw [scanMarker, ready]
          simp only [← callCountEq]
          rw [if_neg solid, step]
          exact run
      | some place =>
          simp only [List.length_cons] at covers
          have handed := handed_over_of_found found (List.suffix_cons call calls)
            (show rest.length ≤ calls.length by omega)
          rw [joined] at handed
          rw [read_boundary_reached handed.marker]
          refine ⟨state, _, rest, calls, ?_, handed⟩
          rw [scanMarker, ready]
          simp only [← callCountEq]
          rw [if_neg solid, scan_data_found args call window found]

/-! ## The collection -/

private theorem take_then_take (data : Bytes) {first total : Nat} (fits : first ≤ total) :
    data.take first ++ (data.drop first).take (total - (data.take first).length) =
      data.take total := by
  by_cases inside : first ≤ data.length
  · rw [List.length_take_of_le inside, ← List.take_add, Nat.add_sub_cancel' fits]
  · rw [List.drop_eq_nil_of_le (by omega), List.take_nil, List.append_nil,
      List.take_of_length_le (by omega), List.take_of_length_le (by omega)]

theorem collect_binary_success {target : Nat} {out : Bytes} (calls : List ReadCall) :
    ∀ {file pending : Bytes} {timeouts : Nat}, file.length ≤ target →
      collectBinary target file timeouts pending calls = .success out →
      out = file ++ pending.take (target - file.length) ∧
        target ≤ file.length + pending.length := by
  have finished : ∀ {file pending : Bytes}, file.length ≤ target → (target : Int) ≤ file.length →
      CaptureEnd.success file = .success out →
      out = file ++ pending.take (target - file.length) ∧
        target ≤ file.length + pending.length := by
    intro file pending room full same
    have none : target - file.length = 0 := by omega
    rw [none, List.take_zero, List.append_nil]
    exact ⟨(CaptureEnd.success.inj same).symm, by omega⟩
  induction calls with
  | nil =>
      intro file pending timeouts room run
      rw [collectBinary] at run
      split_ifs at run with full
      exact finished room full run
  | cons call calls ih =>
      intro file pending timeouts room run
      rw [collectBinary] at run
      by_cases full : (target : Int) ≤ file.length
      · rw [if_pos full] at run
        exact finished room full run
      · rw [if_neg full] at run
        cases result : call.result with
        | raises => simp [result] at run
        | ready count =>
            simp only [result] at run
            have short : min count (min chunkSize ((target : Int) - file.length).toNat) ≤
                target - file.length := by omega
            generalize min count (min chunkSize ((target : Int) - file.length).toNat) = toRead
              at run short
            split_ifs at run with empty patience
            · exact ih room run
            · have length : (pending.take toRead).length ≤ toRead := by
                rw [List.length_take]
                exact Nat.min_le_left _ _
              obtain ⟨eq, enough⟩ := ih (by rw [List.length_append]; omega) run
              have split := take_then_take pending short
              rw [List.length_append] at eq enough
              constructor
              · rw [eq, List.append_assoc, ← split]
                congr 3
                omega
              · rw [List.length_drop, List.length_take] at enough
                omega

theorem collect_binary_finishes (target : Nat) (calls : List ReadCall) :
    ∀ (file pending : Bytes) (timeouts : Nat),
      (∀ call ∈ calls, ∃ count, call.result = .ready (count + 1)) →
      pending.length ≤ calls.length → target ≤ file.length + pending.length →
      ∃ out, collectBinary target file timeouts pending calls = .success out := by
  induction calls with
  | nil =>
      intro file pending timeouts _ covers enough
      simp only [List.length_nil, Nat.le_zero] at covers
      exact ⟨file, by rw [collectBinary, if_pos (by omega)]⟩
  | cons call calls ih =>
      intro file pending timeouts delivers covers enough
      by_cases full : (target : Int) ≤ file.length
      · exact ⟨file, by rw [collectBinary, if_pos full]⟩
      · obtain ⟨count, ready⟩ := delivers call List.mem_cons_self
        have positive : 0 < min (count + 1) (min chunkSize ((target : Int) - file.length).toNat) := by
          rw [chunkSize]
          omega
        generalize reads : min (count + 1) (min chunkSize ((target : Int) - file.length).toNat) =
          toRead at positive
        have solid : pending.take toRead ≠ [] := by
          apply List.ne_nil_of_length_pos
          rw [List.length_take]
          omega
        simp only [List.length_cons] at covers
        obtain ⟨out, run⟩ := ih (file ++ pending.take toRead) (pending.drop toRead) 0
          (fun other member => delivers other (List.mem_cons_of_mem _ member))
          (by rw [List.length_drop]; omega)
          (by rw [List.length_append, List.length_take, List.length_drop]; omega)
        refine ⟨out, ?_⟩
        rw [collectBinary, if_neg full, ready]
        simp only [reads]
        rw [if_neg solid]
        exact run

/-! ## The whole run -/

private theorem drop_while_eq_drop (text : Bytes) :
    text.dropWhile isCrlf = text.drop (text.takeWhile isCrlf).length := by
  have split := List.takeWhile_append_dropWhile (p := isCrlf) (l := text)
  generalize text.takeWhile isCrlf = front at split
  rw [← split, List.drop_left, split]

section Boundaries

variable {stream initialData pending : Bytes} {calls later : List ReadCall}
  (handed : HandedOver stream (readBoundary (markerEnd stream) stream.length 0 calls) calls
    initialData pending later)

include handed

theorem handover_le_boundary :
    handover stream calls ≤ readBoundary (markerEnd stream) stream.length 0 calls := by
  have bounded := (List.takeWhile_prefix (p := isCrlf) (l := (stream.take (readBoundary
    (markerEnd stream) stream.length 0 calls)).drop (markerEnd stream))).length_le
  have reached := handed.marker
  rw [List.length_drop, List.length_take_of_le handed.inside] at bounded
  rw [handover, strippedCount]
  omega

theorem initial_append_pending :
    initialData ++ pending = stream.drop (handover stream calls) := by
  have bounded := handover_le_boundary handed
  have initial : initialData = (stream.take (readBoundary (markerEnd stream) stream.length 0
      calls)).drop (handover stream calls) := by
    rw [handover, ← List.drop_drop, handed.initial, drop_while_eq_drop, strippedCount]
  generalize readBoundary (markerEnd stream) stream.length 0 calls = boundary at handed bounded initial
  have arrived : (stream.take boundary).length = boundary := List.length_take_of_le handed.inside
  rw [initial, handed.rest, ← List.drop_append_of_le_length (by omega), List.take_append_drop]

end Boundaries

theorem slice_to_nat (data : Bytes) (stop : Nat) : sliceTo data stop = data.take stop := by
  rw [sliceTo, if_pos (Int.natCast_nonneg stop), Int.toNat_natCast]

theorem capture_binary_of_marker {args : CaptureArgs} {startTime : Int} {stream : Bytes}
    {calls later : List ReadCall} {after : ScanState} {initialData pending : Bytes}
    (run : scanMarker args startTime (startScan args) stream calls =
      .handedOver after initialData pending later) :
    captureBinary args startTime stream calls =
      if |targetBytes args after.firmwareBytes| < printableTarget then
        collectBinary (targetBytes args after.firmwareBytes)
          (sliceTo initialData (targetBytes args after.firmwareBytes)) 0 pending later
      else .crashed := by
  have printable := size_in_gb_succeeds (targetBytes args after.firmwareBytes)
  rw [captureBinary]
  cases printed : sizeInGb (targetBytes args after.firmwareBytes) with
  | error raised =>
      rw [printed, iff_false_left (not_succeeds_error raised)] at printable
      rw [if_neg printable]
      cases bannerSize args with
      | error raised => rfl
      | ok size => simp only [run, printed]
  | ok size =>
      rw [printed, iff_true_left (succeeds_ok size)] at printable
      obtain ⟨shown, banner⟩ := banner_size_of_target ⟨size, printed⟩
      rw [if_pos printable, banner]
      simp only [run, printed]

/-- The exact result of a run on a split stream with a start marker. -/
theorem capture_binary_success_iff (args : CaptureArgs) (startTime : Int) {stream : Bytes}
    {index : Nat} (marker : findSub startMarker stream = some index) (split : ReadSplit stream)
    {target : Nat} (asked : captureTarget args startTime stream split.calls = some (target : Int))
    (file : Bytes) :
    captureBinary args startTime stream split.calls = .success file ↔
      (target : Int) < printableTarget ∧ handover stream split.calls + target ≤ stream.length ∧
        file = (stream.drop (handover stream split.calls)).take target := by
  obtain ⟨after, initialData, pending, later, run, handed⟩ :=
    scan_marker_hands_over args startTime marker split.calls [] stream (startScan args) (Retains.start start_marker_solid) rfl split.delivers split.quiet
      split.covers
  have joined := initial_append_pending handed
  have start := (handover_le_boundary handed).trans handed.inside
  have lengths := congrArg List.length joined
  rw [List.length_append, List.length_drop] at lengths
  have delivers : ∀ call ∈ later, ∃ count, call.result = .ready (count + 1) :=
    fun call member => split.delivers call (handed.remaining.subset member)
  have covers := handed.covers
  rw [captureTarget, run, Option.some.injEq] at asked
  rw [capture_binary_of_marker run, asked, slice_to_nat, abs_of_nonneg (Int.natCast_nonneg target)]
  have room : (initialData.take target).length ≤ target := by
    rw [List.length_take]
    exact Nat.min_le_left _ _
  have content : initialData.take target ++ pending.take (target - (initialData.take target).length) =
      (stream.drop (handover stream split.calls)).take target := by
    rw [← joined, List.take_append, List.length_take]
    congr 2
    omega
  constructor
  · intro success
    split_ifs at success with printed
    obtain ⟨eq, enough⟩ := collect_binary_success later room success
    rw [List.length_take] at enough
    exact ⟨printed, by omega, eq.trans content⟩
  · intro ⟨printed, enough, eq⟩
    rw [if_pos printed]
    obtain ⟨out, success⟩ := collect_binary_finishes target later (initialData.take target) pending
      0 delivers handed.covers (by rw [List.length_take]; omega)
    rw [success, eq, ← content, (collect_binary_success later room success).1]

theorem raw_dump_stream_marker (boot raw : Bytes) :
    ∃ index, findSub startMarker (rawDumpStream boot raw) = some index := by
  have occurs : OccursAt startMarker (rawDumpStream boot raw) boot.length := by
    rw [OccursAt, rawDumpStream, List.drop_left]
    exact List.prefix_append _ _
  cases found : findSub startMarker (rawDumpStream boot raw) with
  | none => exact absurd occurs (find_sub_none found _)
  | some index => exact ⟨index, rfl⟩

/-! ## Where the file starts -/

def lineEnds (text : Bytes) : Nat := (text.takeWhile isCrlf).length

/-- Bytes behind the first start marker that come in one read with its end. -/
def overshoot (stream : Bytes) (calls : List ReadCall) : Nat :=
  readBoundary (markerEnd stream) stream.length 0 calls - markerEnd stream

theorem line_ends_le (text : Bytes) : lineEnds text ≤ text.length :=
  (List.takeWhile_prefix isCrlf).length_le

theorem line_ends_append {front rest : Bytes} {byte : UInt8} (solid : isCrlf byte = false)
    (count : Nat) :
    lineEnds ((front ++ byte :: rest).take count) = lineEnds (front.take count) := by
  induction front generalizing count with
  | nil =>
      cases count with
      | zero => rfl
      | succ count => simp [lineEnds, solid]
  | cons head front ih =>
      cases count with
      | zero => rfl
      | succ count =>
          have shorter := ih count
          rw [lineEnds, lineEnds] at shorter
          by_cases ends : isCrlf head = true
          · simp [lineEnds, ends, shorter]
          · simp [lineEnds, ends]

theorem stripped_count_eq (stream : Bytes) (calls : List ReadCall) :
    strippedCount stream calls =
      lineEnds ((stream.drop (markerEnd stream)).take (overshoot stream calls)) := by
  rw [strippedCount, List.drop_take]
  rfl

theorem marker_end_in_boot {boot : Bytes} {index : Nat}
    (found : findSub startMarker boot = some index) (raw : Bytes) :
    markerEnd (rawDumpStream boot raw) = index + 17 := by
  rw [rawDumpStream, marker_end_of_found found, start_marker_length]

theorem marker_end_behind_boot {boot : Bytes} (clean : findSub startMarker boot = none)
    (raw : Bytes) : markerEnd (rawDumpStream boot raw) = boot.length + 17 := by
  have once : (0x5B : UInt8) ∉ startMarker.tail := by decide
  have found := find_sub_append_needle once clean (0x0A :: (raw ++ endMarker))
  rw [markerEnd, rawDumpStream, start_marker_length]
  exact congrArg (fun place => Option.getD place _ + 17) found

/-- The file starts where the raw bytes start, or at a place that shows the same bytes.
Without a marker in `boot`, the marker's newline is dropped if it comes with the marker,
and then the line ends that come behind it are dropped as well. A marker in `boot` lets
the file start behind it. -/
def StartsAtRaw (boot raw : Bytes) (target : Nat) (calls : List ReadCall) : Prop :=
  match findSub startMarker boot, overshoot (rawDumpStream boot raw) calls with
  | none, 0 => Repeats [0x0A] (raw.take target)
  | none, behind + 1 =>
      let sent := raw ++ endMarker
      let lost := lineEnds (sent.take behind)
      lost = 0 ∨ sent.length < lost + target ∨
        Repeats (sent.take lost) (sent.take (lost + target))
  | some index, behind =>
      let rest := boot.drop (index + 17)
      Repeats (rest.drop (lineEnds (rest.take behind)) ++ startMarker ++ [0x0A])
        (raw.take target)

section StartsAtRaw

variable {boot raw : Bytes} {target : Nat} {calls : List ReadCall} (fits : target ≤ raw.length)

include fits

/-- The bytes of the file, once the stream goes on with `moved` at the hand-over. -/
theorem file_at_raw_iff {moved : Bytes} (solid : moved ≠ []) :
    (moved ++ (raw ++ endMarker)).take target = raw.take target ↔
      Repeats moved (raw.take target) := by
  have same : (raw ++ endMarker).take target = raw.take target :=
    List.take_append_of_le_length fits
  have inside : target ≤ (raw ++ endMarker).length := by
    rw [List.length_append]
    omega
  rw [← same, take_append_eq_iff solid inside]

/-- The file misses `lost` bytes in front. -/
theorem file_behind_raw_iff {lost : Nat} (dropped : lost ≠ 0)
    (enough : lost + target ≤ (raw ++ endMarker).length) :
    ((raw ++ endMarker).drop lost).take target = raw.take target ↔
      Repeats ((raw ++ endMarker).take lost) ((raw ++ endMarker).take (lost + target)) := by
  have same : (raw ++ endMarker).take target = raw.take target :=
    List.take_append_of_le_length fits
  have solid : (raw ++ endMarker).take lost ≠ [] := by
    apply List.ne_nil_of_length_pos
    rw [List.length_take]
    omega
  have inside : target ≤ ((raw ++ endMarker).drop lost).length := by
    rw [List.length_drop]
    omega
  have around := @take_append_eq_iff _ _ ((raw ++ endMarker).drop lost) _ solid inside
  rw [List.take_append_drop, same] at around
  rw [List.take_add, repeats_append_iff solid, ← around]
  exact eq_comm

theorem starts_at_raw_iff :
    ((rawDumpStream boot raw).length < handover (rawDumpStream boot raw) calls + target ∨
        ((rawDumpStream boot raw).drop (handover (rawDumpStream boot raw) calls)).take target =
          raw.take target) ↔
      StartsAtRaw boot raw target calls := by
  have total : (rawDumpStream boot raw).length = boot.length + 18 + (raw ++ endMarker).length := by
    rw [rawDumpStream, List.length_append, List.length_append, List.length_cons,
      start_marker_length]
    omega
  have sent : (raw ++ endMarker).length = raw.length + endMarker.length := List.length_append
  rw [handover, ← List.drop_drop, stripped_count_eq, StartsAtRaw]
  cases found : findSub startMarker boot with
  | none =>
      have clean := marker_end_behind_boot found raw
      have behind : (rawDumpStream boot raw).drop (boot.length + 17) =
          0x0A :: (raw ++ endMarker) := by
        rw [rawDumpStream, List.drop_length_add_append, ← start_marker_length, List.drop_left]
      rw [clean, behind, total]
      cases overshoot (rawDumpStream boot raw) calls with
      | zero =>
          have long : ¬boot.length + 18 + (raw ++ endMarker).length <
              boot.length + 17 + 0 + target := by omega
          rw [← file_at_raw_iff fits (List.cons_ne_nil _ _)]
          exact or_iff_right long
      | succ behind =>
          have newline : lineEnds ((0x0A :: (raw ++ endMarker)).take (behind + 1)) =
              lineEnds ((raw ++ endMarker).take behind) + 1 := by
            simp [lineEnds, isCrlf]
          rw [newline, List.drop_succ_cons]
          dsimp only
          generalize lineEnds ((raw ++ endMarker).take behind) = lost
          have short : boot.length + 18 + (raw ++ endMarker).length <
              boot.length + 17 + (lost + 1) + target ↔
                (raw ++ endMarker).length < lost + target := by omega
          rw [short]
          by_cases none : lost = 0
          · rw [none, List.drop_zero, List.take_append_of_le_length fits]
            exact iff_of_true (.inr rfl) (.inl rfl)
          · rw [or_iff_right none]
            by_cases enough : lost + target ≤ (raw ++ endMarker).length
            · rw [file_behind_raw_iff fits none enough]
            · exact iff_of_true (.inl (by omega)) (.inl (by omega))
  | some index =>
      have inside := (find_sub_some found).1.fits start_marker_solid
      rw [start_marker_length] at inside
      have early := marker_end_in_boot found raw
      have behind : (rawDumpStream boot raw).drop (index + 17) =
          boot.drop (index + 17) ++ 0x5B :: (startMarker.tail ++ 0x0A :: (raw ++ endMarker)) := by
        rw [rawDumpStream, List.drop_append_of_le_length inside]
        rfl
      have bound := line_ends_le ((boot.drop (index + 17)).take
        (overshoot (rawDumpStream boot raw) calls))
      rw [List.length_take, List.length_drop] at bound
      rw [early, behind, line_ends_append rfl, total]
      dsimp only
      generalize lineEnds ((boot.drop (index + 17)).take
        (overshoot (rawDumpStream boot raw) calls)) = dropped at bound
      have long : ¬boot.length + 18 + (raw ++ endMarker).length <
          index + 17 + dropped + target := by omega
      have kept : dropped ≤ (boot.drop (index + 17)).length := by
        rw [List.length_drop]
        omega
      rw [or_iff_right long, List.drop_append_of_le_length kept,
        ← file_at_raw_iff fits (List.append_ne_nil_of_right_ne_nil _ (List.cons_ne_nil _ _)),
        List.append_assoc, List.append_assoc]
      rfl

end StartsAtRaw

/-- The file is the head of the raw bytes exactly when the target is too large to be
printed or the file starts at the raw bytes. -/
theorem capture_exact_iff (args : CaptureArgs) (startTime : Int) (boot raw : Bytes)
    (split : ReadSplit (rawDumpStream boot raw)) (target : Nat)
    (asked : captureTarget args startTime (rawDumpStream boot raw) split.calls =
      some (target : Int))
    (fits : target ≤ raw.length) :
    (∀ file, captureBinary args startTime (rawDumpStream boot raw) split.calls = .success file →
        file = raw.take target) ↔
      printableTarget ≤ target ∨ StartsAtRaw boot raw target split.calls := by
  obtain ⟨index, marker⟩ := raw_dump_stream_marker boot raw
  have run := capture_binary_success_iff args startTime marker split asked
  rw [← starts_at_raw_iff fits]
  constructor
  · intro exactly
    by_cases printed : (target : Int) < printableTarget
    · right
      by_cases enough : handover (rawDumpStream boot raw) split.calls + target ≤
          (rawDumpStream boot raw).length
      · exact .inr (exactly _ ((run _).mpr ⟨printed, enough, rfl⟩))
      · exact .inl (by omega)
    · exact .inl (by omega)
  · intro condition file success
    obtain ⟨printed, enough, eq⟩ := (run file).mp success
    rcases condition with large | short | same
    · omega
    · omega
    · exact eq.trans same

/-! ## Reads of one size -/

/-- Every call gets as much as it asks for, up to `count + 1` bytes. -/
def steadySplit (stream : Bytes) (count : Nat) : ReadSplit stream where
  calls := List.replicate stream.length ⟨.ready (count + 1), 0, false⟩
  delivers := by
    intro call member
    exact ⟨count, by rw [List.eq_of_mem_replicate member]⟩
  quiet := by
    intro call member
    rw [List.eq_of_mem_replicate member]
  covers := by rw [List.length_replicate]

def defaultArgs (bytes : Int) : CaptureArgs := ⟨some bytes, 90000, false, none⟩

/-- Raw bytes without a line end in front, read 256 bytes at a time. -/
theorem capture_exact_iff_steady :
    (∀ file, captureBinary (defaultArgs 2) 0 (rawDumpStream [] [0x41, 0x42])
          (steadySplit (rawDumpStream [] [0x41, 0x42]) 255).calls = .success file →
        file = List.take 2 [0x41, 0x42]) ↔
      printableTarget ≤ (2 : Nat) ∨ StartsAtRaw [] [0x41, 0x42] 2
        (steadySplit (rawDumpStream [] [0x41, 0x42]) 255).calls :=
  capture_exact_iff (defaultArgs 2) 0 [] [0x41, 0x42]
    (steadySplit (rawDumpStream [] [0x41, 0x42]) 255) 2 (by decide +kernel) (by decide)

/-- Raw bytes that begin with LF lose it when it comes with the marker. -/
theorem capture_drops_leading_newline :
    ¬∀ file, captureBinary (defaultArgs 1) 0 (rawDumpStream [] [0x0A, 0x41])
          (steadySplit (rawDumpStream [] [0x0A, 0x41]) 255).calls = .success file →
        file = List.take 1 [0x0A, 0x41] := by
  intro exactly
  have same := exactly [0x41] (by decide +kernel)
  exact absurd same (by decide)

end BootEntropy.RawDump
