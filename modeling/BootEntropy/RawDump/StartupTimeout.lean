import BootEntropy.RawDump.Handover

/-!
# The startup timeout of the marker scan

The clock is compared with the timeout only after a read that returned nothing. On
a stream without the start marker the scan therefore ends with the first overdue
read exactly when that read is empty; a device that keeps talking is never timed
out.
-/

namespace BootEntropy.RawDump

open BootEntropy.Lib

set_option autoImplicit false

/-- A read of a port that raises nothing: the bytes at hand and the clock in
milliseconds when the read returns. -/
structure Arrival where
  count : Nat
  now : Int
  deriving DecidableEq, Repr

def Arrival.call (arrival : Arrival) : ReadCall where
  result := .ready arrival.count
  now := arrival.now
  triggerRaises := false

/-- The most bytes that reads of `arrivals` take from the stream. -/
def takenBy (arrivals : List Arrival) : Nat :=
  (arrivals.map fun arrival => min arrival.count scanRead).sum

section Scan

variable (args : CaptureArgs) (startTime : Int)

/-- The read completed after the startup timeout had elapsed. -/
def Overdue (arrival : Arrival) : Prop := args.startupTimeoutMs < arrival.now - startTime

instance (arrival : Arrival) : Decidable (Overdue args startTime arrival) :=
  inferInstanceAs (Decidable (_ < _))

/-- `late` is the first read that completes after the timeout. -/
structure FirstOverdue (arrivals early : List Arrival) (late : Arrival) : Prop where
  reads : early ++ [late] <+: arrivals
  inTime : ∀ arrival ∈ early, ¬Overdue args startTime arrival
  overdue : Overdue args startTime late

/-- The scan has ended with its timeout error when the first overdue read returns. -/
def HonoursTimeout (stream : Bytes) (arrivals : List Arrival) : Prop :=
  ∀ early late, FirstOverdue args startTime arrivals early late →
    scanMarker args startTime (startScan args) stream ((early ++ [late]).map Arrival.call) =
      .timedOut

/-- The read after `early` finds nothing: the line is silent, or all bytes of the
stream are read. -/
def FindsNothing (stream : Bytes) (early : List Arrival) (late : Arrival) : Prop :=
  late.count = 0 ∨ stream.length ≤ takenBy early

theorem find_sub_unmarked {stream front rest : Bytes} (unmarked : ¬startMarker <:+: stream)
    (split : front ++ rest = stream) : findSub startMarker front = none := by
  cases found : findSub startMarker front with
  | none => rfl
  | some index =>
      have occurs : startMarker <:+: front :=
        (find_sub_some found).1.isInfix.trans (List.drop_suffix index front).isInfix
      have front : front <:+: stream := split ▸ (List.prefix_append front rest).isInfix
      exact absurd (occurs.trans front) unmarked

theorem scan_step {consumed pending : Bytes} {state : ScanState} {arrival : Arrival}
    (window : Retains startMarker consumed state.scanBuf)
    (unmarked : ¬startMarker <:+: consumed ++ pending)
    (inTime : ¬Overdue args startTime arrival) (calls : List ReadCall) :
    ∃ after, Retains startMarker (consumed ++ pending.take (min arrival.count scanRead))
        after.scanBuf ∧
      scanMarker args startTime state pending (arrival.call :: calls) =
        scanMarker args startTime after (pending.drop (min arrival.count scanRead)) calls := by
  by_cases silent : pending.take (min arrival.count scanRead) = []
  · rw [silent, List.append_nil]
    refine ⟨state, window, ?_⟩
    have goesOn : ¬args.startupTimeoutMs < arrival.now - startTime := inTime
    simp only [scanMarker, Arrival.call, silent, if_true, goesOn, if_false]
  · have missing := find_sub_unmarked unmarked
      (show consumed ++ pending.take (min arrival.count scanRead) ++
        pending.drop (min arrival.count scanRead) = consumed ++ pending by
          rw [List.append_assoc, List.take_append_drop])
    obtain ⟨after, step, kept⟩ := scan_data_next args arrival.call rfl window missing
    refine ⟨after, kept, ?_⟩
    simp only [scanMarker]
    simp only [Arrival.call] at step ⊢
    simp only [silent, if_false, step]

/-- By induction on the reads in time: the scan is still waiting and has taken their
bytes off the stream. -/
theorem scan_in_time (early : List Arrival) :
    ∀ {consumed pending : Bytes} {state : ScanState},
      Retains startMarker consumed state.scanBuf →
      ¬startMarker <:+: consumed ++ pending →
      (∀ arrival ∈ early, ¬Overdue args startTime arrival) → ∀ calls : List ReadCall,
      ∃ front after, front ++ pending.drop (takenBy early) = consumed ++ pending ∧
        Retains startMarker front after.scanBuf ∧
        scanMarker args startTime state pending (early.map Arrival.call ++ calls) =
          scanMarker args startTime after (pending.drop (takenBy early)) calls := by
  induction early with
  | nil =>
      intro consumed pending state window _ _ calls
      exact ⟨consumed, state, rfl, window, rfl⟩
  | cons arrival early ih =>
      intro consumed pending state window unmarked inTime calls
      have split : consumed ++ pending.take (min arrival.count scanRead) ++
          pending.drop (min arrival.count scanRead) = consumed ++ pending := by
        rw [List.append_assoc, List.take_append_drop]
      obtain ⟨next, kept, step⟩ := scan_step args startTime window unmarked
        (inTime arrival List.mem_cons_self) (early.map Arrival.call ++ calls)
      obtain ⟨front, after, joined, last, run⟩ := ih kept (by rw [split]; exact unmarked)
        (fun other member => inTime other (List.mem_cons_of_mem _ member)) calls
      have taken : takenBy (arrival :: early) = min arrival.count scanRead + takenBy early := rfl
      rw [List.drop_drop, ← taken] at joined run
      refine ⟨front, after, joined.trans split, last, ?_⟩
      rw [List.map_cons, List.cons_append, step, run]

theorem scan_overdue_iff {front rest : Bytes} {state : ScanState} {late : Arrival}
    (window : Retains startMarker front state.scanBuf)
    (unmarked : ¬startMarker <:+: front ++ rest) (overdue : Overdue args startTime late) :
    scanMarker args startTime state rest [late.call] = .timedOut ↔
      rest.take (min late.count scanRead) = [] := by
  have expired : args.startupTimeoutMs < late.now - startTime := overdue
  by_cases silent : rest.take (min late.count scanRead) = []
  · apply iff_of_true _ silent
    simp only [scanMarker, Arrival.call, silent, if_true, expired]
  · apply iff_of_false _ silent
    have missing := find_sub_unmarked unmarked
      (show front ++ rest.take (min late.count scanRead) ++
        rest.drop (min late.count scanRead) = front ++ rest by
          rw [List.append_assoc, List.take_append_drop])
    obtain ⟨after, step, _⟩ := scan_data_next args late.call rfl window missing
    simp only [Arrival.call] at step
    simp only [scanMarker, Arrival.call, silent, if_false, step]
    exact ScanEnd.noConfusion

/-- On a stream without the start marker the first overdue read ends the scan with
an error exactly when it returns nothing. -/
theorem startup_timeout_honoured_iff {stream : Bytes} (unmarked : ¬startMarker <:+: stream)
    (arrivals : List Arrival) :
    HonoursTimeout args startTime stream arrivals ↔
      ∀ early late, FirstOverdue args startTime arrivals early late →
        FindsNothing stream early late := by
  apply forall₂_congr
  intro early late
  apply forall_congr'
  intro first
  have start : Retains startMarker [] (startScan args).scanBuf := Retains.start start_marker_solid
  obtain ⟨front, after, joined, window, run⟩ := scan_in_time args startTime early start
    (by rwa [List.nil_append]) first.inTime [late.call]
  rw [List.nil_append] at joined
  rw [List.map_append, List.map_singleton, run, scan_overdue_iff args startTime window
    (by rwa [joined]) first.overdue, List.take_eq_nil_iff, List.drop_eq_nil_iff, FindsNothing]
  have room : min late.count scanRead = 0 ↔ late.count = 0 := by
    rw [scanRead]
    omega
  rw [room]

end Scan

/-- Reads of five seconds each that meet `count` bytes, the last one past 90 s. -/
def steadyReads (count : Nat) : List Arrival :=
  (List.range 19).map fun index => ⟨count, 5000 * (index + 1)⟩

theorem silent_port_times_out : HonoursTimeout (defaultArgs 4096) 0 [] (steadyReads 0) :=
  (startup_timeout_honoured_iff (defaultArgs 4096) 0 (by decide) (steadyReads 0)).mpr
    fun early _ _ => .inr (Nat.zero_le (takenBy early))

/-- A device that prints one dot in every read. -/
theorem talking_device_never_timed_out :
    ¬HonoursTimeout (defaultArgs 4096) 0 (List.replicate 100 0x2E) (steadyReads 1) := by
  intro honours
  have ended := honours ((steadyReads 1).take 18) ⟨1, 95000⟩
    { reads := by decide
      inTime := by decide
      overdue := by decide }
  revert ended
  decide +kernel

end BootEntropy.RawDump
