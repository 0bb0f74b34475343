import BootEntropy.Aeb.Survival
import BootEntropy.Aeb.Captures

/-!
# Every capture accounted for

A capture id is handed out for each HELLO. It stays accounted for, in a row of the
CSV or in a pending trial, as long as no HELLO meets a trial that is pending.
-/

namespace BootEntropy.Aeb

open BootEntropy.Lib

set_option autoImplicit false

/-! ## Ids -/

/-- Ids of the rows written since there were `old` of them. -/
def writtenIds (old : Nat) (collector : Collector) : List Nat :=
  (collector.disk.trials.drop old).map (·.captureId)

def pendingIds (collector : Collector) : List Nat :=
  collector.states.entries.map (·.2.captureId)

structure Accounted (old : Nat) (collector : Collector) : Prop where
  handedOut : ∀ captureId, captureId < collector.captureCounter ↔
    captureId ∈ writtenIds old collector ∨ captureId ∈ pendingIds collector
  separate : ∀ captureId ∈ writtenIds old collector, captureId ∉ pendingIds collector

theorem mem_pending_ids_iff (old : Nat) (collector : Collector) (captureId : Nat) :
    captureId ∈ pendingIds collector ↔
      ∃ key, (collector.ledger old).pending key = some captureId := by
  rw [pendingIds, List.mem_map]
  constructor
  · rintro ⟨⟨key, state⟩, member, rfl⟩
    refine ⟨key, ?_⟩
    exact pending_of_known (AList.mem_lookup_iff.mpr member)
  · rintro ⟨key, held⟩
    obtain ⟨state, known, same⟩ := Option.map_eq_some_iff.mp held
    exact ⟨⟨key, state⟩, AList.mem_lookup_iff.mp known, same⟩

theorem accounted_iff_balanced {old : Nat} {collector : Collector}
    (sound : (collector.ledger old).Sound) :
    Accounted old collector ↔ (collector.ledger old).Balanced := by
  constructor
  · intro accounted
    refine ⟨sound, ?_⟩
    intro number below
    rcases (accounted.handedOut number).mp below with written | pending
    · exact .inl written
    · exact .inr ((mem_pending_ids_iff old collector number).mp pending)
  · intro balanced
    constructor
    · intro captureId
      rw [mem_pending_ids_iff old]
      exact balanced.issued_iff captureId
    · intro captureId written pending
      obtain ⟨key, held⟩ := (mem_pending_ids_iff old collector captureId).mp pending
      exact sound.closedGone captureId written key held

/-! ## One datagram -/

variable (args : CollectorArgs) (host : Host)

/-- A HELLO finds no trial pending under its peer and trial number, and START and
the bursts go out. -/
def HelloAccounted (collector : Collector) (rx : Rx) : Prop :=
  ∀ msg, parseMessage rx.data = some msg → msg.msgType = aebTypeHello →
    collector.states.lookup (rx.peer, (msg.trial : Int)) = none ∧
      StimulusGoes args host collector rx msg

theorem handle_datagram_balanced_iff {old : Nat} {collector : Collector} (rx : Rx)
    (within : old ≤ collector.disk.trials.length) (balanced : (collector.ledger old).Balanced) :
    ((handleDatagram args host collector rx).1.ledger old).Balanced ↔
      HelloAccounted args host collector rx := by
  have change := handle_datagram_change args host rx within
  have fresh (notHello : NotHello rx) : HelloAccounted args host collector rx :=
    fun msg parsed hello => absurd hello (notHello msg parsed)
  generalize (handleDatagram args host collector rx).1.ledger old = after at change ⊢
  cases change with
  | kept notHello => exact iff_of_true balanced (fresh notHello)
  | @skipped msg error parsed hello failed =>
      apply iff_of_false balanced.not_skip
      intro accounted
      obtain ⟨state, answered⟩ := (answer_hello_ok_iff args host collector rx msg).mpr
        (accounted msg parsed hello).2
      rw [failed] at answered
      cases answered
  | @opened msg state parsed hello answered =>
      have goes := (answer_hello_ok_iff args host collector rx msg).mp ⟨state, answered⟩
      have vacant : (collector.ledger old).pending (rx.peer, (msg.trial : Int)) = none ↔
          collector.states.lookup (rx.peer, (msg.trial : Int)) = none := Option.map_eq_none_iff
      rw [balanced.opening_iff, vacant]
      constructor
      · intro free other again _
        rw [← Option.some.inj (parsed.symm.trans again)]
        exact ⟨free, goes⟩
      · intro accounted
        exact (accounted msg parsed hello).1
  | closed notHello held => exact iff_of_true (balanced.settle held) (fresh notHello)

/-! ## Whole runs -/

/-- **No capture is dropped** at any point of a run exactly when every HELLO the
collector takes in finds its trial free and is answered. -/
theorem captures_accounted_iff (startTime : Int) (events : List Event) (disk : Disk) :
    (∀ count, Accounted (prepareOutputs args.append disk).trials.length
        (collectorMain args host startTime (events.take count) disk).1) ↔
      EveryDatagram args host (HelloAccounted args host) (startCollector args startTime disk)
        events := by
  generalize oldEq : (prepareOutputs args.append disk).trials.length = old
  have numbered : NumberedSince old (startCollector args startTime disk) := by
    rw [← oldEq]
    exact numbered_since_start args startTime disk
  have start : ((startCollector args startTime disk).ledger old).Balanced := by
    refine ⟨numbered.sound, ?_⟩
    intro number below
    exact absurd below (Nat.not_lt_zero number)
  have decides (collector : Collector) (rx : Rx)
      (kept : NumberedSince old collector ∧ (collector.ledger old).Balanced) :
      (NumberedSince old (handleDatagram args host collector rx).1 ∧
        ((handleDatagram args host collector rx).1.ledger old).Balanced) ↔
        HelloAccounted args host collector rx := by
    rw [and_iff_right (kept.1.handle args host rx)]
    exact handle_datagram_balanced_iff args host rx kept.1.within kept.2
  rw [← collector_loop_always_iff decides events ⟨numbered, start⟩]
  apply forall_congr'
  intro count
  have reached : NumberedSince old
      (collectorLoop args host (startCollector args startTime disk) (events.take count)).1 :=
    collector_loop_invariant (fun before rx _ kept _ => kept.handle args host rx) numbered
      (EveryDatagram.of_forall (fun _ _ => trivial) _ _)
  rw [collectorMain, accounted_iff_balanced reached.sound, and_iff_right reached]

/-- The device repeats its HELLO after a second without START. -/
def repeatedHello : List Event := [.datagram tinyHello, .datagram { tinyHello with now := 1000000 }]

/-- Capture 0 is in no row and no pending trial. -/
theorem repeated_hello_drops_capture :
    ¬∀ count, Accounted (prepareOutputs defaultCollectorArgs.append emptyDisk).trials.length
      (collectorMain defaultCollectorArgs quietHost 0 (repeatedHello.take count) emptyDisk).1 := by
  intro accounted
  rcases ((accounted 2).handedOut 0).mp (by decide +kernel) with written | pending
  · exact absurd written (by decide +kernel)
  · exact absurd pending (by decide +kernel)

end BootEntropy.Aeb
