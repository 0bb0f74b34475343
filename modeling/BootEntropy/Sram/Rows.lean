import BootEntropy.Sram.Interleaving
import BootEntropy.Sram.Undisturbed

/-!
# The rows of an experiment

The step lemma of the experiment and the run lemma: the rows are those of the first
jobs, in order, each with the dump of its own start of the board.
-/

namespace BootEntropy.Sram

open BootEntropy.Lib

set_option autoImplicit false

/-! ## Reads -/

section Reads

variable {lineEnd : LineEnd} {size : Nat}

theorem read_foreign {item : Waiting} (plain : item.Plain) :
    ∀ other ∈ (item.read lineEnd size).2, ∃ raw, other = .other raw ∧ isSramLine raw = false := by
  cases item with
  | other raw => simp [Waiting.read]
  | line boot text =>
      rcases plain with rfl | member | rfl
      · exact read_line_rest (begin_line_bracketed boot.capture)
      · exact read_line_rest (dump_rest_bracketed member)
      · exact read_line_rest invalid_line_bracketed

theorem not_armed_of_foreign {raw : Bytes} (foreign : isSramLine raw = false) :
    ¬armedTag <+: strip (decodeAscii raw) := by
  intro tagged
  have sram : sramTag <+: armedTag := by decide
  exact of_decide_eq_false foreign (sram.trans tagged)

theorem begin_line_not_armed (capture : Capture) : ¬armedTag <+: beginLine capture := by
  rw [begin_line_tokens]
  exact other_tag (by decide) _

theorem dump_rest_not_armed {capture : Capture} {text : Text} (member : text ∈ dumpRest capture) :
    ¬armedTag <+: text := by
  rw [dumpRest, List.mem_append, List.mem_append, List.mem_singleton, List.mem_singleton] at member
  rcases member with (data | rfl) | rfl
  · obtain ⟨offset, _, rfl⟩ := List.mem_map.mp data
    rw [data_line_tokens]
    exact other_tag (by decide) _
  · decide
  · decide

/-- `arm_pattern` passes by what is not an armed line. -/
theorem handle_arm_plain {item : Waiting} (plain : item.Plain) (pattern : UInt8) :
    handleArm pattern (item.read lineEnd size).1 = .go () := by
  apply handle_arm_other
  cases item with
  | other raw => exact not_armed_of_foreign plain
  | line boot text =>
      have cut {own : Text} (line : Bracketed own) (unlike : ¬armedTag <+: own) :
          ¬armedTag <+: strip (decodeAscii ((Waiting.line boot own).read lineEnd size).1) :=
        fun tagged => unlike (tagged.trans (strip_read_cut line.printed read_line_front))
      rcases plain with rfl | member | rfl
      · exact cut (begin_line_bracketed _) (begin_line_not_armed _)
      · exact cut (dump_rest_bracketed member) (dump_rest_not_armed member)
      · exact cut invalid_line_bracketed (by decide)

end Reads

/-! ## Books -/

def rowsOf (pairs : List (Job × Boot)) : List Row :=
  pairs.zipIdx.map fun entry =>
    row entry.2 entry.1.1 entry.1.2.capture.region.val entry.1.2.capture.address

theorem rows_of_snoc (pairs : List (Job × Boot)) (pair : Job × Boot) :
    rowsOf (pairs ++ [pair]) = rowsOf pairs ++
      [row (rowsOf pairs).length pair.1 pair.2.capture.region.val pair.2.capture.address] := by
  simp [rowsOf, List.zipIdx_append]

/-- The start came behind the pattern of the job, and behind a loss of power if the
condition of the job says so. -/
structure Serves (job : Job) (boot : Boot) : Prop where
  preceding : boot.preceding = some job.pattern
  cold : Cold job boot.unpowered

structure Recorded (rows : List Row) (boots : List Boot) (pairs : List (Job × Boot))
    (count : Nat) : Prop where
  rows : rows = rowsOf pairs
  numbered : boots.map Boot.number = List.range boots.length
  taken : (pairs.map Prod.snd).Sublist (boots.take count)
  bound : count ≤ boots.length
  serves : ∀ pair ∈ pairs, Serves pair.1 pair.2

def Phase.job : Phase → Option Job
  | .opened | .starting _ => none
  | .arming job | .armed job | .off job | .on job | .reading job _ => some job

def Ongoing (plan : List Job) (world : World) : Prop :=
  ∃ pairs count, Recorded world.rows world.boots pairs count ∧
    pairs.map Prod.fst ++ (world.phase.job.toList ++ world.todo) = plan ∧
    InPhase count world.view world.phase

/-- The rows of the first jobs are there, and of all jobs if nothing was raised. -/
def Ended (plan : List Job) (world : World) (verdict : Verdict) : Prop :=
  ∃ pairs count, Recorded world.rows world.boots pairs count ∧ pairs.map Prod.fst <+: plan ∧
    (verdict = .ok () → pairs.map Prod.fst = plan)

section Books

variable {plan : List Job} {world after : World} {rows : List Row} {boots : List Boot}
  {pairs : List (Job × Boot)} {count : Nat}

theorem Recorded.start {boot : Boot} (recorded : Recorded rows boots pairs count)
    (number : boot.number = boots.length) : Recorded rows (boots ++ [boot]) pairs count := by
  constructor
  · exact recorded.rows
  · simp [recorded.numbered, List.range_succ, number]
  · rw [List.take_append_of_le_length recorded.bound]
    exact recorded.taken
  · rw [List.length_append]
    exact recorded.bound.trans (Nat.le_add_right _ _)
  · exact recorded.serves

theorem Recorded.get_number {boot : Boot} (recorded : Recorded rows boots pairs count)
    (member : boot ∈ boots) : boots[boot.number]? = some boot := by
  obtain ⟨index, inside, rfl⟩ := List.mem_iff_getElem.mp member
  have number : (boots.map Boot.number)[index]? = some index := by
    rw [recorded.numbered]
    exact List.getElem?_range inside
  rw [List.getElem?_map, List.getElem?_eq_getElem inside, Option.map_some, Option.some.injEq] at number
  rw [number, List.getElem?_eq_getElem inside]

theorem Recorded.take {job : Job} {boot : Boot} (recorded : Recorded rows boots pairs count)
    (suits : Suits boots count job boot) :
    Recorded (rows ++ [row rows.length job boot.capture.region.val boot.capture.address]) boots
      (pairs ++ [(job, boot)]) (boot.number + 1) := by
  have place := recorded.get_number suits.member
  have inside := (List.getElem?_eq_some_iff.mp place).1
  constructor
  · rw [rows_of_snoc, ← recorded.rows]
  · exact recorded.numbered
  · rw [List.map_append, List.map_singleton, List.take_add_one, place]
    have earlier : (boots.take count).Sublist (boots.take boot.number) :=
      (List.take_prefix_take_left suits.later).sublist
    exact (recorded.taken.trans earlier).append (List.Sublist.refl _)
  · exact inside
  · rw [List.forall_mem_append]
    refine ⟨recorded.serves, ?_⟩
    rw [List.forall_mem_singleton]
    exact ⟨suits.preceding, suits.cold⟩

theorem Ongoing.ended (ongoing : Ongoing plan world) (error : ExperimentError) :
    Ended plan world (.error error) := by
  obtain ⟨pairs, count, recorded, planned, _⟩ := ongoing
  exact ⟨pairs, count, recorded, ⟨_, planned⟩, fun ok => nomatch ok⟩

theorem Ongoing.start {phase : Phase} {startup : Startup} {toBoard : Bytes}
    (ongoing : Ongoing plan world) (kept : toBoard <:+ world.toBoard)
    (job : phase.job = world.phase.job)
    (moves : ∀ count, InPhase count (world.start startup toBoard).view world.phase →
      InPhase count (world.start startup toBoard).view phase) :
    Ongoing plan { world.start startup toBoard with phase := phase } := by
  obtain ⟨pairs, count, recorded, planned, holds⟩ := ongoing
  refine ⟨pairs, count, recorded.start rfl, ?_, ?_⟩
  · rw [← planned, ← job]
    rfl
  · apply moves count
    rw [start_view]
    exact holds.start rfl kept recorded.bound

theorem next_leads (recorded : Recorded world.rows world.boots pairs count)
    (planned : pairs.map Prod.fst ++ world.todo = plan) (plain : world.view.Plain)
    (quiet : world.view.Quiet) : world.next.Leads (Ongoing plan) (Ended plan) := by
  rw [World.next]
  cases todo : world.todo with
  | nil =>
      rw [todo, List.append_nil] at planned
      exact ⟨pairs, count, recorded, planned ▸ List.prefix_rfl, fun _ => planned⟩
  | cons job jobs =>
      rw [todo] at planned
      refine ⟨pairs, count, recorded, planned, .inl ⟨plain, ?_⟩⟩
      have none : world.reader.held = [] := by
        rw [CommandReader.held, show world.reader.used = 0 from quiet.2, List.take_zero]
      have empty : world.toBoard = [] := quiet.1
      constructor
      · exact (Underway.empty quiet.2 : Underway job.pattern world.reader []).room
      · show world.reader.held ++ (world.toBoard ++ fillCommand job.pattern) <:+ _
        rw [none, empty]
        exact List.suffix_refl _

end Books

/-! ## One step -/

section Steps

variable {lineEnd : LineEnd} {host : Host} {plan : List Job} {world : World}

/-- No BEGIN line is handed over in parts while the host waits for a dump. -/
def WholeBegin (lineEnd : LineEnd) (world : World) (event : Event) : Prop :=
  ∀ size job reader boot wire, event = .read size → world.phase = .reading job reader →
    world.wire = .line boot (beginLine boot.capture) :: wire →
      ((Waiting.line boot (beginLine boot.capture)).read lineEnd size).2 = []

theorem handle_nothing (ongoing : Ongoing plan world) :
    (world.handle host []).Leads (Ongoing plan) (Ended plan) := by
  obtain ⟨pairs, count, recorded, planned, holds⟩ := id ongoing
  unfold World.handle
  split
  · next reader phase =>
      rw [phase] at holds planned
      exact ⟨pairs, count, recorded, planned, holds⟩
  · exact ongoing
  · next job reader phase =>
      rw [phase] at holds planned
      exact ⟨pairs, count, recorded, planned, holds⟩
  · exact ongoing

section Item

variable {item : Waiting} {wire : List Waiting} {size : Nat}

def World.handed (lineEnd : LineEnd) (world : World) (item : Waiting) (wire : List Waiting)
    (size : Nat) : World :=
  { world with wire := (item.read lineEnd size).2 ++ wire }

theorem handed_pending :
    (world.handed lineEnd item wire size).view.pending =
      (item.read lineEnd size).2 ++ (wire ++ world.printing.map (Waiting.line world.boot)) :=
  List.append_assoc _ _ _

theorem waiting_pending (waiting : world.wire = item :: wire) :
    world.view.pending = item :: (wire ++ world.printing.map (Waiting.line world.boot)) := by
  rw [World.view, waiting]
  rfl

theorem handed_plain (waiting : world.wire = item :: wire) (plain : world.view.Plain) :
    (world.handed lineEnd item wire size).view.Plain := by
  rw [View.Plain, waiting_pending waiting, List.forall_mem_cons] at plain
  rw [View.Plain, handed_pending, List.forall_mem_append]
  exact ⟨plain_foreign (read_foreign plain.1), plain.2⟩

theorem handed_ended (ongoing : Ongoing plan world) (error : ExperimentError) :
    Ended plan (world.handed lineEnd item wire size) (.error error) :=
  ongoing.ended error

/-- A read of the first `read_capture`. -/
theorem handle_starting {reader : CaptureReader} (ongoing : Ongoing plan world)
    (phase : world.phase = .starting reader) (waiting : world.wire = item :: wire) (raw : Bytes) :
    ((world.handed lineEnd item wire size).handle host raw).Leads (Ongoing plan) (Ended plan) := by
  obtain ⟨pairs, count, recorded, planned, holds⟩ := id ongoing
  rw [phase] at holds planned
  have plain : (world.handed lineEnd item wire size).view.Plain := handed_plain waiting holds.1
  have kept : (world.handed lineEnd item wire size).phase = .starting reader := phase
  rw [World.handle, kept]
  dsimp only
  cases handleRead reader raw with
  | go after => exact ⟨pairs, count, recorded, planned, plain, holds.2⟩
  | stop after outcome =>
      cases outcome with
      | error error => exact handed_ended ongoing (.raised error)
      | ok captured => exact next_leads recorded planned plain holds.2

/-- A read of `arm_pattern`. -/
theorem handle_arming {job : Job} (ongoing : Ongoing plan world)
    (phase : world.phase = .arming job) (waiting : world.wire = item :: wire) :
    ((world.handed lineEnd item wire size).handle host (item.read lineEnd size).1).Leads
      (Ongoing plan) (Ended plan) := by
  obtain ⟨pairs, count, recorded, planned, holds⟩ := id ongoing
  rw [phase] at holds planned
  have kept : (world.handed lineEnd item wire size).phase = .arming job := phase
  have idles (plain : item.Plain) (after : InPhase count (world.handed lineEnd item wire size).view
      (.arming job)) :
      ((world.handed lineEnd item wire size).handle host (item.read lineEnd size).1).Leads
        (Ongoing plan) (Ended plan) := by
    rw [World.handle, kept]
    dsimp only
    rw [handle_arm_plain plain]
    refine ⟨pairs, count, recorded, ?_, ?_⟩
    · rw [kept]
      exact planned
    · rw [kept]
      exact after
  rcases holds with ⟨plain, underway⟩ | ⟨primed, awaited⟩
  · have first : item.Plain := by
      rw [View.Plain, waiting_pending waiting, List.forall_mem_cons] at plain
      exact plain.1
    exact idles first (.inl ⟨handed_plain waiting plain, underway⟩)
  · rw [waiting_pending waiting] at awaited
    rcases awaited with ⟨⟨boot, rfl⟩, flows⟩ | ⟨first, behind⟩
    · have rest := @read_line_rest lineEnd boot _ size (armed_line_bracketed job.pattern)
      have turn := handle_arm_armed job.pattern
        ((Waiting.line boot (armedLine job.pattern true)).read lineEnd size).1
      rw [World.handle, kept]
      dsimp only
      generalize handleArm job.pattern _ = next at turn ⊢
      cases turn with
      | idle =>
          refine ⟨pairs, count, recorded, ?_, ?_⟩
          · rw [kept]
            exact planned
          · rw [kept]
            refine .inl ⟨?_, ?_⟩
            · rw [View.Plain, handed_pending, List.forall_mem_append]
              exact ⟨plain_foreign rest, flows.plain⟩
            · have none : world.toBoard = [] := primed.1.1
              show Underway job.pattern world.reader world.toBoard
              rw [none]
              exact Underway.empty primed.1.2
      | refused error => exact handed_ended ongoing (.raised error)
      | accepted tag =>
          refine ⟨pairs, count, recorded, planned, primed, ?_⟩
          have behind := flows_foreign rest flows
          rw [← handed_pending] at behind
          exact behind
    · refine idles first (.inr ⟨primed, ?_⟩)
      rw [handed_pending]
      exact awaited_foreign (read_foreign first) behind

/-- A read of `read_capture` behind the transition. -/
theorem handle_reading {job : Job} {reader : CaptureReader} (ongoing : Ongoing plan world)
    (phase : world.phase = .reading job reader) (waiting : world.wire = item :: wire)
    (whole : ∀ boot, item = .line boot (beginLine boot.capture) → (item.read lineEnd size).2 = []) :
    ((world.handed lineEnd item wire size).handle host (item.read lineEnd size).1).Leads
      (Ongoing plan) (Ended plan) := by
  obtain ⟨pairs, count, recorded, planned, holds⟩ := id ongoing
  rw [phase] at holds planned
  obtain ⟨primed, cold, follows⟩ := holds
  rw [waiting_pending waiting] at follows
  have taken := @Follows.read lineEnd _ _ _ _ size follows whole
  have kept : (world.handed lineEnd item wire size).phase = .reading job reader := phase
  rw [World.handle, kept]
  dsimp only
  cases handled : handleRead reader (item.read lineEnd size).1 with
  | go after =>
      rw [handled] at taken
      refine ⟨pairs, count, recorded, planned, primed, cold, ?_⟩
      have behind : Follows (Suits world.boots count job) after _ := taken
      rw [← handed_pending] at behind
      exact behind
  | stop after outcome =>
      rw [handled] at taken
      cases outcome with
      | error error => exact handed_ended ongoing (.raised error)
      | ok captured =>
          obtain ⟨data, address⟩ := captured
          obtain ⟨boot, suits, rfl, rfl⟩ := taken data address rfl
          have before : world.view.Plain := by
            rw [View.Plain, waiting_pending waiting]
            exact follows.plain
          have plain : (world.handed lineEnd item wire size).view.Plain := handed_plain waiting before
          have done : (pairs ++ [(job, boot)]).map Prod.fst ++ world.todo = plan := by
            rw [List.map_append, List.append_assoc]
            exact planned
          dsimp only
          split_ifs
          · exact next_leads (recorded.take suits) done plain primed.1
          · exact handed_ended ongoing .notWritten

end Item

theorem readline_leads {size : Nat} (ongoing : Ongoing plan world) (reads : world.phase.reads = true)
    (whole : WholeBegin lineEnd world (.read size)) :
    (world.readline lineEnd host size).Leads (Ongoing plan) (Ended plan) := by
  unfold World.readline
  split
  · exact handle_nothing ongoing
  · next item wire waiting =>
      show ((world.handed lineEnd item wire size).handle host (item.read lineEnd size).1).Leads _ _
      cases phase : world.phase with
      | starting reader => exact handle_starting ongoing phase waiting _
      | arming job => exact handle_arming ongoing phase waiting
      | reading job reader =>
          apply handle_reading ongoing phase waiting
          rintro boot rfl
          exact whole size job reader boot wire rfl phase waiting
      | opened => rw [phase] at reads; cases reads
      | armed job => rw [phase] at reads; cases reads
      | off job => rw [phase] at reads; cases reads
      | on job => rw [phase] at reads; cases reads

theorem pulse_of_phase (ongoing : Ongoing plan world) {phase : Phase} (startup : Startup) (lost : Nat)
    (job : phase.job = world.phase.job)
    (moves : ∀ count,
      InPhase count (world.start startup (world.toBoard.drop lost)).view world.phase →
        InPhase count (world.start startup (world.toBoard.drop lost)).view phase) :
    (world.pulse host startup lost phase).Leads (Ongoing plan) (Ended plan) := by
  rw [World.pulse]
  cases host.pulseEn with
  | error error => exact ongoing.ended (.sleepRefused error)
  | ok pulsed => exact ongoing.start (List.drop_suffix _ _) job moves

theorem pulse_leads (ongoing : Ongoing plan world) (startup : Startup) (lost : Nat) :
    (stepWorld lineEnd host world (.pulse startup lost)).Leads (Ongoing plan) (Ended plan) := by
  rw [stepWorld]
  split
  · next phase =>
      apply pulse_of_phase ongoing startup lost (by rw [phase]; rfl)
      intro count holds
      rw [phase] at holds
      exact ⟨holds.1, holds.2, rfl⟩
  · next job phase =>
      split_ifs with rts
      · apply pulse_of_phase ongoing startup lost (by rw [phase]; rfl)
        intro count holds
        rw [phase] at holds
        have warm (unpowered : Bool) : Cold job unpowered := fun other => absurd rts other
        refine ⟨holds.1, warm _, .inl ⟨⟨by decide, by decide⟩, List.length_replicate, ?_⟩⟩
        exact holds.2.mono fun boot since => ⟨since, warm _⟩
      · exact ongoing
  · exact ongoing

theorem power_leads (ongoing : Ongoing plan world) :
    (stepWorld lineEnd host world .powerOff).Leads (Ongoing plan) (Ended plan) ∧
      (∀ startup, (stepWorld lineEnd host world (.powerOn startup)).Leads (Ongoing plan)
        (Ended plan)) ∧
      (stepWorld lineEnd host world .reopen).Leads (Ongoing plan) (Ended plan) := by
  obtain ⟨pairs, count, recorded, planned, holds⟩ := id ongoing
  refine ⟨?_, ?_, ?_⟩
  · rw [stepWorld]
    split
    · next job phase =>
        rw [phase] at holds planned
        split_ifs
        · exact ongoing
        · have quiet : world.reader.used = 0 := holds.1.1.2
          exact ⟨pairs, count, recorded, planned, ⟨⟨rfl, quiet⟩, holds.1.2⟩, fun _ => rfl, trivial⟩
        · exact ongoing.ended _
    · exact ongoing
  · intro startup
    rw [stepWorld]
    split
    · next job phase =>
        cases job.condition.sleep with
        | error error =>
            refine ⟨pairs, count, recorded.start rfl, ⟨_, planned⟩, ?_⟩
            intro ok
            cases ok
        | ok slept =>
            apply ongoing.start List.nil_suffix (by rw [phase]; rfl)
            intro count holds
            rw [phase] at holds
            exact holds
    · exact ongoing
  · rw [stepWorld]
    split
    · next job phase =>
        rw [phase] at holds planned
        obtain ⟨primed, cold, flows⟩ := holds
        refine ⟨pairs, count, recorded, planned, primed, cold, ?_⟩
        exact .inl ⟨⟨by decide, by decide⟩, List.length_replicate, flows.back⟩
    · exact ongoing

theorem step_leads {event : Event} (ongoing : Ongoing plan world)
    (whole : WholeBegin lineEnd world event) :
    (stepWorld lineEnd host world event).Leads (Ongoing plan) (Ended plan) := by
  obtain ⟨pairs, count, recorded, planned, holds⟩ := id ongoing
  cases event with
  | print =>
      have same : world.print.phase = world.phase ∧ world.print.todo = world.todo ∧
          world.print.rows = world.rows ∧ world.print.boots = world.boots := by
        unfold World.print
        split <;> exact ⟨rfl, rfl, rfl, rfl⟩
      obtain ⟨phase, todo, rows, boots⟩ := same
      refine ⟨pairs, count, ?_, ?_, ?_⟩
      · rwa [rows, boots]
      · rwa [phase, todo]
      · rwa [phase, print_view]
  | noise raw foreign =>
      refine ⟨pairs, count, recorded, planned, ?_⟩
      have inserted := holds.insert foreign rfl
      have view : World.view { world with wire := world.wire ++ [.other raw] } =
          { world.view with pending := world.wire ++ .other raw ::
              world.printing.map (Waiting.line world.boot) } := by
        simp [World.view]
      rw [view]
      exact inserted
  | poll =>
      have same : world.poll.phase = world.phase ∧ world.poll.todo = world.todo ∧
          world.poll.rows = world.rows ∧ world.poll.boots = world.boots := by
        unfold World.poll
        split_ifs
        · split <;> exact ⟨rfl, rfl, rfl, rfl⟩
        · exact ⟨rfl, rfl, rfl, rfl⟩
      obtain ⟨phase, todo, rows, boots⟩ := same
      refine ⟨pairs, count, ?_, ?_, ?_⟩
      · rwa [rows, boots]
      · rwa [phase, todo]
      · rw [phase]
        exact holds.poll
  | restart startup lost =>
      rw [stepWorld]
      split_ifs
      · exact ongoing.start (List.drop_suffix _ _) rfl fun _ => id
      · exact ongoing
  | pulse startup lost => exact pulse_leads ongoing startup lost
  | powerOff => exact (power_leads ongoing).1
  | powerOn startup => exact (power_leads ongoing).2.1 startup
  | reopen => exact (power_leads ongoing).2.2
  | read size =>
      rw [stepWorld]
      split_ifs with reads
      · exact readline_leads ongoing reads whole
      · exact ongoing
  | deadline =>
      rw [stepWorld]
      split
      · exact ongoing.ended _
      · exact ongoing.ended _
      · exact ongoing.ended _
      · exact ongoing.ended _
      · exact ongoing
  | commandFails =>
      rw [stepWorld]
      split
      · exact ongoing.ended _
      · exact ongoing.ended _
      · exact ongoing

end Steps

/-! ## Runs -/

theorem start_ongoing (conditions : List Condition) (repetitions : Nat) (startup : Startup)
    (printed : Nat) (reader : CommandReader) :
    Ongoing (jobs conditions repetitions)
      (startExperiment conditions repetitions startup printed reader) := by
  refine ⟨[], 0, ⟨rfl, rfl, List.Sublist.slnil, Nat.zero_le _, by simp⟩, rfl, ?_, rfl⟩
  intro item member
  obtain ⟨text, inside, rfl⟩ := List.mem_map.mp member
  exact plain_capture_output ⟨0, startup.capture, none, true⟩ _
    (List.mem_map_of_mem (List.mem_of_mem_drop inside))

/-- **One row, one start of the board.** Whatever the order of events, with the board
starting between lines only, the rows are those of the first jobs of the plan, in order.
Each has the whole region and the address that its own start of the board captured, and
these starts are in order and no two the same. Before each, the last pattern the firmware
filled in was that of its job, and for a power condition power was off in between. Without
an error the rows are those of all jobs. -/
theorem experiment_rows_right (lineEnd : LineEnd) (host : Host)
    (conditions : List Condition) (repetitions : Nat) (startup : Startup) (printed : Nat)
    (reader : CommandReader) (events : List Event)
    (whole : Guarded (stepWorld lineEnd host) (WholeBegin lineEnd)
      (startExperiment conditions repetitions startup printed reader) events) :
    ∃ pairs : List (Job × Boot),
      (run (stepWorld lineEnd host)
        (startExperiment conditions repetitions startup printed reader) events).1.rows =
          rowsOf pairs ∧
      pairs.map Prod.fst <+: jobs conditions repetitions ∧
      (pairs.map Prod.snd).Sublist (run (stepWorld lineEnd host)
        (startExperiment conditions repetitions startup printed reader) events).1.boots ∧
      (∀ pair ∈ pairs, Serves pair.1 pair.2) ∧
      ((run (stepWorld lineEnd host)
        (startExperiment conditions repetitions startup printed reader) events).2 =
          some (.ok ()) → pairs.map Prod.fst = jobs conditions repetitions) := by
  have leads := run_leads (fun world event ongoing whole => step_leads ongoing whole) events
    (startExperiment conditions repetitions startup printed reader)
    (start_ongoing conditions repetitions startup printed reader) whole
  generalize run (stepWorld lineEnd host) _ events = final at leads ⊢
  obtain ⟨world, verdict⟩ := final
  cases verdict with
  | none =>
      obtain ⟨pairs, count, recorded, planned, _⟩ := leads.1 rfl
      exact ⟨pairs, recorded.rows, ⟨_, planned⟩, recorded.taken.trans (List.take_sublist _ _),
        recorded.serves, fun ok => nomatch ok⟩
  | some verdict =>
      obtain ⟨pairs, count, recorded, first, all⟩ := leads.2 verdict rfl
      exact ⟨pairs, recorded.rows, first, recorded.taken.trans (List.take_sublist _ _),
        recorded.serves, fun ok => all (Option.some.inj ok)⟩

/-! ## A start that is cut short -/

theorem whole_reads {lineEnd : LineEnd} {host : Host} {events : List Event}
    (whole : ∀ size, .read size ∈ events → size = 0) (world : World) :
    Guarded (stepWorld lineEnd host) (WholeBegin lineEnd) world events := by
  apply Guarded.of_mem
  rintro event member world size job reader boot wire rfl _ _
  rw [whole size member, Waiting.read, if_neg (by simp)]

/-- A DATA line is handed over in parts, and the board starts by itself. -/
def restartEvents (again : Startup) : List Event := [.read 10, .restart again 0, .read 0]

section Restarted

variable {lineEnd : LineEnd} {host : Host} {world : World} {job : Job} {todo : List Job}
  {rows : List Row} {startup : Startup}

/-- The BEGIN line is read and the first DATA line waits. -/
structure Halfway (before : World) (job : Job) (capture : Capture) (world : World) : Prop where
  phase : ∃ reader, world.phase = .reading job reader ∧ reader.captured.length = regionBytes
  wire : ∃ boot, world.wire = [.line boot (dataLine capture 0)]
  powered : world.powered = before.powered
  toBoard : world.toBoard = before.toBoard
  todo : world.todo = before.todo
  rows : world.rows = before.rows

theorem run_half (started : Started world job todo rows startup) :
    ∃ after, run (stepWorld lineEnd host) world [.print, .print, .read 0] = (after, none) ∧
      Halfway world job startup.capture after := by
  have output : captureOutput startup.capture = [beginLine startup.capture,
      dataLine startup.capture 0] ++ (dumpRest startup.capture).tail := rfl
  have printed := run_prints lineEnd host (started.printing.trans output)
  have goes : ∀ reader, ∀ text ∈ [beginLine startup.capture],
      ∃ after, handleLine reader text = .go after := by
    simp only [List.mem_singleton, forall_eq]
    exact fun reader => ⟨_, handle_begin (begin_line_tag _) (begin_fields_line _)⟩
  have read := @run_reads lineEnd host _ (.reading job) world.boot [beginLine startup.capture]
    (by simpa using (begin_line_dump startup.capture).printed) goes
    [.line world.boot (dataLine startup.capture 0)] startReader
    { world with
      printing := (dumpRest startup.capture).tail
      wire := world.wire ++ [beginLine startup.capture, dataLine startup.capture 0].map
        (Waiting.line world.boot) }
    started.phase (by rw [started.wire]; rfl)
  have events : [Event.print, .print, .read 0] =
      List.replicate [beginLine startup.capture, dataLine startup.capture 0].length .print ++
        List.replicate [beginLine startup.capture].length (.read 0) := rfl
  have size : (run handleLine startReader [beginLine startup.capture]).1.captured.length =
      regionBytes := by
    rw [run, handle_begin (begin_line_tag _) (begin_fields_line _)]
    exact List.length_replicate
  rw [events, run_append_of_running _ _ _ (congrArg Prod.snd printed), printed]
  exact ⟨_, read, ⟨_, rfl, size⟩, ⟨world.boot, rfl⟩, rfl, rfl, rfl, rfl⟩

theorem data_line_start (capture : Capture) (offset : Nat) :
    ∃ rest, lineEnd.printk (dataLine capture offset) = asciiBytes "[SRAM_DATA" ++ 93 :: rest := by
  rw [LineEnd.printk, data_line_tokens, List.append_assoc, text_bytes_append]
  exact ⟨_, rfl⟩

structure Again (before : World) (job : Job) (again : Startup) (world : World) : Prop where
  phase : ∃ reader, world.phase = .reading job reader ∧ reader.captured.length = regionBytes
  wire : world.wire = []
  powered : world.powered = true
  printing : world.printing = captureOutput again.capture
  toBoard : world.toBoard = before.toBoard
  used : world.reader.used = 0
  todo : world.todo = before.todo
  rows : world.rows = before.rows

theorem run_restart {before : World} {capture : Capture} (half : Halfway before job capture world)
    (powered : before.powered = true) (again : Startup) :
    ∃ after, run (stepWorld lineEnd host) world (restartEvents again) = (after, none) ∧
      Again before job again after := by
  obtain ⟨reader, phase, size⟩ := half.phase
  obtain ⟨boot, wire⟩ := half.wire
  have reads : world.phase.reads = true := by rw [phase]; rfl
  obtain ⟨rest, start⟩ := @data_line_start lineEnd capture 0
  have cut : (Waiting.line boot (dataLine capture 0)).read lineEnd 10 =
      (asciiBytes "[SRAM_DATA", [.other (93 :: rest)]) := by
    rw [Waiting.read, start]
    rfl
  have first : isSramLine (93 :: rest) = false := by
    have foreign := @read_line_rest lineEnd boot _ 10
      (dump_line_bracketed (data_line_dump capture 0)) (.other (93 :: rest))
    rw [cut] at foreign
    obtain ⟨raw, same, other⟩ := foreign (List.mem_singleton_self _)
    rw [Waiting.other.inj same]
    exact other
  have untagged : ∀ tag ∈ [beginTag, dataTag, endTag, readyTag],
      ¬tag <+: strip (decodeAscii (asciiBytes "[SRAM_DATA")) := by
    decide +kernel
  have parted : stepWorld lineEnd host world (.read 10) = .go { world with
      phase := .reading job reader, wire := [.other (93 :: rest)] } := by
    rw [step_read 10 reads wire, cut]
    exact (Reading.reading job).handle phase (handle_read_untagged untagged reader)
  have restarted {other : World} (on : other.powered = true) :
      stepWorld lineEnd host other (.restart again 0) =
        .go (other.start again (other.toBoard.drop 0)) := by
    rw [stepWorld, if_pos on]
  have started := @restarted
    { world with phase := .reading job reader, wire := [.other (93 :: rest)] }
    (half.powered.trans powered)
  have passed {other : World} (waits : other.phase = .reading job reader)
      (left : other.wire = [.other (93 :: rest)]) : stepWorld lineEnd host other (.read 0) =
        .go { other with phase := .reading job reader, wire := [] } := by
    have own : other.phase.reads = true := by rw [waits]; rfl
    rw [step_read 0 own left]
    exact (Reading.reading job).handle waits (handle_read_other first reader)
  rw [restartEvents, run, parted]
  dsimp only
  rw [run, started]
  dsimp only
  rw [run, passed rfl rfl]
  exact ⟨_, rfl, ⟨reader, rfl, size⟩, rfl, rfl, rfl, half.toBoard, rfl, half.todo, half.rows⟩

end Restarted

def zeroStartup : Startup := ⟨zeroCapture, zeroBlock commandBytes⟩
def rampStartup : Startup := ⟨rampCapture, zeroBlock commandBytes⟩
def resetHost : Host := ⟨false, .finite 100, fun _ => true⟩

def oneReset : World :=
  startExperiment [.rts] 1 zeroStartup 60 (startCommandReader (zeroBlock commandBytes) zeroRegion.val)

def oneResetPlan : List Job := [⟨.rts, 0, 0xFF⟩, ⟨.rts, 0, 0xAA⟩, ⟨.rts, 0, 0x55⟩]

def untilHalf : List Event :=
  (.pulse zeroStartup 0 :: dumpEvents zeroStartup.capture) ++ (armEvents 0x00 ++
    (transitionEvents .rts rampStartup ++ [.print, .print, .read 0]))

theorem until_half_whole (size : Nat) (member : .read size ∈ untilHalf) : size = 0 := by
  simp [untilHalf, dumpEvents, armEvents, transitionEvents] at member
  omega

theorem run_until_half :
    ∃ before after, run (stepWorld .crLf resetHost) oneReset untilHalf = (after, none) ∧
      Started before ⟨.rts, 0, 0x00⟩ oneResetPlan [] rampStartup ∧
      Halfway before ⟨.rts, 0, 0x00⟩ rampCapture after := by
  have pulse : resetHost.pulseEn = .ok () := by decide +kernel
  have begun := @run_first .crLf resetHost (⟨.rts, 0, 0x00⟩ :: oneResetPlan) zeroStartup oneReset
    rfl pulse rfl rfl rfl rfl
  rw [untilHalf, run_append]
  generalize run (stepWorld .crLf resetHost) oneReset _ = outcome at begun ⊢
  obtain ⟨world, verdict⟩ := outcome
  cases verdict with
  | some verdict => cases begun.1
  | none =>
      obtain ⟨job, rest, same, waits⟩ := begun
      obtain ⟨rfl, rfl⟩ := List.cons.inj same
      obtain ⟨armed, ranArm, calm⟩ := @run_arm .crLf resetHost _ _ _ _ waits
      obtain ⟨before, ranTransition, started⟩ := @run_transition .crLf resetHost _ _ _ _
        ⟨pulse, fun other => absurd rfl other, rfl⟩ calm rampStartup
      obtain ⟨after, ran, half⟩ := @run_half .crLf resetHost _ _ _ _ _ started
      refine ⟨before, after, ?_, started, half⟩
      rw [resume, run_append_of_running _ _ _ (congrArg Prod.snd ranArm), ranArm,
        run_append_of_running _ _ _ (congrArg Prod.snd ranTransition), ranTransition]
      exact ran

/-- A row of a job whose dump was cut short by the board and came again. -/
theorem restarted_rows_right :
    (run (stepWorld .crLf resetHost) oneReset
        (untilHalf ++ (restartEvents rampStartup ++ dumpEvents rampCapture))).1.rows =
      [row 0 ⟨.rts, 0, 0x00⟩ rampRegion.val 0x3ffc0000] ∧
    ∃ pairs : List (Job × Boot),
      (run (stepWorld .crLf resetHost) oneReset
        (untilHalf ++ (restartEvents rampStartup ++ dumpEvents rampCapture))).1.rows =
          rowsOf pairs ∧
      pairs.map Prod.fst <+: jobs [.rts] 1 ∧
      (pairs.map Prod.snd).Sublist (run (stepWorld .crLf resetHost) oneReset
        (untilHalf ++ (restartEvents rampStartup ++ dumpEvents rampCapture))).1.boots ∧
      (∀ pair ∈ pairs, Serves pair.1 pair.2) ∧
      ((run (stepWorld .crLf resetHost) oneReset
        (untilHalf ++ (restartEvents rampStartup ++ dumpEvents rampCapture))).2 =
          some (.ok ()) → pairs.map Prod.fst = jobs [.rts] 1) := by
  obtain ⟨before, after, ran, started, half⟩ := run_until_half
  constructor
  · obtain ⟨again, ranAgain, facts⟩ :=
      @run_restart .crLf resetHost _ _ _ _ half started.powered rampStartup
    obtain ⟨reader, phase, size⟩ := facts.phase
    have rows : again.rows = [] := facts.rows.trans started.rows
    have done := @run_row .crLf resetHost again _ rampCapture reader phase size facts.powered
      facts.printing facts.wire (facts.toBoard.trans started.toBoard) facts.used rfl
    rw [run_append_of_running _ _ _ (congrArg Prod.snd ran), ran,
      run_append_of_running _ _ _ (congrArg Prod.snd ranAgain), ranAgain, done.rows, rows]
    rfl
  · apply experiment_rows_right .crLf resetHost [.rts] 1 zeroStartup 60
    refine Guarded.append (whole_reads until_half_whole _) fun final same => ⟨?_, ?_⟩
    · obtain rfl : after = final := congrArg Prod.fst (ran.symm.trans same)
      obtain ⟨boot, wire⟩ := half.wire
      intro size job reader other rest _ _ waiting
      rw [wire] at waiting
      obtain ⟨_, text⟩ := Waiting.line.inj (List.cons.inj waiting).1
      exact absurd (text ▸ begin_line_tag other.capture) (data_line_not_begin rampCapture 0)
    · split
      · exact whole_reads (by simp [dumpEvents]) _
      · trivial

end BootEntropy.Sram
