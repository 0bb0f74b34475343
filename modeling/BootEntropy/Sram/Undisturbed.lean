import BootEntropy.Sram.Arming

/-!
# One job without a disturbance

Every command is polled and every line is printed and read in its turn. Then the pattern
is armed, the board starts for the job, and its dump is the next row.
-/

namespace BootEntropy.Sram

open BootEntropy.Lib

set_option autoImplicit false

/-! ## The order of events -/

def dumpEvents (capture : Capture) : List Event :=
  List.replicate (captureOutput capture).length .print ++
    List.replicate (captureOutput capture).length (.read 0)

def armEvents (pattern : UInt8) : List Event :=
  List.replicate (fillCommand pattern).length .poll ++ [.print, .read 0]

def transitionEvents (condition : Condition) (startup : Startup) : List Event :=
  if condition = .rts then [.pulse startup 0] else [.powerOff, .powerOn startup, .reopen]

def jobEvents (job : Job) (startup : Startup) : List Event :=
  armEvents job.pattern ++ (transitionEvents job.condition startup ++ dumpEvents startup.capture)

section Undisturbed

variable (lineEnd : LineEnd) (host : Host)

/-! ## The board -/

theorem run_prints {texts rest : List Text} {world : World} (printing : world.printing = texts ++ rest) :
    run (stepWorld lineEnd host) world (List.replicate texts.length .print) =
      ({ world with
          printing := rest
          wire := world.wire ++ texts.map (Waiting.line world.boot) }, none) := by
  induction texts generalizing world with
  | nil =>
      rw [List.map_nil, List.append_nil]
      show (world, none) = ({ world with printing := rest }, none)
      rw [← show world.printing = rest from printing]
  | cons text texts ih =>
      have printed : world.print =
          { world with printing := texts ++ rest, wire := world.wire ++ [.line world.boot text] } := by
        rw [World.print, printing]
        rfl
      rw [List.length_cons, List.replicate_succ, run, stepWorld, printed]
      dsimp only
      rw [ih rfl]
      simp

theorem run_prints_all {texts : List Text} {world : World} (printing : world.printing = texts) :
    run (stepWorld lineEnd host) world (List.replicate texts.length .print) =
      ({ world with
          printing := []
          wire := world.wire ++ texts.map (Waiting.line world.boot) }, none) :=
  run_prints lineEnd host (printing.trans (List.append_nil texts).symm)

/-- The rest of a command is on its way to a board that has nothing to print. -/
structure Coming (world : World) (job : Job) : Prop where
  phase : world.phase = .arming job
  powered : world.powered = true
  printing : world.printing = []
  wire : world.wire = []
  room : world.reader.used < commandBytes
  command : world.reader.held ++ world.toBoard = fillCommand job.pattern

structure Arrived (before world : World) (job : Job) : Prop where
  phase : world.phase = .arming job
  powered : world.powered = true
  printing : world.printing = [armedLine job.pattern true]
  wire : world.wire = []
  toBoard : world.toBoard = []
  todo : world.todo = before.todo
  rows : world.rows = before.rows

variable {lineEnd host}

theorem run_polls {job : Job} {toBoard : Bytes} {world : World} (some : toBoard ≠ [])
    (rest : world.toBoard = toBoard) (coming : Coming world job) :
    ∃ after, run (stepWorld lineEnd host) world (List.replicate toBoard.length .poll) =
      (after, none) ∧ Arrived world after job := by
  induction toBoard generalizing world with
  | nil => exact absurd rfl some
  | cons c toBoard ih =>
      have command := coming.command
      rw [rest] at command
      have underway : Underway job.pattern world.reader (c :: toBoard) :=
        ⟨coming.room, command ▸ List.suffix_refl _⟩
      have idle : world.powered = true ∧ world.printing = [] := ⟨coming.powered, coming.printing⟩
      have polled : ∃ after, world.poll = after ∧ after.phase = .arming job ∧
          after.powered = true ∧ after.wire = [] ∧ after.toBoard = toBoard ∧
          after.todo = world.todo ∧ after.rows = world.rows ∧
          after.reader = stepReader world.reader (Option.some c) ∧
          after.printing = (stepReader world.reader (Option.some c)).console.drop
            world.reader.console.length := by
        refine ⟨_, rfl, ?_⟩
        rw [World.poll, if_pos idle, rest]
        exact ⟨coming.phase, coming.powered, coming.wire, rfl, rfl, rfl, rfl, rfl⟩
      obtain ⟨after, stepped, phase, powered, wire, left, todo, rows, reader, printing⟩ := polled
      rw [List.length_cons, List.replicate_succ, run, stepWorld, stepped]
      dsimp only
      rcases underway.poll with ⟨rfl, executed⟩ | ⟨inner, going, held, fills, console⟩
      · generalize stepReader world.reader (Option.some c) = behind at executed printing
        have whole : world.reader.held = fillText job.pattern := by
          rw [fill_command_eq] at command
          exact (List.append_inj' command rfl).1
        cases executed with
        | filled _ used fills console =>
            rw [console, List.drop_left] at printing
            exact ⟨after, rfl, phase, powered, printing, wire, left, todo, rows⟩
        | refused cut used fills printed only console => exact absurd whole cut
      · have more : toBoard ≠ [] := by
          rintro rfl
          rw [fill_command_eq] at command
          have last := List.singleton_inj.mp (List.append_inj' command rfl).2
          rw [last] at inner
          exact absurd inner (by decide)
        rw [← reader] at going held
        have again : Coming after job := by
          refine ⟨phase, powered, ?_, wire, going.room, ?_⟩
          · rw [printing, console, List.drop_length]
          · rw [held, left, List.append_assoc]
            exact command
        obtain ⟨final, ran, arrived⟩ := ih more left again
        exact ⟨final, ran, arrived.phase, arrived.powered, arrived.printing, arrived.wire,
          arrived.toBoard, arrived.todo.trans todo, arrived.rows.trans rows⟩

/-! ## Dumps -/

theorem read_whole (boot : Boot) (text : Text) :
    (Waiting.line boot text).read lineEnd 0 = (lineEnd.printk text, []) := by
  rw [Waiting.read, if_neg]
  simp

inductive Reading : (CaptureReader → Phase) → Prop
  | starting : Reading .starting
  | reading (job : Job) : Reading (.reading job)

theorem Reading.handle {waits : CaptureReader → Phase} (reading : Reading waits) {world : World}
    {reader after : CaptureReader} {raw : Bytes} (phase : world.phase = waits reader)
    (goes : handleRead reader raw = .go after) :
    world.handle host raw = .go { world with phase := waits after } := by
  cases reading with
  | starting =>
      rw [World.handle, phase]
      dsimp only
      rw [goes]
  | reading job =>
      rw [World.handle, phase]
      dsimp only
      rw [goes]

theorem Reading.reads {waits : CaptureReader → Phase} (reading : Reading waits)
    (reader : CaptureReader) : (waits reader).reads = true := by
  cases reading with
  | starting => rfl
  | reading job => rfl

theorem step_read {world : World} {item : Waiting} {wire : List Waiting} (size : Nat)
    (reads : world.phase.reads = true) (waiting : world.wire = item :: wire) :
    stepWorld lineEnd host world (.read size) =
      World.handle host { world with wire := (item.read lineEnd size).2 ++ wire }
        (item.read lineEnd size).1 := by
  rw [stepWorld, if_pos reads, World.readline]
  split
  · next none =>
      rw [none] at waiting
      cases waiting
  · next own rest same =>
      rw [same] at waiting
      obtain ⟨rfl, rfl⟩ := List.cons.inj waiting
      rfl

theorem step_read_whole {world : World} {boot : Boot} {text : Text} {wire : List Waiting}
    (reads : world.phase.reads = true) (waiting : world.wire = .line boot text :: wire) :
    stepWorld lineEnd host world (.read 0) =
      World.handle host { world with wire := wire } (lineEnd.printk text) := by
  rw [step_read 0 reads waiting, read_whole]
  rfl

theorem run_reads {waits : CaptureReader → Phase} (reading : Reading waits) {boot : Boot}
    {texts : List Text} (printed : ∀ text ∈ texts, Printed text)
    (goes : ∀ reader, ∀ text ∈ texts, ∃ after, handleLine reader text = .go after)
    {rest : List Waiting} {reader : CaptureReader} {world : World}
    (phase : world.phase = waits reader)
    (waiting : world.wire = texts.map (Waiting.line boot) ++ rest) :
    run (stepWorld lineEnd host) world (List.replicate texts.length (.read 0)) =
      ({ world with phase := waits (run handleLine reader texts).1, wire := rest }, none) := by
  induction texts generalizing world reader with
  | nil =>
      show (world, none) = ({ world with phase := waits reader, wire := rest }, none)
      rw [← phase, ← show world.wire = rest from waiting]
  | cons text texts ih =>
      rw [List.forall_mem_cons] at printed
      obtain ⟨after, taken⟩ := goes reader text (List.mem_cons_self ..)
      have read : handleRead reader (lineEnd.printk text) = .go after :=
        (handle_read_printed lineEnd printed.1 reader).trans taken
      have reads : world.phase.reads = true := by
        rw [phase]
        exact reading.reads reader
      have stepped : stepWorld lineEnd host world (.read 0) =
          .go { world with phase := waits after, wire := texts.map (Waiting.line boot) ++ rest } := by
        rw [step_read_whole reads waiting]
        exact reading.handle phase read
      rw [List.length_cons, List.replicate_succ, run, stepped, run, taken]
      dsimp only
      rw [ih printed.2 (fun reader text member => goes reader text (List.mem_cons_of_mem _ member))
        rfl rfl]

theorem ready_returns (capture : Capture) {reader : CaptureReader}
    (size : reader.captured.length = regionBytes) :
    ∃ stopped, handleRead (run handleLine reader (printCapture capture)).1
        (lineEnd.printk readyLine) =
      .stop stopped (.ok (capture.region.val, (capture.address : Int))) := by
  have running : (run handleLine reader (printCapture capture)).2 = none :=
    run_running (fun reader line member => dump_line_goes member reader) reader
  have returned := run_capture capture size
  rw [run_append_of_running _ _ _ running, run] at returned
  rw [handle_read_printed lineEnd ready_line_printed]
  cases taken : handleLine (run handleLine reader (printCapture capture)).1 readyLine with
  | go after =>
      rw [taken] at returned
      cases returned
  | stop after outcome =>
      rw [taken] at returned
      exact ⟨after, congrArg (Next.stop after) (Option.some.inj returned)⟩

/-- The reader has everything but the READY line, which is handed over next. -/
structure Dumped (before : World) (waits : CaptureReader → Phase) (reader : CaptureReader)
    (capture : Capture) (world : World) : Prop where
  phase : world.phase = waits (run handleLine reader (printCapture capture)).1
  printing : world.printing = []
  wire : world.wire = []
  todo : world.todo = before.todo
  rows : world.rows = before.rows
  powered : world.powered = before.powered
  toBoard : world.toBoard = before.toBoard
  reader : world.reader = before.reader

/-- The reads of one dump come to its READY line, whatever was read before. -/
theorem run_dump {waits : CaptureReader → Phase} (reading : Reading waits) {reader : CaptureReader}
    {capture : Capture} {world : World} (phase : world.phase = waits reader)
    (wire : world.wire = []) (printing : world.printing = captureOutput capture) :
    ∃ after, Dumped world waits reader capture after ∧
      run (stepWorld lineEnd host) world (dumpEvents capture) =
        (after.handle host (lineEnd.printk readyLine)).outcome := by
  have printed := run_prints_all lineEnd host printing
  have texts : ∀ text ∈ printCapture capture, Printed text :=
    fun text member => (print_capture_dump capture text member).printed
  have goes : ∀ reader, ∀ text ∈ printCapture capture,
      ∃ after, handleLine reader text = .go after :=
    fun reader text member => dump_line_goes member reader
  have length : (captureOutput capture).length = (printCapture capture).length + 1 := by
    rw [captureOutput, List.length_append, List.length_singleton]
  have read := @run_reads lineEnd host waits reading world.boot _ texts goes
    [.line world.boot readyLine] reader
    { world with
      printing := [], wire := world.wire ++ (captureOutput capture).map (Waiting.line world.boot) }
    phase (by rw [wire, captureOutput, List.map_append]; rfl)
  refine ⟨{ world with
    phase := waits (run handleLine reader (printCapture capture)).1
    printing := [], wire := [] }, ⟨rfl, rfl, rfl, rfl, rfl, rfl, rfl, rfl⟩, ?_⟩
  rw [dumpEvents, run_append_of_running _ _ _ (by rw [printed]), printed, length,
    List.replicate_succ', run_append_of_running _ _ _ (by rw [read]), read, run_singleton,
    step_read_whole (reading.reads _) rfl]

/-! ## Jobs -/

structure Waits (world : World) (job : Job) (todo : List Job) (rows : List Row) : Prop
    extends Coming world job where
  todo : world.todo = todo
  rows : world.rows = rows
  toBoard : world.toBoard = fillCommand job.pattern

def Done (todo : List Job) (rows : List Row) : World × Option Verdict → Prop
  | (world, none) => ∃ job rest, todo = job :: rest ∧ Waits world job rest rows
  | (world, some verdict) => todo = [] ∧ world.rows = rows ∧ verdict = .ok ()

theorem Done.rows {todo : List Job} {rows : List Row} {outcome : World × Option Verdict}
    (done : Done todo rows outcome) : outcome.1.rows = rows := by
  obtain ⟨world, verdict⟩ := outcome
  cases verdict with
  | none =>
      obtain ⟨job, rest, _, waits⟩ := done
      exact waits.rows
  | some verdict => exact done.2.1

theorem run_next {world : World} (powered : world.powered = true) (printing : world.printing = [])
    (wire : world.wire = []) (used : world.reader.used = 0) (toBoard : world.toBoard = []) :
    Done world.todo world.rows world.next.outcome := by
  have none : world.reader.held = [] := by rw [CommandReader.held, used, List.take_zero]
  rw [World.next]
  cases todo : world.todo with
  | nil => exact ⟨rfl, rfl, rfl⟩
  | cons job rest =>
      have coming : world.toBoard ++ fillCommand job.pattern = fillCommand job.pattern := by
        rw [toBoard, List.nil_append]
      refine ⟨job, rest, rfl, ⟨rfl, powered, printing, wire, ?_, ?_⟩, rfl, rfl, coming⟩
      · rw [used]
        decide
      · show world.reader.held ++ (world.toBoard ++ fillCommand job.pattern) = _
        rw [none, coming]
        rfl

structure Calm (world : World) (job : Job) (todo : List Job) (rows : List Row) : Prop where
  phase : world.phase = .armed job
  powered : world.powered = true
  printing : world.printing = []
  wire : world.wire = []
  toBoard : world.toBoard = []
  todo : world.todo = todo
  rows : world.rows = rows

theorem run_arm {world : World} {job : Job} {todo : List Job} {rows : List Row}
    (waits : Waits world job todo rows) :
    ∃ after, run (stepWorld lineEnd host) world (armEvents job.pattern) = (after, none) ∧
      Calm after job todo rows := by
  have some : fillCommand job.pattern ≠ [] := by
    rw [fill_command_eq]
    exact List.append_ne_nil_of_right_ne_nil _ (by simp)
  obtain ⟨arrived, polled, facts⟩ :=
    @run_polls lineEnd host job (fillCommand job.pattern) world some waits.toBoard waits.toComing
  have printed := run_prints_all lineEnd host facts.printing
  rw [facts.wire, List.length_singleton, List.replicate_one, List.map_singleton,
    List.nil_append] at printed
  have stepped : stepWorld lineEnd host { arrived with
      printing := [], wire := [.line arrived.boot (armedLine job.pattern true)] } (.read 0) =
      .go { arrived with phase := .armed job, printing := [], wire := [] } := by
    rw [step_read_whole (by rw [facts.phase]; rfl) rfl, World.handle]
    dsimp only
    rw [facts.phase]
    dsimp only
    rw [handle_arm_line]
  have shape : armEvents job.pattern =
      List.replicate (fillCommand job.pattern).length .poll ++ ([.print] ++ [.read 0]) := rfl
  refine ⟨{ arrived with phase := .armed job, printing := [], wire := [] }, ?_,
    rfl, facts.powered, rfl, rfl, facts.toBoard, facts.todo.trans waits.todo,
    facts.rows.trans waits.rows⟩
  rw [shape, run_append_of_running _ _ _ (by rw [polled]), polled,
    run_append_of_running _ _ _ (by rw [printed]), printed, run_singleton, stepped]
  rfl

structure Started (world : World) (job : Job) (todo : List Job) (rows : List Row)
    (startup : Startup) : Prop where
  phase : world.phase = .reading job startReader
  powered : world.powered = true
  printing : world.printing = captureOutput startup.capture
  wire : world.wire = []
  toBoard : world.toBoard = []
  used : world.reader.used = 0
  todo : world.todo = todo
  rows : world.rows = rows

/-- The host can start the board for a job. -/
structure Host.Starts (host : Host) (job : Job) : Prop where
  pulse : host.pulseEn = .ok ()
  power : job.condition ≠ .rts → host.powerCommands = true
  sleep : job.condition.sleep = .ok ()

theorem pulse_ok (pulse : host.pulseEn = .ok ()) (world : World) (startup : Startup) (lost : Nat)
    (phase : Phase) : world.pulse host startup lost phase =
      .go { world.start startup (world.toBoard.drop lost) with phase := phase } := by
  rw [World.pulse, pulse]

theorem run_transition {world : World} {job : Job} {todo : List Job} {rows : List Row}
    (starts : host.Starts job) (calm : Calm world job todo rows) (startup : Startup) :
    ∃ after, run (stepWorld lineEnd host) world (transitionEvents job.condition startup) =
      (after, none) ∧ Started after job todo rows startup := by
  rw [transitionEvents]
  split_ifs with rts
  · have stepped : stepWorld lineEnd host world (.pulse startup 0) =
        .go { world.start startup world.toBoard with phase := .reading job startReader } := by
      rw [stepWorld, calm.phase]
      dsimp only
      rw [if_pos rts, pulse_ok starts.pulse, List.drop_zero]
    rw [run_singleton, stepped]
    exact ⟨_, rfl, rfl, rfl, rfl, calm.wire, calm.toBoard, rfl, calm.todo, calm.rows⟩
  · have off : stepWorld lineEnd host world .powerOff =
        .go { world with
          phase := .off job, powered := false, unpowered := true, printing := []
          toBoard := [], wire := [] } := by
      rw [stepWorld, calm.phase]
      dsimp only
      rw [if_neg rts, if_pos (starts.power rts)]
    have on {other : World} (phase : other.phase = .off job) :
        stepWorld lineEnd host other (.powerOn startup) =
          .go { other.start startup [] with phase := .on job } := by
      rw [stepWorld, phase]
      dsimp only
      rw [starts.sleep]
    rw [run, off]
    dsimp only
    rw [run, on rfl]
    exact ⟨_, rfl, rfl, rfl, rfl, rfl, rfl, rfl, calm.todo, calm.rows⟩

theorem run_row {world : World} {job : Job} {capture : Capture} {reader : CaptureReader}
    (phase : world.phase = .reading job reader) (size : reader.captured.length = regionBytes)
    (powered : world.powered = true) (printing : world.printing = captureOutput capture)
    (wire : world.wire = []) (toBoard : world.toBoard = []) (used : world.reader.used = 0)
    (written : host.writes (captureName world.rows.length job) = true) :
    Done world.todo
      (world.rows ++ [row world.rows.length job capture.region.val capture.address])
      (run (stepWorld lineEnd host) world (dumpEvents capture)) := by
  obtain ⟨dumped, facts, ran⟩ := @run_dump lineEnd host _ (.reading job) reader capture world
    phase wire printing
  obtain ⟨stopped, returned⟩ := @ready_returns lineEnd capture reader size
  have handled : dumped.handle host (lineEnd.printk readyLine) =
      { dumped with rows := dumped.rows ++
        [row dumped.rows.length job capture.region.val capture.address] }.next := by
    rw [World.handle, facts.phase]
    dsimp only
    rw [returned]
    dsimp only
    rw [if_pos (facts.rows ▸ written)]
  have next := @run_next { dumped with rows := dumped.rows ++
      [row dumped.rows.length job capture.region.val capture.address] }
    (facts.powered.trans powered) facts.printing facts.wire
    ((congrArg CommandReader.used facts.reader).trans used) (facts.toBoard.trans toBoard)
  rw [ran, handled, ← facts.rows, ← facts.todo]
  exact next

/-- One job: its pattern is armed, the board starts, and its dump is the next row. -/
theorem run_job {world : World} {job : Job} {todo : List Job} {rows : List Row}
    (starts : host.Starts job) (waits : Waits world job todo rows) (startup : Startup)
    (written : host.writes (captureName rows.length job) = true) :
    Done todo (rows ++
        [row rows.length job startup.capture.region.val startup.capture.address])
      (run (stepWorld lineEnd host) world (jobEvents job startup)) := by
  obtain ⟨armed, ranArm, calm⟩ := @run_arm lineEnd host _ _ _ _ waits
  obtain ⟨begun, ranTransition, started⟩ := @run_transition lineEnd host _ _ _ _ starts calm startup
  rw [jobEvents, run_append_of_running _ _ _ (by rw [ranArm]), ranArm,
    run_append_of_running _ _ _ (by rw [ranTransition]), ranTransition, ← started.todo,
    ← started.rows]
  exact run_row started.phase List.length_replicate started.powered started.printing started.wire
    started.toBoard started.used (started.rows ▸ written)

theorem run_first {plan : List Job} {startup : Startup} {world : World}
    (phase : world.phase = .opened) (pulse : host.pulseEn = .ok ()) (wire : world.wire = [])
    (toBoard : world.toBoard = []) (todo : world.todo = plan) (rows : world.rows = []) :
    Done plan [] (run (stepWorld lineEnd host) world
      (.pulse startup 0 :: dumpEvents startup.capture)) := by
  have pulsed : stepWorld lineEnd host world (.pulse startup 0) =
      .go { world.start startup world.toBoard with phase := .starting startReader } := by
    rw [stepWorld, phase]
    dsimp only
    rw [pulse_ok pulse, List.drop_zero]
  obtain ⟨dumped, facts, ran⟩ := @run_dump lineEnd host _ .starting startReader startup.capture
    { world.start startup world.toBoard with phase := .starting startReader } rfl wire rfl
  obtain ⟨stopped, returned⟩ := @ready_returns lineEnd startup.capture startReader
    List.length_replicate
  have handled : dumped.handle host (lineEnd.printk readyLine) = dumped.next := by
    rw [World.handle, facts.phase]
    dsimp only
    rw [returned]
  have next := @run_next dumped facts.powered facts.printing facts.wire
    (congrArg CommandReader.used facts.reader) (facts.toBoard.trans toBoard)
  rw [facts.todo, facts.rows] at next
  rw [run, pulsed]
  dsimp only
  rw [ran, handled, ← todo, ← rows]
  exact next

end Undisturbed

end BootEntropy.Sram
