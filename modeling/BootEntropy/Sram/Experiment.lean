import BootEntropy.Lib.Floats
import BootEntropy.Sram.Command
import BootEntropy.Sram.Partial

/-!
# The experiment

The main loop of `run_experiment.py` with `arm_pattern`, `perform_transition` and
`read_capture`, and the board at the other end of the serial line. The board may
start again by itself at any point between two lines, anything without an `[SRAM` tag
may come in between, and `readline` may hand over a line in parts.
-/

namespace BootEntropy.Sram

open BootEntropy.Lib

set_option autoImplicit false

/-! ## Arguments -/

def PATTERNS : List UInt8 := [0x00, 0xFF, 0xAA, 0x55]

/-- A condition that `power_duration` accepts, with the text behind `power-`. -/
inductive Condition where
  | rts
  | power (text : Text) (duration : Double)
  deriving DecidableEq, Repr

def Condition.text : Condition → Text
  | .rts => "rts".toList
  | .power text _ => "power-".toList ++ text

inductive ArgumentError where
  | repetitionsNotPositive
  | noCondition
  | valueError
  deriving DecidableEq, Repr

def powerDuration (condition : Text) : Except ArgumentError Condition :=
  if condition = "rts".toList then .ok .rts
  else if "power-".toList <+: condition then
    match parseFloat (condition.drop 6) with
    | none => .error .valueError
    | some duration => .ok (.power (condition.drop 6) duration)
  else .error .valueError

def chosenConditions (conditions : Text) : List Text :=
  ((conditions.splitOn ',').map strip).filter (· ≠ [])

/-- What `main` checks before it builds. -/
def checkArguments (repetitions : Int) (conditions : Text) :
    Except ArgumentError (List Condition) :=
  if repetitions ≤ 0 then .error .repetitionsNotPositive
  else if chosenConditions conditions = [] then .error .noCondition
  else (chosenConditions conditions).mapM powerDuration

/-! ## Jobs -/

structure Job where
  condition : Condition
  repetition : Nat
  pattern : UInt8
  deriving DecidableEq, Repr

/-- The three nested loops of `main`. -/
def jobs (conditions : List Condition) (repetitions : Nat) : List Job :=
  conditions.flatMap fun condition =>
    (List.range repetitions).flatMap fun repetition =>
      PATTERNS.map fun pattern => ⟨condition, repetition, pattern⟩

/-- A row of `captures.csv`, with the bytes of its file. -/
structure Row where
  captureIndex : Nat
  condition : Condition
  repetition : Nat
  pattern : UInt8
  data : Bytes
  runtimeAddress : Int
  deriving DecidableEq

def row (captureIndex : Nat) (job : Job) (data : Bytes) (address : Int) : Row :=
  ⟨captureIndex, job.condition, job.repetition, job.pattern, data, address⟩

/-! ## Host -/

def fillCommand (pattern : UInt8) : Bytes :=
  asciiBytes "FILL " ++ (textBytes (hexText [pattern]) ++ [newline])

def armedTag : Text := "[SRAM_ARMED]".toList

def armError (pattern : UInt8) : CaptureError :=
  .runtimeError (String.ofList ("firmware could not verify pattern ".toList ++ hexText [pattern]))

/-- One turn of the loop of `arm_pattern`. -/
def handleArm (pattern : UInt8) (raw : Bytes) : Next Unit (Except CaptureError Unit) :=
  if raw = [] then .go ()
  else
    let line := strip (decodeAscii raw)
    if armedTag <+: line then
      let fields := (splitWords line).tail
      if field fields "pattern".toList ≠ some (hexText [pattern]) ∨
          field fields "verify".toList ≠ some "ok".toList then
        .stop () (.error (armError pattern))
      else .stop () (.ok ())
    else .go ()

/-- `time.sleep`. It counts in nanoseconds, of which 63 bits hold. -/
def sleep : Double → Except Lib.Raised Unit
  | .nan => .error .valueError
  | .infinite _ => .error .overflowError
  | .finite seconds =>
      let nanoseconds := roundDouble (seconds * 10 ^ 9)
      if nanoseconds < -2 ^ 63 ∨ 2 ^ 63 ≤ nanoseconds then .error .overflowError
      else if seconds < 0 then .error .valueError
      else .ok ()

/-- The host and what it is told: whether both power commands are given, how long EN is
pulled, and which files can be written. -/
structure Host where
  powerCommands : Bool
  resetPulseMs : Double
  writes : Text → Bool

def Host.pulseEn (host : Host) : Except Lib.Raised Unit :=
  sleep (host.resetPulseMs.div (.finite 1000))

/-- The `sleep` between the two power commands. -/
def Condition.sleep : Condition → Except Lib.Raised Unit
  | .rts => .ok ()
  | .power _ duration => Sram.sleep duration

def captureName (captureIndex : Nat) (job : Job) : Text :=
  "capture_".toList ++ paddedDecimal 4 captureIndex ++ "_".toList ++ job.condition.text ++
    "_rep".toList ++ paddedDecimal 2 job.repetition ++ "_after_".toList ++
      hexText [job.pattern] ++ ".bin".toList

inductive ExperimentError where
  | raised (error : CaptureError)
  | sleepRefused (error : Lib.Raised)
  | commandFailed
  | noPowerCommands
  | deviceMissing
  | notWritten
  deriving DecidableEq

abbrev Verdict := Except ExperimentError Unit

inductive Phase where
  /-- The port is open, the first pulse still to come. -/
  | opened
  /-- The first `read_capture`. -/
  | starting (reader : CaptureReader)
  | arming (job : Job)
  /-- Ahead of `perform_transition`. -/
  | armed (job : Job)
  /-- `sleep` between the two power commands. -/
  | off (job : Job)
  /-- Power is back and the port still closed. -/
  | on (job : Job)
  | reading (job : Job) (reader : CaptureReader)

/-- The phases in which `readline` is called. -/
def Phase.reads : Phase → Bool
  | .starting _ | .arming _ | .reading _ _ => true
  | .opened | .armed _ | .off _ | .on _ => false

/-! ## Board -/

/-- What the board finds in its memory when it starts. -/
structure Startup where
  capture : Capture
  command : Block commandBytes

/-- One start of the board: its number, what it captured, the last pattern filled in
before, and whether power has been off since then. -/
structure Boot where
  number : Nat
  capture : Capture
  preceding : Option UInt8
  unpowered : Bool

/-- What waits at the host's end of the line. -/
inductive Waiting where
  | other (raw : Bytes)
  | line (boot : Boot) (text : Text)

structure World where
  phase : Phase
  todo : List Job
  rows : List Row
  powered : Bool
  boots : List Boot
  boot : Boot
  reader : CommandReader
  /-- Lines the firmware has still to print. It reads commands behind them. -/
  printing : List Text
  /-- Last pattern filled in by any start of the board. -/
  filled : Option UInt8
  unpowered : Bool
  toBoard : Bytes
  wire : List Waiting

/-- The board starts between two lines: the lines it has printed whole wait at the host's
end, those it had still to print are lost. A line cut by a start is not modelled. -/
def World.start (world : World) (startup : Startup) (toBoard : Bytes) : World :=
  let boot := ⟨world.boots.length, startup.capture, world.filled, world.unpowered⟩
  { world with
    powered := true
    boots := world.boots ++ [boot]
    boot := boot
    reader := startCommandReader startup.command startup.capture.region.val
    printing := captureOutput startup.capture
    toBoard := toBoard }

def World.print (world : World) : World :=
  match world.printing with
  | [] => world
  | text :: texts =>
      { world with printing := texts, wire := world.wire ++ [.line world.boot text] }

/-- A poll of the console by the firmware, which has printed everything before. -/
def World.poll (world : World) : World :=
  if world.powered = true ∧ world.printing = [] then
    match world.toBoard with
    | [] => { world with reader := stepReader world.reader none }
    | c :: toBoard =>
        let reader := stepReader world.reader (some c)
        let fills := reader.filled.drop world.reader.filled.length
        { world with
          reader := reader
          toBoard := toBoard
          printing := reader.console.drop world.reader.console.length
          filled := fills.getLast?.or world.filled
          unpowered := world.unpowered && fills.isEmpty }
  else world

/-! ## Steps -/

/-- What comes to pass, in any order. -/
inductive Event where
  | print
  | noise (raw : Bytes) (foreign : isSramLine raw = false)
  | poll
  /-- The board starts by itself and the first `lost` bytes on their way to it are gone. -/
  | restart (startup : Startup) (lost : Nat)
  | pulse (startup : Startup) (lost : Nat)
  | powerOff
  | powerOn (startup : Startup)
  | reopen
  /-- `readline` returns the first line that waits, or its first `size` bytes. -/
  | read (size : Nat)
  | deadline
  | commandFails

section Steps

variable (lineEnd : LineEnd) (host : Host)

def Waiting.read (size : Nat) : Waiting → Bytes × List Waiting
  | .other raw => (raw, [])
  | .line _ text =>
      let raw := lineEnd.printk text
      if 0 < size ∧ size < raw.length then (raw.take size, [.other (raw.drop size)])
      else (raw, [])

def World.next (world : World) : Next World Verdict :=
  match world.todo with
  | [] => .stop world (.ok ())
  | job :: todo =>
      .go { world with
        phase := .arming job
        todo := todo
        toBoard := world.toBoard ++ fillCommand job.pattern }

def World.handle (world : World) (raw : Bytes) : Next World Verdict :=
  match world.phase with
  | .starting reader =>
      match handleRead reader raw with
      | .go reader => .go { world with phase := .starting reader }
      | .stop _ (.error error) => .stop world (.error (.raised error))
      | .stop _ (.ok _) => world.next
  | .arming job =>
      match handleArm job.pattern raw with
      | .go _ => .go world
      | .stop _ (.error error) => .stop world (.error (.raised error))
      | .stop _ (.ok _) => .go { world with phase := .armed job }
  | .reading job reader =>
      match handleRead reader raw with
      | .go reader => .go { world with phase := .reading job reader }
      | .stop _ (.error error) => .stop world (.error (.raised error))
      | .stop _ (.ok (data, address)) =>
          if host.writes (captureName world.rows.length job) then
            { world with rows := world.rows ++ [row world.rows.length job data address] }.next
          else .stop world (.error .notWritten)
  | _ => .go world

def World.readline (world : World) (size : Nat) : Next World Verdict :=
  match world.wire with
  | [] => world.handle host []
  | item :: wire =>
      { world with wire := (item.read lineEnd size).2 ++ wire }.handle host
        (item.read lineEnd size).1

def timedOut (text : String) : ExperimentError := .raised (.runtimeError text)

def armTimeout (pattern : UInt8) : ExperimentError :=
  timedOut (String.ofList ("timed out while arming pattern ".toList ++ hexText [pattern]))

/-- `pulse_en`. -/
def World.pulse (world : World) (startup : Startup) (lost : Nat) (phase : Phase) :
    Next World Verdict :=
  match host.pulseEn with
  | .error error => .stop world (.error (.sleepRefused error))
  | .ok () => .go { world.start startup (world.toBoard.drop lost) with phase := phase }

def stepWorld (world : World) : Event → Next World Verdict
  | .print => .go world.print
  | .noise raw _ => .go { world with wire := world.wire ++ [.other raw] }
  | .poll => .go world.poll
  | .restart startup lost =>
      if world.powered then .go (world.start startup (world.toBoard.drop lost)) else .go world
  | .pulse startup lost =>
      match world.phase with
      | .opened => world.pulse host startup lost (.starting startReader)
      | .armed job =>
          if job.condition = .rts then world.pulse host startup lost (.reading job startReader)
          else .go world
      | _ => .go world
  | .powerOff =>
      match world.phase with
      | .armed job =>
          if job.condition = .rts then .go world
          else if host.powerCommands then
            .go { world with
              phase := .off job, powered := false, unpowered := true, printing := []
              toBoard := [], wire := [] }
          else .stop world (.error .noPowerCommands)
      | _ => .go world
  | .powerOn startup =>
      match world.phase with
      | .off job =>
          -- The command to restore power runs even if the sleep is refused.
          match job.condition.sleep with
          | .error error => .stop (world.start startup []) (.error (.sleepRefused error))
          | .ok () => .go { world.start startup [] with phase := .on job }
      | _ => .go world
  | .reopen =>
      match world.phase with
      | .on job => .go { world with phase := .reading job startReader, wire := [] }
      | _ => .go world
  | .read size => if world.phase.reads then world.readline lineEnd host size else .go world
  | .deadline =>
      match world.phase with
      | .starting _ | .reading _ _ =>
          .stop world (.error (timedOut "timed out while waiting for a complete SRAM capture"))
      | .arming job => .stop world (.error (armTimeout job.pattern))
      | .on _ => .stop world (.error .deviceMissing)
      | _ => .go world
  | .commandFails =>
      match world.phase with
      | .armed _ | .off _ => .stop world (.error .commandFailed)
      | _ => .go world

end Steps

/-- The port has been opened, which empties it. The board has started before and may
still be printing. -/
def startExperiment (conditions : List Condition) (repetitions : Nat) (startup : Startup)
    (printed : Nat) (reader : CommandReader) : World where
  phase := .opened
  todo := jobs conditions repetitions
  rows := []
  powered := true
  boots := [⟨0, startup.capture, none, true⟩]
  boot := ⟨0, startup.capture, none, true⟩
  reader := reader
  printing := (captureOutput startup.capture).drop printed
  filled := none
  unpowered := true
  toBoard := []
  wire := []

end BootEntropy.Sram
