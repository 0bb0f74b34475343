import BootEntropy.Lib.Double
import BootEntropy.Lib.Text
import BootEntropy.Lib.Search

/-!
# Raw capture over the serial console

`trng_bench_raw_dump` writes text, a start marker, raw bytes and an end marker on
one UART. `capture_binary.py` scans for the marker and then stores raw bytes.
The port is the bytes still to come and one `ReadCall` for each `ser.read`.
-/

namespace BootEntropy.RawDump

open BootEntropy.Lib

set_option autoImplicit false

def startMarker : Bytes := asciiBytes "[BENCH_RAW_START]"
def armedMarker : Bytes := asciiBytes "[BENCH_RAW_ARMED]"
def metaPrefix : Bytes := asciiBytes "[BENCH_META] raw_dump_bytes,"
def endMarker : Bytes := asciiBytes "\n[BENCH_RAW_END]\n"

def defaultBytes : Int := 268435456
def scanRead : Nat := 256
def scanBufLimit : Nat := 4096
def chunkSize : Nat := 65536

/-- What `trng_bench_raw_dump` sends when the boot wrote `boot` before it. -/
def rawDumpStream (boot raw : Bytes) : Bytes :=
  boot ++ (startMarker ++ (0x0A :: (raw ++ endMarker)))

/-! ## Lines of boot text -/

def asciiSpace (byte : UInt8) : Bool := (9 ≤ byte.toNat && byte.toNat ≤ 13) || byte.toNat = 32

def asciiDigit (byte : UInt8) : Bool := 48 ≤ byte.toNat && byte.toNat ≤ 57

/-- `bytes.strip()` -/
def stripBytes (line : Bytes) : Bytes :=
  ((line.dropWhile asciiSpace).reverse.dropWhile asciiSpace).reverse

/-- `int(bytes)` -/
def parseIntBytes (bytes : Bytes) : Option Int :=
  parseInt (bytes.map fun byte => if byte.toNat < 0x80 then Char.ofNat byte.toNat else replacement)

/-- `line.rsplit(b",", 1)[1]` of a line with a comma. -/
def afterLastComma (line : Bytes) : Bytes := (line.reverse.takeWhile (· ≠ 0x2C)).reverse

def octet (bytes : Bytes) : Option (Bytes × Bytes) :=
  let digits := (bytes.take 3).takeWhile asciiDigit
  if digits = [] then none else some (digits, bytes.drop digits.length)

def dottedOctet (bytes : Bytes) : Option (Bytes × Bytes) :=
  match octet bytes with
  | some (digits, 0x2E :: rest) => some (digits ++ [0x2E], rest)
  | _ => none

/-- `IPV4_RE` at the head of `bytes`. A group that could stop earlier would have
to be followed by a dot, and the next byte is a digit, so no choice is lost. -/
def matchIpv4 (bytes : Bytes) : Option Bytes := do
  let (first, afterFirst) ← dottedOctet bytes
  let (second, afterSecond) ← dottedOctet afterFirst
  let (third, afterThird) ← dottedOctet afterSecond
  let (fourth, _) ← octet afterThird
  return first ++ second ++ third ++ fourth

def searchIpv4 : Bytes → Option Bytes
  | [] => none
  | byte :: rest => (matchIpv4 (byte :: rest)).or (searchIpv4 rest)

def extractIpv4FromLine (line : Bytes) : Option Bytes :=
  if findSub (asciiBytes "IPv4") line = none then none else searchIpv4 line

/-- The lines ended by `\n`, and what follows the last of them. -/
def partitionLines : Bytes → List Bytes × Bytes
  | [] => ([], [])
  | byte :: rest =>
      let (lines, remainder) := partitionLines rest
      if byte = 0x0A then ([] :: lines, remainder)
      else match lines with
        | [] => ([], byte :: remainder)
        | line :: others => ((byte :: line) :: others, remainder)

/-! ## Marker scan -/

inductive ReadResult where
  /-- Bytes the driver has for this call. None of them is a read timeout. -/
  | ready (count : Nat)
  | raises
  deriving DecidableEq, Repr

/-- One `ser.read`: what it meets, the clock in milliseconds when it returns, and
whether a trigger written after it raises. -/
structure ReadCall where
  result : ReadResult
  now : Int
  triggerRaises : Bool
  deriving DecidableEq, Repr

structure CaptureArgs where
  bytes : Option Int
  startupTimeoutMs : Int
  udpBurst : Bool
  udpTargetIp : Option Bytes
  deriving DecidableEq, Repr

structure ScanState where
  scanBuf : Bytes
  firmwareBytes : Option Int
  firmwareIpv4 : Option Bytes
  rawArmed : Bool
  triggerSent : Bool
  udpWaitReported : Bool
  udpSender : Option Bytes
  lastTriggerTime : Int
  deriving DecidableEq, Repr

def startScan (args : CaptureArgs) : ScanState :=
  ⟨[], none, args.udpTargetIp, false, false, false, none, 0⟩

/-- `left or right` for two addresses, where the empty string is false. -/
def orAddress (left right : Option Bytes) : Option Bytes :=
  match left with
  | some (byte :: rest) => some (byte :: rest)
  | _ => right

def noteLine (state : ScanState) (rawLine : Bytes) : ScanState :=
  let line := stripBytes rawLine
  { state with
    firmwareIpv4 :=
      match extractIpv4FromLine line with
      | some parsed => orAddress state.firmwareIpv4 (some parsed)
      | none => state.firmwareIpv4
    firmwareBytes :=
      if metaPrefix <+: line then (parseIntBytes (afterLastComma line)).or state.firmwareBytes
      else state.firmwareBytes
    rawArmed := state.rawArmed || decide (armedMarker <+: line) }

def readLines (state : ScanState) : ScanState :=
  let (lines, remainder) := partitionLines state.scanBuf
  { lines.foldl noteLine state with scanBuf := remainder }

inductive ScanStep where
  | next (state : ScanState)
  | found (initialData : Bytes)
  | raised
  deriving DecidableEq, Repr

def trimScanBuf (state : ScanState) : ScanState :=
  if scanBufLimit < state.scanBuf.length then
    { state with
      scanBuf := state.scanBuf.drop (state.scanBuf.length - startMarker.length) }
  else state

def writeTrigger (call : ReadCall) (state : ScanState) : ScanStep :=
  if call.triggerRaises then .raised
  else .next (trimScanBuf { state with triggerSent := true, lastTriggerTime := call.now })

/-- The trigger and the trimming of the buffer. Waiting for an address goes back
to the read without trimming. -/
def pollTrigger (args : CaptureArgs) (call : ReadCall) (state : ScanState) : ScanStep :=
  if state.rawArmed ∧ ¬state.triggerSent ∧ 250 < call.now - state.lastTriggerTime then
    if args.udpBurst then
      match orAddress args.udpTargetIp state.firmwareIpv4 with
      | some (byte :: rest) =>
          writeTrigger call
            { state with udpSender := state.udpSender.or (some (byte :: rest)) }
      | _ => .next { state with udpWaitReported := true, lastTriggerTime := call.now }
    else writeTrigger call state
  else .next (trimScanBuf state)

def isCrlf (byte : UInt8) : Bool := byte = 0x0D || byte = 0x0A

/-- The body of the scan loop after a read that returned `data`. -/
def scanData (args : CaptureArgs) (call : ReadCall) (state : ScanState) (data : Bytes) : ScanStep :=
  let scanBuf := state.scanBuf ++ data
  match findSub startMarker scanBuf with
  | some index => .found ((scanBuf.drop (index + startMarker.length)).dropWhile isCrlf)
  | none =>
      pollTrigger args call (readLines
        { state with
          scanBuf := scanBuf
          rawArmed := state.rawArmed || (findSub armedMarker scanBuf).isSome })

/-- Where the scan stands once `calls` are used up. -/
inductive ScanEnd where
  | waiting
  | timedOut
  | crashed
  | handedOver (state : ScanState) (initialData pending : Bytes) (calls : List ReadCall)
  deriving DecidableEq, Repr

def scanMarker (args : CaptureArgs) (startTime : Int) :
    ScanState → Bytes → List ReadCall → ScanEnd
  | _, _, [] => .waiting
  | state, pending, call :: calls =>
      match call.result with
      | .raises => .crashed
      | .ready count =>
          let data := pending.take (min count scanRead)
          let rest := pending.drop (min count scanRead)
          if data = [] then
            if args.startupTimeoutMs < call.now - startTime then .timedOut
            else scanMarker args startTime state rest calls
          else
            match scanData args call state data with
            | .found initialData => .handedOver state initialData rest calls
            | .raised => .crashed
            | .next after => scanMarker args startTime after rest calls

/-! ## Binary collection -/

/-- `success` is the run that prints it. `failed` is an exception inside the
collection, which the script reports before it ends normally. -/
inductive CaptureEnd where
  | waiting
  | timedOut
  | crashed
  | failed (file : Bytes)
  | success (file : Bytes)
  deriving DecidableEq, Repr

/-- `data[:stop]` -/
def sliceTo (data : Bytes) (stop : Int) : Bytes :=
  if 0 ≤ stop then data.take stop.toNat else data.take (data.length + stop).toNat

def collectBinary (target : Int) : Bytes → Nat → Bytes → List ReadCall → CaptureEnd
  | file, _, _, [] => if target ≤ file.length then .success file else .waiting
  | file, timeouts, pending, call :: calls =>
      if target ≤ file.length then .success file
      else
        match call.result with
        | .raises => .failed file
        | .ready count =>
            let toRead := min chunkSize (target - file.length).toNat
            let data := pending.take (min count toRead)
            if data = [] then
              if 3 ≤ timeouts + 1 then .failed file
              else collectBinary target file (timeouts + 1) pending calls
            else collectBinary target (file ++ data) 0 (pending.drop (min count toRead)) calls

/-- `args.bytes if args.bytes is not None else (firmware_bytes or DEFAULT_BYTES)` -/
def targetBytes (args : CaptureArgs) (firmwareBytes : Option Int) : Int :=
  match args.bytes, firmwareBytes with
  | some requested, _ => requested
  | none, some 0 => defaultBytes
  | none, some announced => announced
  | none, none => defaultBytes

/-- `bytes / (1024 * 1024 * 1024)`, printed outside every `try`. -/
def sizeInGb (bytes : Int) : Except Raised Double := divideInts bytes (1024 * 1024 * 1024)

/-- The target size of the banner, printed when `--bytes` is given. -/
def bannerSize (args : CaptureArgs) : Except Raised (Option Double) := args.bytes.mapM sizeInGb

def captureBinary (args : CaptureArgs) (startTime : Int) (stream : Bytes) (calls : List ReadCall) :
    CaptureEnd :=
  match bannerSize args with
  | .error _ => .crashed
  | .ok _ =>
      match scanMarker args startTime (startScan args) stream calls with
      | .waiting => .waiting
      | .timedOut => .timedOut
      | .crashed => .crashed
      | .handedOver state initialData pending rest =>
          let target := targetBytes args state.firmwareBytes
          match sizeInGb target with
          | .error _ => .crashed
          | .ok _ => collectBinary target (sliceTo initialData target) 0 pending rest

/-- The size of a target below this bound can be printed. -/
def printableTarget : Int := 2 ^ 1054 - 2 ^ 1000

theorem size_in_gb_succeeds (bytes : Int) :
    Succeeds (sizeInGb bytes) ↔ |bytes| < printableTarget := by
  have scale : (0 : ℚ) < 2 ^ 30 := by positivity
  have size : ((1024 * 1024 * 1024 : Int) : ℚ) = 2 ^ 30 := by norm_num
  have bound : (2 ^ 1024 - 2 ^ 970 : ℚ) * 2 ^ 30 = (printableTarget : Int) := by
    rw [printableTarget, sub_mul, ← pow_add, ← pow_add, Int.cast_sub, Int.cast_pow, Int.cast_pow,
      Int.cast_ofNat]
  rw [sizeInGb, divide_ints_succeeds, FitsDouble, size, abs_div, abs_of_pos scale,
    div_lt_iff₀ scale, bound, ← Int.cast_abs, Int.cast_lt]

/-- With `--bytes`, the banner prints the target of the collection. -/
theorem banner_size_of_target {args : CaptureArgs} {firmwareBytes : Option Int}
    (printed : Succeeds (sizeInGb (targetBytes args firmwareBytes))) :
    Succeeds (bannerSize args) := by
  rw [bannerSize]
  cases asked : args.bytes with
  | none => exact succeeds_ok none
  | some requested =>
      obtain ⟨size, run⟩ := printed
      simp only [targetBytes, asked] at run
      exact ⟨some size, by simp [run]⟩

def captureTarget (args : CaptureArgs) (startTime : Int) (stream : Bytes) (calls : List ReadCall) :
    Option Int :=
  match scanMarker args startTime (startScan args) stream calls with
  | .handedOver state _ _ _ => some (targetBytes args state.firmwareBytes)
  | _ => none

end BootEntropy.RawDump
