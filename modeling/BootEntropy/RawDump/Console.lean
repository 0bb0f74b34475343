import BootEntropy.Lib.Tokens
import BootEntropy.RawDump.Capture

/-!
# The console during the raw dump

The threads of one build from the end of the second phase on: `trng_bench_run_all`
around the dump, the Wi-Fi event handlers, the scan thread and the UDP receiver.
A turn is one step of one thread, and a thread that prints writes one byte a turn.
-/

namespace BootEntropy.RawDump

open BootEntropy.Lib

set_option autoImplicit false

/-! ## Builds -/

/-- `BENCH_CONDITION` -/
inductive BenchCondition where
  | rfDisabled
  | wifiIdle
  | wifiScan
  | udpBurst
  | wifiTraffic
  deriving DecidableEq, Repr

structure Build where
  condition : BenchCondition
  trngRawDumpBytes : UInt64
  trngRawStartDelayMs : Int
  udpBurstPort : Int
  udpBurstPayloadSize : Int
  udpBurstExpectByte : UInt8
  deriving DecidableEq, Repr

def Build.hasWifi (build : Build) : Bool := build.condition ≠ .rfDisabled
def Build.hasScanThread (build : Build) : Bool := build.condition = .wifiScan
def Build.hasUdpThread (build : Build) : Bool :=
  build.condition = .udpBurst || build.condition = .wifiTraffic

/-! ## Printed text -/

/-- `%d` and `%u` -/
def number (value : Int) : Bytes := textBytes (signedDecimal value)

/-- `%-Ns` -/
def padRight (width : Nat) (text : Bytes) : Bytes :=
  text ++ List.replicate (width - text.length) 0x20

/-- `%d` of a `uint32_t`. -/
def asInt32 (value : Nat) : Int := if value < 2 ^ 31 then value else (value : Int) - 2 ^ 32

def metaLine (key : String) (value : Bytes) : Bytes :=
  asciiBytes "[BENCH_META] " ++ asciiBytes key ++ asciiBytes "," ++ value ++ asciiBytes "\n"

/-- What `trng_bench_raw_dump` prints before it waits for the trigger. -/
def dumpAnnouncement (build : Build) : Bytes :=
  asciiBytes "\n--- TRNG Raw Byte Dump (" ++ number build.trngRawDumpBytes.toNat ++
    asciiBytes " bytes) ---\n" ++
    metaLine "raw_dump_bytes" (number build.trngRawDumpBytes.toNat) ++
    metaLine "raw_start_delay_ms" (number build.trngRawStartDelayMs) ++
    armedMarker ++ asciiBytes " delay_ms," ++ number build.trngRawStartDelayMs ++
    asciiBytes ",trigger,G\n"

def startLine : Bytes := startMarker ++ [0x0A]

def dumpError (ret : Int) : Bytes :=
  asciiBytes "\n[BENCH_ERR] raw_dump,ret=" ++ number ret ++ asciiBytes "\n"

def benchFooter : Bytes := asciiBytes "[BENCH_END]\n\n"

/-! ## Wi-Fi events -/

structure ScanEntry where
  ssid : Bytes
  ssidLength : Nat
  channel : Nat
  rssi : Int
  psk : Bool
  deriving DecidableEq, Repr

inductive WifiEvent where
  | scanResult (entry : ScanEntry)
  | scanDone (status : Int)
  | connectResult (status : Int)
  | disconnectResult (status : Int)
  deriving DecidableEq, Repr

/-- The static variables of `wifi.c`. -/
structure Wifi where
  scanResult : Nat
  connected : Bool
  connecting : Bool
  disconnecting : Bool
  eventLogging : Bool
  deriving DecidableEq, Repr

def scanHeader : Bytes :=
  asciiBytes "\n" ++ padRight 4 (asciiBytes "Num") ++ asciiBytes " | " ++
    padRight 32 (asciiBytes "SSID") ++ asciiBytes " " ++ padRight 5 (asciiBytes "(len)") ++
    asciiBytes " | " ++ padRight 4 (asciiBytes "Chan") ++ asciiBytes " | " ++
    padRight 4 (asciiBytes "RSSI") ++ asciiBytes " | " ++ padRight 5 (asciiBytes "Sec") ++
    asciiBytes "\n"

def scanRow (scanResult : Nat) (entry : ScanEntry) : Bytes :=
  padRight 4 (number (asInt32 scanResult)) ++ asciiBytes " | " ++ padRight 32 entry.ssid ++
    asciiBytes " " ++ padRight 5 (number entry.ssidLength) ++ asciiBytes " | " ++
    padRight 4 (number entry.channel) ++ asciiBytes " | " ++ padRight 4 (number entry.rssi) ++
    asciiBytes " | " ++
    padRight 5 (if entry.psk then asciiBytes "WPA/WPA2" else asciiBytes "Open") ++ asciiBytes "\n"

def countScan (wifi : Wifi) : Nat := (wifi.scanResult + 1) % 2 ^ 32

def enterEvent (wifi : Wifi) : WifiEvent → Wifi
  | .scanResult _ => { wifi with scanResult := countScan wifi }
  | .scanDone _ => wifi
  | .connectResult _ => wifi
  | .disconnectResult _ => { wifi with connected := false }

/-- What a handler prints if the flag is up. -/
def eventText (wifi : Wifi) : WifiEvent → Bytes
  | .scanResult entry =>
      (if countScan wifi = 1 then scanHeader else []) ++ scanRow (countScan wifi) entry
  | .scanDone status =>
      if status ≠ 0 then
        asciiBytes "\nWi-Fi scan request failed (" ++ number status ++ asciiBytes ")\n"
      else asciiBytes "Wi-Fi scan done (" ++ number wifi.scanResult ++ asciiBytes " results)\n"
  | .connectResult status =>
      if status ≠ 0 then asciiBytes "\nWi-Fi connection failed (" ++ number status ++ asciiBytes ")\n"
      else asciiBytes "\nWi-Fi connected\n"
  | .disconnectResult status =>
      if wifi.disconnecting then
        asciiBytes "\nWi-Fi disconnection " ++
          (if status ≠ 0 then asciiBytes "failed" else asciiBytes "done") ++ asciiBytes " (" ++
          number status ++ asciiBytes ")\n"
      else asciiBytes "\nWi-Fi Disconnected\n"

def leaveEvent (wifi : Wifi) : WifiEvent → Wifi
  | .scanResult _ => wifi
  | .scanDone _ => { wifi with scanResult := 0 }
  | .connectResult status =>
      { wifi with connected := wifi.connected || status = 0, connecting := false }
  | .disconnectResult _ => { wifi with disconnecting := false }

/-! ## Threads -/

/-- A thread with the text of its `printk` that is not written yet. `late` is set
for a text whose look at the logging flag came after the dump had cleared it. -/
structure Thread (Pc : Type) where
  text : Bytes
  late : Bool
  pc : Pc
  deriving DecidableEq, Repr

inductive HandlerPc where
  | idle
  | leaving (event : WifiEvent)
  deriving DecidableEq, Repr

inductive ScanPc where
  | checking
  | counting
  | sleeping
  | stopping
  | stopped
  deriving DecidableEq, Repr

/-- What `wifi_trigger_scan` meets. -/
inductive ScanRequest where
  | noInterface
  | refused
  | accepted
  deriving DecidableEq, Repr

inductive UdpPc where
  | creating
  | binding
  | receiving
  | givingUp
  | stopped
  deriving DecidableEq, Repr

structure Others where
  wifi : Wifi
  handler : Thread HandlerPc
  scan : Thread ScanPc
  scanThreadRunning : Bool
  scanCount : Nat
  udp : Thread UdpPc
  udpBurstRunning : Bool
  udpRxPackets : Nat
  udpRxBytes : Nat
  deriving DecidableEq, Repr

inductive MainPc where
  | quieting
  | announcing
  | waiting
  | starting
  | asking (total : Nat)
  | sent (toRead total : Nat)
  | failed
  | draining
  | ending
  | finished
  deriving DecidableEq, Repr

structure MainThread where
  text : Bytes
  pc : MainPc
  deriving DecidableEq, Repr

inductive Phase where
  | before
  | opened
  | closed
  deriving DecidableEq, Repr

/-- Between the last byte of the start marker and the first byte of the end marker. -/
def MainThread.phase (main : MainThread) : Phase :=
  match main.pc with
  | .quieting => .before
  | .announcing => .before
  | .waiting => .before
  | .starting => if main.text = [] then .opened else .before
  | .asking _ => .opened
  | .sent _ _ => .opened
  | .failed => .opened
  | .draining => .opened
  | .ending => if main.text = endMarker then .opened else .closed
  | .finished => .closed

/-- `returned` collects what successful calls of `entropy_get_entropy` delivered and
`callFailed` notes a call that did not. -/
structure System where
  main : MainThread
  others : Others
  before : Bytes
  window : Bytes
  behind : Bytes
  returned : Bytes
  callFailed : Bool
  deriving DecidableEq, Repr

def System.console (system : System) : Bytes := system.before ++ system.window ++ system.behind

/-- `uart_poll_out` of another thread. -/
def System.put (system : System) (byte : UInt8) : System :=
  match system.main.phase with
  | .before => { system with before := system.before ++ [byte] }
  | .opened => { system with window := system.window ++ [byte] }
  | .closed => { system with behind := system.behind ++ [byte] }

/-! ## The other threads -/

/-- Whether a look at the flag comes after `wifi_set_event_logging(false)`. -/
def System.lateNow (system : System) : Bool := system.main.pc ≠ .quieting

def gated (wifi : Wifi) (text : Bytes) : Bytes := if wifi.eventLogging then text else []

def System.setOthers (system : System) (others : Others) : System := { system with others := others }

def stepHandler (system : System) (event : WifiEvent) : System :=
  let others := system.others
  match others.handler.text with
  | byte :: rest =>
      (system.put byte).setOthers { others with handler := { others.handler with text := rest } }
  | [] =>
      match others.handler.pc with
      | .idle =>
          system.setOthers { others with
            wifi := enterEvent others.wifi event
            handler := ⟨gated others.wifi (eventText others.wifi event), system.lateNow,
              .leaving event⟩ }
      | .leaving entered =>
          system.setOthers { others with
            wifi := leaveEvent others.wifi entered
            handler := ⟨[], false, .idle⟩ }

/-- The text of `wifi_trigger_scan`, which does not look at the flag. -/
def triggerText : ScanRequest → Bytes
  | .noInterface => asciiBytes "Failed to get Wi-Fi STA interface\n"
  | .refused => asciiBytes "Wi-Fi scan request failed\n"
  | .accepted => []

def stepScan (system : System) (request : ScanRequest) : System :=
  let others := system.others
  match others.scan.text with
  | byte :: rest =>
      (system.put byte).setOthers { others with scan := { others.scan with text := rest } }
  | [] =>
      match others.scan.pc with
      | .checking =>
          if others.scanThreadRunning then
            system.setOthers { others with scan := ⟨triggerText request, false, .counting⟩ }
          else system.setOthers { others with scan := ⟨[], false, .stopping⟩ }
      | .counting =>
          system.setOthers { others with
            scanCount := others.scanCount + 1
            scan := ⟨gated others.wifi (asciiBytes "[SCAN] Scan #" ++
                number (others.scanCount + 1) ++ asciiBytes " triggered\n"),
              system.lateNow, .sleeping⟩ }
      | .sleeping => system.setOthers { others with scan := ⟨[], false, .checking⟩ }
      | .stopping =>
          system.setOthers { others with
            scan := ⟨gated others.wifi (asciiBytes "[SCAN] Thread stopped after " ++
                number others.scanCount ++ asciiBytes " scans\n"),
              system.lateNow, .stopped⟩ }
      | .stopped => system

/-- `result` is what the socket call of the turn returns. -/
def stepUdp (build : Build) (system : System) (result : Int) : System :=
  let others := system.others
  match others.udp.text with
  | byte :: rest =>
      (system.put byte).setOthers { others with udp := { others.udp with text := rest } }
  | [] =>
      match others.udp.pc with
      | .creating =>
          if result < 0 then
            system.setOthers { others with
              udp := ⟨asciiBytes "[UDP_BURST] Socket creation failed: " ++ number result ++
                asciiBytes "\n", false, .givingUp⟩ }
          else system.setOthers { others with udp := ⟨[], false, .binding⟩ }
      | .binding =>
          if result < 0 then
            system.setOthers { others with
              udp := ⟨asciiBytes "[UDP_BURST] Bind failed on port " ++ number build.udpBurstPort ++
                asciiBytes "\n", false, .givingUp⟩ }
          else
            system.setOthers { others with
              udp := ⟨asciiBytes "[UDP_BURST] Listening on UDP/" ++ number build.udpBurstPort ++
                asciiBytes ", expected " ++ number build.udpBurstPayloadSize ++
                asciiBytes " B packets, byte=0x" ++ textBytes (hexText [build.udpBurstExpectByte]) ++
                asciiBytes "\n", false, .receiving⟩ }
      | .receiving =>
          if others.udpBurstRunning then
            if 0 < result then
              system.setOthers { others with
                udpRxPackets := (others.udpRxPackets + 1) % 2 ^ 32
                udpRxBytes := (others.udpRxBytes + result.toNat) % 2 ^ 64 }
            else system
          else
            system.setOthers { others with
              udp := ⟨asciiBytes "[UDP_BURST] Stopped (RX: " ++ number others.udpRxPackets ++
                asciiBytes " pkts, " ++ number others.udpRxBytes ++ asciiBytes " bytes)\n",
                false, .stopped⟩ }
      | .givingUp =>
          system.setOthers { others with
            udpBurstRunning := false
            udp := ⟨[], false, .stopped⟩ }
      | .stopped => system

/-! ## The dump -/

def chunkLimit : Nat := 256

/-- What the main thread meets in a turn: a byte at the console, and the return value
and buffer of `entropy_get_entropy`. -/
structure MainInput where
  polled : Option UInt8
  ret : Int
  content : Nat → UInt8

def readSize (total : Nat) : Nat := if total < chunkLimit then total else chunkLimit

def readChunk (input : MainInput) (total : Nat) : Bytes :=
  (List.range (readSize total)).map input.content

/-- `uart_poll_out` of the main thread. -/
def System.putMain (system : System) (byte : UInt8) (rest : Bytes) : System :=
  match system.main.pc with
  | .ending =>
      { system with
        main := { system.main with text := rest }
        behind := system.behind ++ [byte] }
  | .sent _ _ =>
      { system with
        main := { system.main with text := rest }
        window := system.window ++ [byte] }
  | .failed =>
      { system with
        main := { system.main with text := rest }
        window := system.window ++ [byte] }
  | .finished =>
      { system with
        main := { system.main with text := rest }
        behind := system.behind ++ [byte] }
  | _ =>
      { system with
        main := { system.main with text := rest }
        before := system.before ++ [byte] }

def System.setLogging (system : System) (build : Build) (enabled : Bool) : System :=
  if build.hasWifi then
    { system with
      others := { system.others with wifi := { system.others.wifi with eventLogging := enabled } } }
  else system

def System.setMain (system : System) (text : Bytes) (pc : MainPc) : System :=
  { system with main := ⟨text, pc⟩ }

def stepMain (build : Build) (system : System) (input : MainInput) : System :=
  match system.main.text with
  | byte :: rest => system.putMain byte rest
  | [] =>
      match system.main.pc with
      | .quieting => (system.setLogging build false).setMain [] .announcing
      | .announcing => system.setMain (dumpAnnouncement build) .waiting
      | .waiting =>
          if input.polled = some 0x47 then system.setMain startLine .starting else system
      | .starting => system.setMain [] (.asking build.trngRawDumpBytes.toNat)
      | .asking total =>
          if total = 0 then system.setMain [] .draining
          else if input.ret ≠ 0 then
            { system.setMain (dumpError input.ret) .failed with callFailed := true }
          else
            { system.setMain (readChunk input total) (.sent (readSize total) total) with
              returned := system.returned ++ readChunk input total }
      | .sent toRead total => system.setMain [] (.asking (total - toRead))
      | .failed => system.setMain [] .draining
      | .draining => system.setMain endMarker .ending
      | .ending => (system.setLogging build true).setMain benchFooter .finished
      | .finished => system

/-! ## Turns -/

inductive Turn where
  | main (input : MainInput)
  | handler (event : WifiEvent)
  | scan (request : ScanRequest)
  | udp (result : Int)

/-- A turn of a thread the build does not have changes nothing. -/
def step (build : Build) (system : System) : Turn → System
  | .main input => stepMain build system input
  | .handler event => if build.hasWifi then stepHandler system event else system
  | .scan request => if build.hasScanThread then stepScan system request else system
  | .udp result => if build.hasUdpThread then stepUdp build system result else system

def runTurns (build : Build) (system : System) (turns : List Turn) : System :=
  turns.foldl (step build) system

/-- The system when the dump is about to clear the flag. The other threads may be
anywhere, also in the middle of a text. -/
def dumpStart (others : Others) (console : Bytes) : System where
  main := ⟨[], .quieting⟩
  others := { others with
    handler := { others.handler with late := false }
    scan := { others.scan with late := false }
    udp := { others.udp with late := false } }
  before := console
  window := []
  behind := []
  returned := []
  callFailed := false

end BootEntropy.RawDump
