import BootEntropy.Lib.Text
import BootEntropy.Capsule.Protocol

/-!
# Capsule client

`main.c`, `teb_crypto.c` and the retained boot counter. One run is a function of
`Environment`: what the network, wolfSSL, the entropy driver and the clocks
answered. A run leaves a `Trace` behind: the console lines it printed, the
`entropy_add_entropy` calls it made, and the secret buffers on its stack.
-/

namespace BootEntropy.Capsule

open BootEntropy.Lib

set_option autoImplicit false

/-! ## Console -/

inductive Tag where
  | tebMeta | tebMetric | tebNet | tebErr | tebPuf | tebPool | tebResult | tebSeedCommit
  deriving DecidableEq, Repr

def Tag.text : Tag → String
  | .tebMeta => "[TEB_META] "
  | .tebMetric => "[TEB_METRIC] "
  | .tebNet => "[TEB_NET] "
  | .tebErr => "[TEB_ERR] "
  | .tebPuf => "[TEB_PUF] "
  | .tebPool => "[TEB_POOL] "
  | .tebResult => "[TEB_RESULT] "
  | .tebSeedCommit => "[TEB_SEED_COMMIT] "

/-- The `printk` lines of `wifi.c`. -/
inductive WifiLine where
  | noInterface
  | connecting (attempt : Nat) (ssid : String)
  | connectionFailed (status : Int)
  | connected
  | disconnected
  | connectionTimeout
  | ipv4Ready (addr gw : String)
  | ipv4Timeout
  deriving DecidableEq, Repr

def WifiLine.text : WifiLine → String
  | .noInterface => "Failed to get Wi-Fi STA interface"
  | .connecting attempt ssid =>
      "Connecting to Wi-Fi (attempt " ++ toString attempt ++ "/5, ssid=" ++ ssid ++ ")"
  | .connectionFailed status => "Wi-Fi connection failed (" ++ toString status ++ ")"
  | .connected => "Wi-Fi connected"
  | .disconnected => "Wi-Fi disconnected"
  | .connectionTimeout => "Wi-Fi connection timeout"
  | .ipv4Ready addr gw => "IPv4 ready: addr=" ++ addr ++ " gw=" ++ gw
  | .ipv4Timeout => "IPv4 address timeout"

/-- A printed line. The fields of a tagged line are separated by commas. -/
inductive ConsoleLine where
  | banner (text : String)
  | wifi (line : WifiLine)
  | tagged (tag : Tag) (fields : List String)
  deriving DecidableEq, Repr

def ConsoleLine.text : ConsoleLine → String
  | .banner text => text
  | .wifi line => line.text
  | .tagged tag fields => tag.text ++ String.intercalate "," fields

def hexString (bytes : Bytes) : String := String.ofList (hexText bytes)

def readyLine : ConsoleLine := .tagged .tebMeta ["bootstrap_state", "capsule_ready"]
def seededLine : ConsoleLine := .tagged .tebResult ["seeded"]
def failedUnseededLine : ConsoleLine := .tagged .tebMeta ["bootstrap_state", "failed_unseeded"]

/-! ## Environment -/

/-- The return value of a socket call and the `errno` it leaves. A failing call
sets `errno` to a non-zero value. -/
structure SocketCall where
  ret : Int
  errno : Int
  errnoSet : ret < 0 → errno ≠ 0

/-- wolfSSL's answers inside one signature verification. `levelRet` is the extra
`wc_dilithium_set_level` step of the ML-DSA build. -/
structure VerifyCall where
  keyAllocated : Bool
  initRet : Int
  levelRet : Int
  importRet : Int
  verifyRet : Int
  verify : Int

structure DecapsCall where
  keyAllocated : Bool
  initRet : Int
  decodeRet : Int
  decapsulateRet : Int

structure PufSample where
  sramSecret : Block tebHashSize
  sramCommitment : Block tebHashSize
  timingSecret : Block tebHashSize
  timingCommitment : Block tebHashSize
  sramOnes : UInt32
  sramTransitions : UInt32
  timingMinDelta : UInt32
  timingMaxDelta : UInt32
  timingSumDelta : UInt64

structure RenewalStats where
  creditedPoolBits : UInt32
  totalExternalBytes : UInt64
  totalHwBytes : UInt64

/-- Free, allocated and peak bytes, when `CONFIG_SYS_HEAP_RUNTIME_STATS` is built
in and the query succeeds. -/
abbrev HeapStats := Option (Nat × Nat × Nat)

/-- Everything one run of the client takes from outside the modelled sources.
`uptime` and `cycle` give the reading of the two clocks at each call site, in
source order. -/
structure Environment (profile : Profile) where
  disableLocalRefill : Bool
  serverIp : String
  serverPort : Nat
  deviceId : UInt64
  deviceReady : Bool
  discardCreditRet : Int
  puf : PufSample
  uptime : Nat → UInt32
  cycle : Nat → UInt32
  cycToUs : UInt32 → UInt32
  heapBeforeWifi : HeapStats
  heapBeforeCapsule : HeapStats
  heapAfterCapsule : HeapStats
  wifiLines : List WifiLine
  wifiRet : Int
  dhcpLines : List WifiLine
  dhcpRet : Int
  ipv4Lines : List WifiLine
  ipv4Ret : Int
  inetPton : Int
  socket : SocketCall
  connect : SocketCall
  send : SocketCall
  poll : SocketCall
  recv : SocketCall
  /-- The receive buffer after the exchange. -/
  capsule : Block profile.capsuleLen
  sha256 : Bytes → Block tebHashSize
  shaHelloRet : Int
  shaCiphertextRet : Int
  gatewayPublicKey : Bytes
  verify : Bytes → Bytes → Bytes → VerifyCall
  decaps : Bytes → DecapsCall
  /-- What decapsulation of the received ciphertext writes. -/
  kemSharedSecret : Block tebMlkem512SharedSecretSize
  /-- What a failing `wc_MlKemKey_Decapsulate` leaves in its output, if it wrote there. -/
  kemLeftover : Option (Block tebMlkem512SharedSecretSize)
  hkdf : Bytes → Bytes → Bytes → Block tebBootSeedSize
  hkdfRet : Int
  /-- What a failing HKDF call leaves in its output, if it wrote there. -/
  hkdfLeftover : Option (Block tebBootSeedSize)
  addEntropyRet : Int
  snapshotRet : Int
  snapshot : RenewalStats

/-! ## Trace -/

/-- The secret buffers of `accept_capsule`; `none` before the first write. -/
structure SecretBuffers where
  ikm : Option Bytes
  pqSharedSecret : Option Bytes
  seed : Option Bytes

structure RetainedCounter where
  magic : UInt32
  value : UInt32
  check : UInt32
  deriving DecidableEq

structure Trace where
  console : List ConsoleLine
  /-- Arguments of every `entropy_add_entropy` call: the seed and its credit. -/
  injected : List (Bytes × Nat)
  buffers : SecretBuffers
  retained : RetainedCounter

def Trace.print (trace : Trace) (line : ConsoleLine) : Trace :=
  { trace with console := trace.console ++ [line] }

def Trace.printAll (trace : Trace) (lines : List ConsoleLine) : Trace :=
  { trace with console := trace.console ++ lines }

def Trace.inject (trace : Trace) (seed : Bytes) (creditBits : Nat) : Trace :=
  { trace with injected := trace.injected ++ [(seed, creditBits)] }

def errLine (key : String) (ret : Int) : ConsoleLine := .tagged .tebErr [key, toString ret]
def metricLine (key : String) (value : UInt32) : ConsoleLine :=
  .tagged .tebMetric [key, toString value.toNat]

/-! ## `teb_crypto.c` -/

def uint32Max : Nat := 2 ^ 32 - 1

/-- Return value of `teb_sha256`, given `wc_Sha256Hash`'s. -/
def tebSha256 (inLen : Nat) (wcRet : Int) : Int :=
  if uint32Max < inLen then -eMSGSIZE else wcRet

def tebHkdfSha256 (ikmLen saltLen infoLen outLen : Nat) (wcRet : Int) : Int :=
  if uint32Max < ikmLen ∨ uint32Max < saltLen ∨ uint32Max < infoLen ∨ uint32Max < outLen then
    -eMSGSIZE
  else wcRet

/-- The first non-zero code of a chain of `if (ret == 0) ret = …` steps. -/
def firstFailure : List Int → Int
  | [] => 0
  | ret :: later => if ret ≠ 0 then ret else firstFailure later

def tebVerifyEd25519 (msgLen : Nat) (call : VerifyCall) : Int :=
  if uint32Max < msgLen then -eMSGSIZE
  else if call.keyAllocated = false then -eNOMEM
  else
    let ret := firstFailure [call.initRet, call.importRet, call.verifyRet]
    if ret ≠ 0 then ret
    else if call.verify = 1 then 0 else -eACCES

def tebVerifyMldsa44 (msgLen : Nat) (call : VerifyCall) : Int :=
  if uint32Max < msgLen then -eMSGSIZE
  else if call.keyAllocated = false then -eNOMEM
  else
    let ret := firstFailure [call.initRet, call.levelRet, call.importRet, call.verifyRet]
    if ret ≠ 0 then ret
    else if call.verify = 1 then 0 else -eACCES

def tebMlkem512Decapsulate (call : DecapsCall) : Int :=
  if call.keyAllocated = false then -eNOMEM
  else firstFailure [call.initRet, call.decodeRet, call.decapsulateRet]

/-! ## `main.c` -/

def tebCounterMagic : UInt32 := 0x54454243

def tebCapsuleCreditBits : Nat := 128
def tebPostIpv4SettleMs : UInt32 := 1000

def nextBootCounter (retained : RetainedCounter) : UInt32 × RetainedCounter :=
  let value :=
    if retained.magic ≠ tebCounterMagic ∨ retained.check ≠ (retained.value ^^^ tebCounterMagic) then
      1
    else retained.value + 1
  (value, { magic := tebCounterMagic, value, check := value ^^^ tebCounterMagic })

def reportHeap (label : String) : HeapStats → List ConsoleLine
  | none => []
  | some (free, used, peak) =>
      [.tagged .tebMeta ["heap_free_" ++ label, toString free],
        .tagged .tebMeta ["heap_used_" ++ label, toString used],
        .tagged .tebMeta ["heap_peak_" ++ label, toString peak]]

/-- `info` passed to HKDF: `TEB-PUF-BEACON-v1` or `TEB-PQ-MLKEM512-MLDSA44-v1`. -/
def hkdfInfo : Profile → Bytes
  | .devEd25519PufBeacon =>
      [0x54, 0x45, 0x42, 0x2D, 0x50, 0x55, 0x46, 0x2D, 0x42, 0x45, 0x41, 0x43, 0x4F, 0x4E, 0x2D,
        0x76, 0x31]
  | .pqMlkem512Mldsa44 =>
      [0x54, 0x45, 0x42, 0x2D, 0x50, 0x51, 0x2D, 0x4D, 0x4C, 0x4B, 0x45, 0x4D, 0x35, 0x31, 0x32,
        0x2D, 0x4D, 0x4C, 0x44, 0x53, 0x41, 0x34, 0x34, 0x2D, 0x76, 0x31]

/-- The bytes hashed into `pq_ciphertext_hash`. -/
def sharedSecretSource (profile : Profile) (fields : CapsuleFields) : Bytes :=
  match profile with
  | .devEd25519PufBeacon => fields.beacon
  | .pqMlkem512Mldsa44 => fields.kemCiphertext.getD []

section Run

variable {profile : Profile} (env : Environment profile)

/-- Return value of `request_capsule` and the lines it prints. The received bytes
are `env.capsule`. -/
def requestCapsule : List ConsoleLine × Int :=
  if env.inetPton ≤ 0 then ([], -eINVAL)
  else if env.socket.ret < 0 then ([], -env.socket.errno)
  else
    let lines := [.tagged .tebNet ["connect", env.serverIp ++ ":" ++ toString env.serverPort]]
    if env.connect.ret < 0 then (lines, -env.connect.errno)
    else
      let lines := lines ++ [.tagged .tebNet ["send_hello", toString tebHelloLen]]
      if env.send.ret ≠ tebHelloLen then
        (lines, if env.send.ret < 0 then -env.send.errno else -eIo)
      else
        let lines := lines ++ [.tagged .tebNet ["recv_capsule_wait", toString profile.capsuleLen]]
        if env.poll.ret = 0 then (lines, -eTIMEDOUT)
        else if env.poll.ret < 0 then (lines, -env.poll.errno)
        else if env.recv.ret ≠ profile.capsuleLen then
          (lines, if env.recv.ret < 0 then -env.recv.errno else -eMSGSIZE)
        else
          -- uptime 7, 8, 9 are exchange start, wait start and receive end
          (lines ++
            [metricLine "capsule_exchange_ms" (env.uptime 9 - env.uptime 7),
              metricLine "hello_send_us" (env.cycToUs (env.cycle 1 - env.cycle 0)),
              metricLine "capsule_wait_ms" (env.uptime 9 - env.uptime 8)], 0)

/-- Return value of the signature check over the signed part of the capsule. -/
def verifySignature (capsule : Bytes) (fields : CapsuleFields) : Int :=
  let signed := capsule.take profile.capsuleSignedLen
  let call := env.verify env.gatewayPublicKey signed fields.signature
  match profile with
  | .devEd25519PufBeacon => tebVerifyEd25519 signed.length call
  | .pqMlkem512Mldsa44 => tebVerifyMldsa44 signed.length call

/-- The 32 bytes the profile takes from the capsule as `pq_shared_secret`. -/
def sharedSecret (fields : CapsuleFields) : Bytes :=
  match profile with
  | .devEd25519PufBeacon => fields.beacon
  | .pqMlkem512Mldsa44 => env.kemSharedSecret.val

/-- Return value of decapsulation; the beacon profile has no such step. -/
def decapsulateRet (fields : CapsuleFields) : Int :=
  match profile with
  | .devEd25519PufBeacon => 0
  | .pqMlkem512Mldsa44 => tebMlkem512Decapsulate (env.decaps (fields.kemCiphertext.getD []))

/-- What `pq_shared_secret` holds after the step that fills it; `none` when that
step never wrote to it. -/
def decapsulateWrite (fields : CapsuleFields) : Option Bytes :=
  match profile with
  | .devEd25519PufBeacon => some fields.beacon
  | .pqMlkem512Mldsa44 =>
      let call := env.decaps (fields.kemCiphertext.getD [])
      if call.keyAllocated = false ∨ call.initRet ≠ 0 ∨ call.decodeRet ≠ 0 then none
      else if call.decapsulateRet ≠ 0 then env.kemLeftover.map (·.val)
      else some env.kemSharedSecret.val

def decapsulateLines : List ConsoleLine :=
  match profile with
  | .devEd25519PufBeacon => []
  | .pqMlkem512Mldsa44 =>
      [metricLine "kem_decaps_us" (env.cycToUs (env.cycle 6 - env.cycle 5))]

def seedIkm (puf : PufSample) (fields : CapsuleFields) : Bytes :=
  puf.sramSecret.val ++ puf.timingSecret.val ++ sharedSecret env fields

def seedSalt (fields : CapsuleFields) : Bytes :=
  (env.sha256 (sharedSecretSource profile fields)).val ++ fields.helloHash

def derivedSeed (puf : PufSample) (fields : CapsuleFields) : Block tebBootSeedSize :=
  env.hkdf (seedIkm env puf fields) (seedSalt env fields) (hkdfInfo profile)

/-- What `seed` holds after `teb_hkdf_sha256`, given its return value. -/
def hkdfWrite (puf : PufSample) (fields : CapsuleFields) (hkdfRet : Int) : Option Bytes :=
  if hkdfRet ≠ 0 then env.hkdfLeftover.map (·.val) else some (derivedSeed env puf fields).val

def tebPrintHex (tag : Tag) (buf : Bytes) : ConsoleLine := .tagged tag [hexString buf]

/-- `accept_capsule` from the shared secret on: derivation, injection, report. -/
def deriveAndInject (puf : PufSample) (fields : CapsuleFields) (trace : Trace) : Trace × Int :=
  let trace := { trace with buffers := { trace.buffers with
    pqSharedSecret := decapsulateWrite env fields } }
  let trace := trace.printAll (decapsulateLines env)
  if decapsulateRet env fields ≠ 0 then
    (trace.print (errLine "mlkem_decaps" (decapsulateRet env fields)), decapsulateRet env fields)
  else
    let shaRet := tebSha256 (sharedSecretSource profile fields).length
      env.shaCiphertextRet
    if shaRet ≠ 0 then (trace, shaRet)
    else
      let ikm := seedIkm env puf fields
      let salt := seedSalt env fields
      let seed := (derivedSeed env puf fields).val
      let hkdfRet := tebHkdfSha256 ikm.length salt.length (hkdfInfo profile).length seed.length
        env.hkdfRet
      let trace := { trace with buffers := { trace.buffers with
        ikm := some ikm, seed := hkdfWrite env puf fields hkdfRet } }
      let trace := trace.print (metricLine "hkdf_us" (env.cycToUs (env.cycle 8 - env.cycle 7)))
      if hkdfRet ≠ 0 then (trace.print (errLine "hkdf" hkdfRet), hkdfRet)
      else
        let trace := trace.inject seed tebCapsuleCreditBits
        let trace := trace.print
          (metricLine "entropy_add_us" (env.cycToUs (env.cycle 10 - env.cycle 9)))
        if env.addEntropyRet ≠ 0 then
          (trace.print (errLine "entropy_add" env.addEntropyRet), env.addEntropyRet)
        else
          let trace := trace.printAll
            [.tagged .tebMeta ["capsule_input_bytes", toString seed.length],
              .tagged .tebMeta ["capsule_credit_bits", toString tebCapsuleCreditBits],
              .tagged .tebMeta ["gateway_time_ms", toString fields.gatewayTimeMs.toNat],
              .tagged .tebMeta ["gateway_sequence", toString fields.sequence.toNat],
              tebPrintHex .tebSeedCommit seed]
          ({ trace with buffers :=
              { ikm := some (List.replicate ikm.length 0)
                pqSharedSecret := some (List.replicate tebMlkem512SharedSecretSize 0)
                seed := some (List.replicate seed.length 0) } }, 0)

def acceptCapsule (hello : Bytes) (helloFields : HelloFields) (puf : PufSample) (capsule : Bytes)
    (trace : Trace) : Trace × Int :=
  match tebParseCapsule profile capsule with
  | .error ret => (trace.print (errLine "parse_capsule" ret), ret)
  | .ok fields =>
    if fields.profile ≠ profile.code then
      (trace.print (.tagged .tebErr ["profile", toString fields.profile.toNat]), -ePROTONOSUPPORT)
    else if fields.deviceId ≠ helloFields.deviceId ∨
        fields.bootCounter ≠ helloFields.bootCounter then
      (trace.print (.tagged .tebErr ["capsule_binding"]), -eACCES)
    else if tebSha256 hello.length env.shaHelloRet ≠ 0 then
      (trace, tebSha256 hello.length env.shaHelloRet)
    else if (env.sha256 hello).val ≠ fields.helloHash then
      (trace.print (.tagged .tebErr ["hello_hash_mismatch"]), -eACCES)
    else
      let trace := trace.print (metricLine "verify_us" (env.cycToUs (env.cycle 4 - env.cycle 3)))
      if verifySignature env capsule fields ≠ 0 then
        (trace.print (errLine "signature" (verifySignature env capsule fields)),
          verifySignature env capsule fields)
      else deriveAndInject env puf fields trace

/-- The hello of this boot; `uptime 1` is read when it is built. -/
def bootHello (bootCounter : UInt32) : HelloFields where
  deviceId := env.deviceId
  bootCounter := bootCounter
  uptimeMs := env.uptime 1
  sramCommitment := env.puf.sramCommitment
  timingCommitment := env.puf.timingCommitment

def pufLines : List ConsoleLine :=
  [.tagged .tebPuf ["sram_commitment", hexString env.puf.sramCommitment.val],
    .tagged .tebPuf ["timing_commitment", hexString env.puf.timingCommitment.val],
    .tagged .tebPuf ["sram_ones", toString env.puf.sramOnes.toNat],
    .tagged .tebPuf ["sram_transitions", toString env.puf.sramTransitions.toNat],
    .tagged .tebPuf ["timing_min_delta", toString env.puf.timingMinDelta.toNat],
    .tagged .tebPuf ["timing_max_delta", toString env.puf.timingMaxDelta.toNat],
    .tagged .tebPuf ["timing_sum_delta", toString env.puf.timingSumDelta.toNat]]

def poolLines : List ConsoleLine :=
  if env.snapshotRet = 0 then
    [.tagged .tebPool ["credited_bits", toString env.snapshot.creditedPoolBits.toNat],
      .tagged .tebPool ["external_bytes", toString env.snapshot.totalExternalBytes.toNat],
      .tagged .tebPool ["hw_bytes", toString env.snapshot.totalHwBytes.toNat]]
  else []

/-- `main` from `request_capsule` on. -/
def exchangeAndAccept (helloFields : HelloFields) (trace : Trace) : Trace × Int :=
  let hello := tebBuildHello profile helloFields
  let trace := trace.printAll (requestCapsule env).1
  let ret := (requestCapsule env).2
  if ret ≠ 0 then
    (trace.printAll [errLine "request_capsule" ret, failedUnseededLine], 1)
  else
    let accepted := acceptCapsule env hello helloFields env.puf env.capsule.val trace
    let trace := accepted.1.print
      (metricLine "capsule_processing_us" (env.cycToUs (env.cycle 11 - env.cycle 2)))
    if accepted.2 ≠ 0 then
      (trace.printAll [failedUnseededLine, .tagged .tebResult ["failed", toString accepted.2]], 1)
    else
      (trace.printAll ([metricLine "time_to_seed_ms" (env.uptime 10 - env.uptime 0), readyLine] ++
        poolLines env ++ reportHeap "after_capsule" env.heapAfterCapsule ++ [seededLine]), 0)

/-- `main` from the local refill switch to the network, up to `request_capsule`. -/
def joinNetwork (helloFields : HelloFields) (trace : Trace) : Trace × Int :=
  let trace := trace.printAll (env.wifiLines.map .wifi)
  let trace := trace.print (metricLine "wifi_association_ms" (env.uptime 4 - env.uptime 3))
  if env.wifiRet ≠ 0 then
    (trace.printAll [errLine "wifi" env.wifiRet, failedUnseededLine], 1)
  else
    let trace := trace.printAll (env.dhcpLines.map .wifi)
    if env.dhcpRet ≠ 0 then
      (trace.printAll [errLine "dhcp_start" env.dhcpRet, failedUnseededLine], 1)
    else
      let trace := trace.printAll (env.ipv4Lines.map .wifi)
      let trace := trace.print (metricLine "dhcp_ms" (env.uptime 6 - env.uptime 5))
      if env.ipv4Ret ≠ 0 then
        (trace.printAll [errLine "ipv4" env.ipv4Ret, failedUnseededLine], 1)
      else
        let trace := trace.print (metricLine "post_ipv4_settle_ms" tebPostIpv4SettleMs)
        let trace := trace.printAll (reportHeap "before_capsule" env.heapBeforeCapsule)
        let trace := trace.print (.tagged .tebMeta ["bootstrap_state", "waiting_capsule"])
        exchangeAndAccept env helloFields trace

def startTrace (retained : RetainedCounter) : Trace where
  console := []
  injected := []
  buffers := { ikm := none, pqSharedSecret := none, seed := none }
  retained := retained

def clientMain (retained : RetainedCounter) : Trace × Int :=
  let trace := (startTrace retained).printAll
    [.banner "", .banner "========================================",
      .banner "Asymmetric Entropy Capsule Bootstrap",
      .banner ("Profile: " ++ profile.name),
      .banner ("Server: " ++ env.serverIp ++ ":" ++ toString env.serverPort),
      .banner "========================================",
      .tagged .tebMeta ["bootstrap_state", "unseeded"]]
  if env.deviceReady = false then (trace.print (.tagged .tebErr ["entropy_not_ready"]), 1)
  else
    let counter := nextBootCounter retained
    let trace := { trace with retained := counter.2 }
    if env.disableLocalRefill = true ∧ env.discardCreditRet ≠ 0 then
      (trace.print (errLine "discard_local_credit" env.discardCreditRet), 1)
    else
      let trace := trace.printAll
        (if env.disableLocalRefill then
          [.tagged .tebMeta ["local_hw_refill", "disabled_after_init"],
            .tagged .tebMeta ["local_credit", "discarded_for_capsule_only_benchmark"]]
        else [.tagged .tebMeta ["local_hw_refill", "enabled"]])
      let helloFields := bootHello env counter.1
      let trace := trace.printAll (pufLines env ++
        [.tagged .tebMeta ["device_id", "0x" ++ String.ofList (Nat.toDigits 16 env.deviceId.toNat)],
          .tagged .tebMeta ["boot_counter", toString counter.1.toNat]] ++
        reportHeap "before_wifi" env.heapBeforeWifi ++
        [metricLine "pre_wifi_ms" (env.uptime 2 - env.uptime 0)])
      joinNetwork env helloFields trace

end Run

end BootEntropy.Capsule
