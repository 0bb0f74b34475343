import BootEntropy.Aeb.Codec
import BootEntropy.Aeb.ResultLine
import BootEntropy.Lib.Checked

/-!
# One trial

`run_trial`: the sampling of the entropy device around the arriving bursts, the hashes
over it, and the result line. Every access to `raw_buf` and `jitter_us` and every
division is checked. The cycle counter advances at 240 MHz; `k_cycle_get_32` is its
true value modulo `2^32`.
-/

namespace BootEntropy.Aeb

open BootEntropy.Lib

set_option autoImplicit false

def aebRecvBufLen : Nat := 512
def aebSeedLen : Nat := 32
def aebHashLen : Nat := 32
def eNOTSUP : Int := 134
def entropyReadMax : Nat := 64

def cyclesPerUs : UInt32 := 240

/-- `build.sh` rejects the sizes that are not positive. -/
structure TrialConfig extends Config where
  samplePositive : 0 < maxSampleBytes
  burstsPositive : 0 < maxBursts

/-! ## Surroundings -/

/-- One `zsock_poll`, the `zsock_recv` behind it, and the counter when the datagram
has been looked at. `none` is a negative return of `zsock_recv`. -/
structure Turn where
  ready : Int
  received : Option Bytes
  cycles : Nat

/-- What the calls of a trial return. The polls and the entropy reads are numbered. -/
structure TrialEnv where
  turns : Nat → Turn
  entropy : Nat → (len : Nat) → Filled len
  sampleStart : Nat
  sampleEnd : Nat
  sha256 : Bytes → Filled aebHashLen
  /-- `mbedtls_md_info_from_type` knows SHA-256. -/
  mdKnown : Bool
  /-- By salt, input key and info. -/
  hkdf : Bytes → Bytes → Bytes → Filled aebSeedLen

structure TrialEnv.Succeeds (env : TrialEnv) : Prop where
  entropy : ∀ call len, (env.entropy call len).ret = 0
  sha256 : ∀ data, (env.sha256 data).ret = 0
  mdKnown : env.mdKnown = true
  hkdf : ∀ salt key info, (env.hkdf salt key info).ret = 0

/-! ## Counters -/

def cyclesNow (cycles : Nat) : UInt32 := UInt32.ofNat cycles

/-- `k_cyc_to_us_floor32` of the difference -/
def cyclesToUs (start finish : UInt32) : UInt32 := (finish - start) / cyclesPerUs

/-! ## Sampling -/

/-- The arrays and counters of the loop. `calls` and `reads` keep account of the
entropy reads: how many there were, and the offset and size of each. -/
structure Sampling (cfg : Config) where
  rawBuf : Block cfg.maxSampleBytes
  jitterUs : Cells UInt32 cfg.maxBursts
  packetsSeen : Nat
  sampleUsed : Nat
  prevCycle : UInt32
  calls : Nat
  reads : List (Nat × Nat)

section Sampling

variable {cfg : Config} (env : TrialEnv)

/-- `entropy_read_exact` into `raw_buf[base]`. Each pass moves `off` forward, so `len`
passes are enough. -/
def entropyReadExactFrom (base len : Nat) : Nat → Nat → Sampling cfg → Except Halt (Sampling cfg)
  | 0, _, state => .ok state
  | passes + 1, off, state =>
      if off < len then do
        let chunk := if entropyReadMax < len - off then entropyReadMax else len - off
        let filled ← (env.entropy state.calls chunk).result
        let rawBuf ← (Cells.write state.rawBuf (base + off) filled.val).mapError .fault
        entropyReadExactFrom base len passes (off + chunk)
          { state with
            rawBuf := rawBuf
            calls := state.calls + 1
            reads := state.reads ++ [(base + off, chunk)] }
      else .ok state

def entropyReadExact (base len : Nat) (state : Sampling cfg) : Except Halt (Sampling cfg) :=
  entropyReadExactFrom env base len len 0 state

def requestedBytes (cfg : Config) (start : AebMsg) : Nat :=
  let requested := start.sampleBytes.toNat
  if requested = 0 ∨ cfg.maxSampleBytes < requested then cfg.maxSampleBytes else requested

def expectedPackets (cfg : Config) (start : AebMsg) : Nat :=
  let expected := start.seqOrCount.toNat
  if cfg.maxBursts < expected then cfg.maxBursts else expected

def perPacketBytes (requested expected : Nat) : Checked Nat := do
  let perPacket ← if expected = 0 then .ok requested else checkedDiv requested expected
  return if 0 < expected ∧ perPacket = 0 then 1 else perPacket

def acceptsBurst (start : AebMsg) (received : Bytes) : Bool :=
  match parseMsg (received.take aebRecvBufLen) with
  | .error _ => false
  | .ok burst => burst.type.toNat = aebTypeBurst && burst.trialId = start.trialId

def takeBurst (requested perPacket : Nat) (cycles : Nat) (state : Sampling cfg) :
    Except Halt (Sampling cfg) := do
  let now := cyclesNow cycles
  let jitterUs ← (Cells.write state.jitterUs state.packetsSeen
    [cyclesToUs state.prevCycle now]).mapError .fault
  let state := { state with jitterUs := jitterUs, prevCycle := now }
  let toRead :=
    if requested < u32 (state.sampleUsed + perPacket) then u32 (requested + 2 ^ 32 - state.sampleUsed)
    else perPacket
  let state ←
    if 0 < toRead then do
      let read ← entropyReadExact env state.sampleUsed toRead state
      pure { read with sampleUsed := u32 (read.sampleUsed + toRead) }
    else .ok state
  return { state with packetsSeen := u32 (state.packetsSeen + 1) }

/-- The loop with `left` passes to go. A pass waits for one datagram, whatever it is. -/
def burstLoop (start : AebMsg) (requested perPacket : Nat) :
    Nat → Nat → Sampling cfg → Except Halt (Sampling cfg)
  | 0, _, state => .ok state
  | left + 1, i, state =>
      if (env.turns i).ready ≤ 0 then .ok state
      else
        match (env.turns i).received with
        | none => .ok state
        | some received =>
            if acceptsBurst start received then do
              let next ← takeBurst env requested perPacket (env.turns i).cycles state
              burstLoop start requested perPacket left (i + 1) next
            else burstLoop start requested perPacket left (i + 1) state

/-- Both arms of `expected == 0`. -/
def sampleWindow (start : AebMsg) (requested expected perPacket : Nat) (state : Sampling cfg) :
    Except Halt (Sampling cfg) :=
  if expected = 0 then do
    let read ← entropyReadExact env 0 requested state
    return { read with sampleUsed := requested }
  else do
    let looped ← burstLoop env start requested perPacket expected 0 state
    if looped.sampleUsed < requested then do
      let read ← entropyReadExact env looped.sampleUsed
        (u32 (requested + 2 ^ 32 - looped.sampleUsed)) looped
      return { read with sampleUsed := requested }
    else .ok looped

end Sampling

/-! ## Result -/

structure JitterStats where
  minUs : UInt32
  meanUs : UInt32
  maxUs : UInt32
  deriving DecidableEq, Repr

def jitterStats (deltas : List UInt32) : Checked JitterStats :=
  match deltas with
  | [] => .ok ⟨0, 0, 0⟩
  | first :: rest => do
      let mean ← checkedDiv ((first :: rest).map UInt32.toNat).sum (first :: rest).length
      return ⟨rest.foldl min first, UInt32.ofNat mean, rest.foldl max first⟩

def bitsHighFirst (byte : UInt8) : List Bool := (List.range 8).reverse.map byte.toNat.testBit

def transitionsFrom : Option Bool → List Bool → Nat
  | _, [] => 0
  | none, bit :: bits => transitionsFrom (some bit) bits
  | some previous, bit :: bits =>
      (if bit ≠ previous then 1 else 0) + transitionsFrom (some bit) bits

def bitTransitions (bytes : Bytes) : Nat := transitionsFrom none (bytes.flatMap bitsHighFirst)

def deriveSeed (env : TrialEnv) (responseHash transcriptHash : Block aebHashLen) :
    Except Halt (Block aebSeedLen) :=
  if env.mdKnown then
    (env.hkdf transcriptHash.val responseHash.val (asciiBytes "rf-actuated-entropy-v1")).result
  else .error (.returned (-eNOTSUP))

/-- What `run_trial` leaves to its caller, and the line it printed. -/
structure TrialOutcome (cfg : Config) where
  sampling : Sampling cfg
  rawLen : Nat
  jitterCount : Nat
  result : TrialResult
  seed : Block aebSeedLen

section Run

variable {cfg : Config}

/-- `memset` of the two static arrays; `raw_buf` is cleared as far as it is used. -/
def clearedSampling (env : TrialEnv) (requested : Nat) (rawBuf : Block cfg.maxSampleBytes) :
    Checked (Sampling cfg) := do
  let cleared ← Cells.write rawBuf 0 (List.replicate requested 0)
  return {
    rawBuf := cleared
    jitterUs := Cells.fill cfg.maxBursts 0
    packetsSeen := 0
    sampleUsed := 0
    prevCycle := cyclesNow env.sampleStart
    calls := 0
    reads := [] }

/-- The statements behind `sample_end`. -/
def finishTrial (env : TrialEnv) (start : ParsedMsg) (transcriptHash : Block aebHashLen)
    (requested expected : Nat) (state : Sampling cfg) : Except Halt (TrialOutcome cfg) := do
  let raw ← (Cells.read state.rawBuf 0 requested).mapError .fault
  let deltas ← (Cells.read state.jitterUs 0 state.packetsSeen).mapError .fault
  let rawHash ← (env.sha256 raw).result
  let jitterHash ← (env.sha256 (packDeltas deltas)).result
  let responseHash ← (env.sha256 (raw ++ packDeltas deltas)).result
  let seed ← deriveSeed env responseHash transcriptHash
  let seedHash ← (env.sha256 seed.val).result
  let stats ← (jitterStats deltas).mapError .fault
  return {
    sampling := state
    rawLen := requested
    jitterCount := state.packetsSeen
    seed := seed
    result := {
      trialId := start.trialId
      idle := expected = 0
      nonce := start.nonce
      sampleBytes := UInt32.ofNat requested
      packetsExpected := UInt32.ofNat expected
      packetsSeen := UInt32.ofNat state.packetsSeen
      intervalUs := start.intervalUs
      sampleUs := cyclesToUs (cyclesNow env.sampleStart) (cyclesNow env.sampleEnd)
      ones := UInt64.ofNat (raw.map bitCount).sum
      transitions := UInt64.ofNat (bitTransitions raw)
      jitterMinUs := stats.minUs
      jitterMeanUs := stats.meanUs
      jitterMaxUs := stats.maxUs
      rawSha256 := rawHash
      jitterSha256 := jitterHash
      responseSha256 := responseHash
      seedSha256 := seedHash } }

def runTrial (env : TrialEnv) (start : ParsedMsg) (rawBuf : Block cfg.maxSampleBytes) :
    Except Halt (TrialOutcome cfg) := do
  let requested := requestedBytes cfg start.toAebMsg
  let expected := expectedPackets cfg start.toAebMsg
  let cleared ← (clearedSampling env requested rawBuf).mapError .fault
  let perPacket ← (perPacketBytes requested expected).mapError .fault
  let transcriptHash ← (env.sha256 start.header.val).result
  let sampled ← sampleWindow env start.toAebMsg requested expected perPacket cleared
  finishTrial env start transcriptHash requested expected sampled

end Run

end BootEntropy.Aeb
