import BootEntropy.Lib.Checked
import BootEntropy.Lib.Text

/-!
# One renewal session

`dtls_request_entropy`, `maybe_mix_network_entropy` and `run_one_iteration`. A session
is a function of what wolfSSL, the entropy driver, the pool and the cycle counter
answered. It leaves the response buffer to the next session, the calls it made and the
lines it printed.
-/

namespace BootEntropy.Renewal

open BootEntropy.Lib

set_option autoImplicit false

def responseBufferSize : Nat := 768
def entropyPayloadMax : Nat := 256
def dtlsRequestBufferSize : Nat := 32

def wolfsslSuccess : Int := 1
def eIO : Int := 5
def eNOMEM : Int := 12
def eINVAL : Int := 22
def eNODATA : Int := 61
def eCONNABORTED : Int := 113

/-- The options of a build. `DTLS_ENTROPY_BYTES` is printed as an `int`. -/
structure Build where
  entropyBytes : Nat
  entropyBytesInt : entropyBytes < 2 ^ 31
  /-- `RENEWAL_ENABLE_NETWORK_INJECTION` -/
  networkInjection : Bool
  injectEvery : Int

/-! ## Surroundings -/

/-- One `wolfSSL_read`: its return value and the offered space when it returns. Whatever
it returns, it may have written all of that space. -/
structure ReadCall (space : Nat) where
  ret : Int
  within : ret ≤ space
  output : Block space

def ReadCall.stored {space : Nat} (call : ReadCall space) : Bytes :=
  call.output.val.take call.ret.toNat

structure RngStats where
  blockCalls : UInt64
  blockBytes : UInt64
  blockCycles : UInt64
  byteCalls : UInt64
  byteBytes : UInt64
  byteCycles : UInt64
  errors : UInt64
  deriving DecidableEq, Repr

structure PoolStats where
  timestampUs : UInt64
  totalHwBytes : UInt64
  totalExternalBytes : UInt64
  totalPoolDebitBytes : UInt64
  totalThreadGetBytes : UInt64
  totalIsrGetBytes : UInt64
  totalFastRefillBytes : UInt64
  creditedPoolBits : UInt32
  deriving DecidableEq, Repr

/-- What the calls of one session return. The calls behind `get_cycles` are numbered;
`callCycles` is the time from the end of the one before to the end of the call. -/
structure Session where
  ctxCreated : Bool
  /-- of `create_connected_udp_socket` -/
  fd : Int
  sslCreated : Bool
  /-- of `configure_dtls_session` -/
  configured : Int
  connectRet : Int
  writeRet : Text → Int
  read : Nat → (space : Nat) → ReadCall space
  sslError : Int
  addEntropy : Bytes → Nat → Int
  startCycles : Nat
  callCycles : Nat → Nat
  pre : PoolStats
  post : PoolStats
  rng : RngStats

/-! ## Cycle counter -/

/-- `k_cycle_get_32`, of the true number of cycles. -/
def getCycles (cycles : Nat) : UInt32 := UInt32.ofNat cycles

/-- `k_cyc_to_us_floor32` at 240 MHz -/
def cyclesToUs (start finish : UInt32) : UInt32 := (finish - start) / 240

/-! ## Console -/

/-- The columns of `[RENEWAL_ITER]`. -/
structure IterLine where
  iter : Int
  ret : Int
  elapsedUs : UInt32
  responseBytes : Nat
  acceptedNetBytes : Nat
  rngBlockCalls : UInt64
  rngBlockBytes : UInt64
  rngByteCalls : UInt64
  rngByteBytes : UInt64
  localHwBytes : UInt64
  externalBytes : UInt64
  poolDebitBytes : UInt64
  threadGetBytes : UInt64
  isrGetBytes : UInt64
  fastRefillBytes : UInt64
  poolCreditBitsPre : UInt32
  poolCreditBitsPost : UInt32
  rngBlockCycles : UInt64
  rngByteCycles : UInt64
  rngErrors : UInt64
  poolTimestampUsPre : UInt64
  poolTimestampUsPost : UInt64
  deriving DecidableEq, Repr

def IterLine.columns (line : IterLine) : List Text :=
  [signedDecimal line.iter, signedDecimal line.ret, decimal line.elapsedUs.toNat,
    decimal line.responseBytes, decimal line.acceptedNetBytes,
    decimal line.rngBlockCalls.toNat, decimal line.rngBlockBytes.toNat,
    decimal line.rngByteCalls.toNat, decimal line.rngByteBytes.toNat,
    decimal line.localHwBytes.toNat, decimal line.externalBytes.toNat,
    decimal line.poolDebitBytes.toNat, decimal line.threadGetBytes.toNat,
    decimal line.isrGetBytes.toNat, decimal line.fastRefillBytes.toNat,
    decimal line.poolCreditBitsPre.toNat, decimal line.poolCreditBitsPost.toNat,
    decimal line.rngBlockCycles.toNat, decimal line.rngByteCycles.toNat,
    decimal line.rngErrors.toNat, decimal line.poolTimestampUsPre.toNat,
    decimal line.poolTimestampUsPost.toNat]

inductive RenewalLine where
  | err (place : String) (value : Int)
  | emptyEntropyPayload (pass : Int)
  | iter (line : IterLine)
  deriving DecidableEq, Repr

def RenewalLine.text : RenewalLine → Text
  | .err place value => "[RENEWAL_ERR] ".toList ++ place.toList ++ ',' :: signedDecimal value
  | .emptyEntropyPayload pass =>
      "[RENEWAL_WARN] empty_entropy_payload,".toList ++ signedDecimal pass
  | .iter line => "[RENEWAL_ITER] ".toList ++ [','].intercalate line.columns

/-! ## Calls -/

inductive Call where
  | connect (ret : Int)
  | write (request : Text) (ret : Int)
  | read (offset space : Nat) (ret : Int) (stored : Bytes)
  | addEntropy (payload : Bytes) (creditBits : Nat) (ret : Int)
  deriving DecidableEq, Repr

/-- `response_data` and `response_data_len`, which outlive a session. -/
structure Response where
  responseData : Block responseBufferSize
  responseDataLen : Nat

structure Exchange extends Response where
  calls : List Call
  console : List RenewalLine

def Exchange.called (exchange : Exchange) (call : Call) : Exchange :=
  { exchange with calls := exchange.calls ++ [call] }

def Exchange.printed (exchange : Exchange) (line : RenewalLine) : Exchange :=
  { exchange with console := exchange.console ++ [line] }

/-! ## Request -/

/-- `snprintf` of the request. -/
def requestText (build : Build) : Text := "GET ".toList ++ decimal build.entropyBytes ++ ['\n']

/-- The loop around `wolfSSL_read`. A read that succeeds returns at least one byte. -/
def readLoop (build : Build) (session : Session) (exchange : Exchange) : Checked (Int × Exchange) :=
  if more : exchange.responseDataLen < build.entropyBytes ∧
      exchange.responseDataLen < responseBufferSize then
    let call := session.read exchange.calls.length (responseBufferSize - exchange.responseDataLen)
    match Cells.write exchange.responseData exchange.responseDataLen call.output.val with
    | .error fault => .error fault
    | .ok responseData =>
        let after := { exchange with responseData := responseData }.called
          (.read exchange.responseDataLen (responseBufferSize - exchange.responseDataLen)
            call.ret call.stored)
        if call.ret ≤ 0 then
          .ok (if 0 < exchange.responseDataLen then 0 else -eNODATA,
            after.printed (.err "wolfssl_read" session.sslError))
        else
          readLoop build session
            { after with responseDataLen := exchange.responseDataLen + call.ret.toNat }
  else .ok (0, exchange)
termination_by responseBufferSize - exchange.responseDataLen
decreasing_by
  have some : ¬(session.read exchange.calls.length
    (responseBufferSize - exchange.responseDataLen)).ret ≤ 0 := by assumption
  exact Nat.sub_lt_sub_left more.2 (by omega)

def dtlsRequestEntropy (build : Build) (session : Session) (exchange : Exchange) :
    Checked (Int × Exchange) :=
  let exchange := { exchange with
    responseDataLen := 0, responseData := zeroBlock responseBufferSize }.called
      (.connect session.connectRet)
  if session.connectRet ≠ wolfsslSuccess then
    .ok (-eCONNABORTED, exchange.printed (.err "wolfssl_connect" session.sslError))
  else
    let request := requestText build
    if request.length ≤ 0 ∨ dtlsRequestBufferSize ≤ request.length then .ok (-eINVAL, exchange)
    else
      let exchange := exchange.called (.write request (session.writeRet request))
      if session.writeRet request ≠ request.length then
        .ok (- eIO, exchange.printed (.err "wolfssl_write" session.sslError))
      else readLoop build session exchange

/-! ## Mixing -/

structure Mixed where
  ret : Int
  acceptedNetBytes : Nat
  exchange : Exchange

def maybeMixNetworkEntropy (build : Build) (session : Session) (iter : Int) (exchange : Exchange) :
    Checked Mixed :=
  if ¬build.networkInjection then .ok ⟨0, 0, exchange⟩
  else if build.injectEvery ≤ 0 ∨ iter.tmod build.injectEvery ≠ 0 then .ok ⟨0, 0, exchange⟩
  else
    let payloadLen := min (min exchange.responseDataLen build.entropyBytes) entropyPayloadMax
    if payloadLen = 0 then .ok ⟨-eNODATA, 0, exchange.printed (.emptyEntropyPayload iter)⟩
    else do
      let payload ← Cells.read exchange.responseData 0 payloadLen
      let ret := session.addEntropy payload (payloadLen * 8)
      return ⟨ret, if ret = 0 then payloadLen else 0,
        exchange.called (.addEntropy payload (payloadLen * 8) ret)⟩

def mixRequested (build : Build) (session : Session) (iter : Int) (requested : Int × Exchange) :
    Checked Mixed :=
  if requested.1 = 0 then maybeMixNetworkEntropy build session iter requested.2
  else .ok ⟨requested.1, 0, requested.2⟩

/-! ## Iteration -/

/-- The true number of cycles at the end of so many calls. -/
def Session.cyclesAfter (session : Session) (calls : Nat) : Nat :=
  session.startCycles + ((List.range calls).map session.callCycles).sum

def iterLine (session : Session) (iter : Int) (mixed : Mixed) : IterLine where
  iter := iter
  ret := mixed.ret
  elapsedUs := cyclesToUs (getCycles session.startCycles)
    (getCycles (session.cyclesAfter mixed.exchange.calls.length))
  responseBytes := mixed.exchange.responseDataLen
  acceptedNetBytes := mixed.acceptedNetBytes
  rngBlockCalls := session.rng.blockCalls
  rngBlockBytes := session.rng.blockBytes
  rngByteCalls := session.rng.byteCalls
  rngByteBytes := session.rng.byteBytes
  localHwBytes := session.post.totalHwBytes - session.pre.totalHwBytes
  externalBytes := session.post.totalExternalBytes - session.pre.totalExternalBytes
  poolDebitBytes := session.post.totalPoolDebitBytes - session.pre.totalPoolDebitBytes
  threadGetBytes := session.post.totalThreadGetBytes - session.pre.totalThreadGetBytes
  isrGetBytes := session.post.totalIsrGetBytes - session.pre.totalIsrGetBytes
  fastRefillBytes := session.post.totalFastRefillBytes - session.pre.totalFastRefillBytes
  poolCreditBitsPre := session.pre.creditedPoolBits
  poolCreditBitsPost := session.post.creditedPoolBits
  rngBlockCycles := session.rng.blockCycles
  rngByteCycles := session.rng.byteCycles
  rngErrors := session.rng.errors
  poolTimestampUsPre := session.pre.timestampUs
  poolTimestampUsPost := session.post.timestampUs

/-- The statements between the two readings of the counter, and the line behind them. -/
def measureSession (build : Build) (session : Session) (iter : Int) (measured : Bool)
    (exchange : Exchange) : Checked Mixed := do
  let requested ← dtlsRequestEntropy build session exchange
  let mixed ← mixRequested build session iter requested
  return if measured then
    { mixed with exchange := mixed.exchange.printed (.iter (iterLine session iter mixed)) }
  else mixed

def runOneIteration (build : Build) (session : Session) (iter : Int) (measured : Bool)
    (response : Response) : Checked Mixed :=
  let exchange : Exchange := { response with calls := [], console := [] }
  if ¬session.ctxCreated then .ok ⟨-eNOMEM, 0, exchange⟩
  else if session.fd < 0 then .ok ⟨session.fd, 0, exchange⟩
  else if ¬session.sslCreated then .ok ⟨-eNOMEM, 0, exchange⟩
  else if session.configured ≠ 0 then
    .ok ⟨session.configured, 0, exchange.printed (.err "wolfssl_config" session.configured)⟩
  else measureSession build session iter measured exchange

/-- One pass of a loop of `run_benchmark`. -/
structure Iteration where
  session : Session
  iter : Int
  measured : Bool

/-- The passes that `run_benchmark` gets to, one behind the other. -/
def runIterations (build : Build) : Response → List Iteration → Checked (List Mixed)
  | _, [] => .ok []
  | response, iteration :: rest => do
      let outcome ← runOneIteration build iteration.session iteration.iter iteration.measured response
      let outcomes ← runIterations build outcome.exchange.toResponse rest
      return outcome :: outcomes

end BootEntropy.Renewal
