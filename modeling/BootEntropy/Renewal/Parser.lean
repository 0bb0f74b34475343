import BootEntropy.Capsule.BootLog
import BootEntropy.Lib.Double
import BootEntropy.Lib.Records

/-!
# Renewal log parser

`parse_renewal_log.py`: the columns of an iteration row, `parse_log`,
`add_derived_fields` and `summarize`.
-/

namespace BootEntropy.Renewal

open BootEntropy.Lib
open BootEntropy.BootLog (behindTag)

set_option autoImplicit false

/-! ## Columns -/

/-- The names in `FIELDS`. -/
inductive Field where
  | iter
  | ret
  | elapsedUs
  | responseBytes
  | acceptedNetBytes
  | rngBlockCalls
  | rngBlockBytes
  | rngByteCalls
  | rngByteBytes
  | localHwBytes
  | externalBytes
  | poolDebitBytes
  | threadGetBytes
  | isrGetBytes
  | fastRefillBytes
  | poolCreditBitsPre
  | poolCreditBitsPost
  | rngBlockCycles
  | rngByteCycles
  | rngErrors
  | poolTimestampUsPre
  | poolTimestampUsPost
  deriving DecidableEq, Repr

def Field.name : Field → String
  | .iter => "iter"
  | .ret => "ret"
  | .elapsedUs => "elapsed_us"
  | .responseBytes => "response_bytes"
  | .acceptedNetBytes => "accepted_net_bytes"
  | .rngBlockCalls => "rng_block_calls"
  | .rngBlockBytes => "rng_block_bytes"
  | .rngByteCalls => "rng_byte_calls"
  | .rngByteBytes => "rng_byte_bytes"
  | .localHwBytes => "local_hw_bytes"
  | .externalBytes => "external_bytes"
  | .poolDebitBytes => "pool_debit_bytes"
  | .threadGetBytes => "thread_get_bytes"
  | .isrGetBytes => "isr_get_bytes"
  | .fastRefillBytes => "fast_refill_bytes"
  | .poolCreditBitsPre => "pool_credit_bits_pre"
  | .poolCreditBitsPost => "pool_credit_bits_post"
  | .rngBlockCycles => "rng_block_cycles"
  | .rngByteCycles => "rng_byte_cycles"
  | .rngErrors => "rng_errors"
  | .poolTimestampUsPre => "pool_timestamp_us_pre"
  | .poolTimestampUsPost => "pool_timestamp_us_post"

def baseFields : List Field :=
  [.iter, .ret, .elapsedUs, .responseBytes, .acceptedNetBytes, .rngBlockCalls, .rngBlockBytes,
    .rngByteCalls, .rngByteBytes, .localHwBytes, .externalBytes, .poolDebitBytes, .threadGetBytes,
    .isrGetBytes, .fastRefillBytes, .poolCreditBitsPre, .poolCreditBitsPost]

def extraFieldsV2 : List Field :=
  [.rngBlockCycles, .rngByteCycles, .rngErrors, .poolTimestampUsPre, .poolTimestampUsPost]

def fields : List Field := baseFields ++ extraFieldsV2

abbrev Row := Field → Int

/-- The values under their names, and zero for the other names. -/
def readRow (names : List Field) (values : List Int) : Row :=
  fun field => ((names.zip values).lookup field).getD 0

/-! ## Lines -/

inductive Reading where
  | entry (key value : Text)
  | row (names : List Field) (columns : List Text)
  | malformed (payload : Text)
  | warning (text : Text)
  | error (text : Text)
  | nothing
  deriving DecidableEq, Repr

def metaTag : Text := "[RENEWAL_META] ".toList
def iterTag : Text := "[RENEWAL_ITER] ".toList
def warnTag : Text := "[RENEWAL_WARN] ".toList
def errTag : Text := "[RENEWAL_ERR] ".toList

def readPayload (payload : Text) : Reading :=
  let parts := payload.splitOn ','
  if parts.length = baseFields.length then .row baseFields parts
  else if parts.length = fields.length then .row fields parts
  else .malformed payload

def readLine (line : Text) : Reading :=
  match behindTag metaTag line with
  | some payload =>
      match splitOnce ',' payload with
      | some (key, value) => .entry key value
      | none => .nothing
  | none =>
      match behindTag iterTag line with
      | some payload => readPayload payload
      | none =>
          match behindTag warnTag line with
          | some text => .warning text
          | none =>
              match behindTag errTag line with
              | some text => .error text
              | none => .nothing

/-! ## The log -/

structure Parsed where
  metadata : Entries
  rows : List Row
  warnings : List Text
  errors : List Text

def malformedWarning (payload : Text) : Text := "malformed_iter_row:".toList ++ payload

def enterReading (parsed : Parsed) : Reading → Except Raised Parsed
  | .entry key value => .ok { parsed with metadata := parsed.metadata.insert key value }
  | .row names columns =>
      match columns.mapM parseInt with
      | some values => .ok { parsed with rows := parsed.rows ++ [readRow names values] }
      | none => .error .valueError
  | .malformed payload => .ok { parsed with warnings := parsed.warnings ++ [malformedWarning payload] }
  | .warning text => .ok { parsed with warnings := parsed.warnings ++ [text] }
  | .error text => .ok { parsed with errors := parsed.errors ++ [text] }
  | .nothing => .ok parsed

def enterLine (parsed : Parsed) (raw : Text) : Except Raised Parsed :=
  enterReading parsed (readLine (strip raw))

/-- `int(meta.get("inter_handshake_ms", "0"))` -/
def interHandshakeMs (metadata : Entries) : Except Raised Int :=
  match parseInt ((metadata.lookup "inter_handshake_ms".toList).getD "0".toList) with
  | some value => .ok value
  | none => .error .valueError

structure Item where
  row : Row
  rngOutputBytes : Int
  supplyBytes : Int
  poolCreditDeltaBits : Int
  outMinusSupplyBytes : Int
  iterationActiveS : Double
  iterationWallS : Double
  cumulativeWallS : Double

def deriveItem (row : Row) (activeS wallS cumulativeWallS : Double) : Item where
  row := row
  rngOutputBytes := row .rngBlockBytes + row .rngByteBytes
  supplyBytes := row .localHwBytes + row .externalBytes
  poolCreditDeltaBits := row .poolCreditBitsPost - row .poolCreditBitsPre
  outMinusSupplyBytes := row .poolDebitBytes - (row .localHwBytes + row .externalBytes)
  iterationActiveS := activeS
  iterationWallS := wallS
  cumulativeWallS := cumulativeWallS

def deriveRows (interMs : Int) : Double → List Row → Except Raised (List Item)
  | _, [] => .ok []
  | cumulativeWallS, row :: rest => do
      let activeS ← divideInts (row .elapsedUs) 1000000
      let pauseS ← divideInts interMs 1000
      let wallS := activeS.add pauseS
      let items ← deriveRows interMs (cumulativeWallS.add wallS) rest
      return deriveItem row activeS wallS (cumulativeWallS.add wallS) :: items

def addDerivedFields (metadata : Entries) (rows : List Row) : Except Raised (List Item) := do
  let interMs ← interHandshakeMs metadata
  deriveRows interMs (.finite 0) rows

structure Log where
  metadata : Entries
  items : List Item
  warnings : List Text
  errors : List Text

/-- `parse_log` of a file with this text. -/
def parseLog (text : Text) : Except Raised Log := do
  let parsed ← (splitLines text).foldlM enterLine ⟨∅, [], [], []⟩
  let items ← addDerivedFields parsed.metadata parsed.rows
  return ⟨parsed.metadata, items, parsed.warnings, parsed.errors⟩

/-! ## Summary -/

structure Rates where
  muRngOutputBytesMean : Number
  muRngOutputBytesMedian : Number
  muRngOutputBytesStd : Double
  rngOutputBytesTotal : Int
  poolDebitBytesTotal : Int
  localHwBytesTotal : Int
  externalBytesTotal : Int
  supplyBytesTotal : Int
  acceptedNetworkBytesTotal : Int
  elapsedSActive : Double
  elapsedSWall : Double
  handshakeRateActiveHz : Option Double
  handshakeRateWallHz : Option Double
  lambdaOutActiveBps : Option Double
  lambdaOutWallBps : Option Double
  lambdaLocalWallBps : Option Double
  lambdaNetWallBps : Option Double
  lambdaSupplyWallBps : Option Double
  renewalMarginWallBps : Option Double
  renewalSupplyToOutRatio : Option Double
  drbgExpansionFactor : Option Double
  poolCreditBitsStart : Int
  poolCreditBitsEnd : Int
  poolCreditDeltaBits : Int
  rngErrorsTotal : Int

structure Summary where
  iterationsLogged : Nat
  iterationsOk : Nat
  iterationsFailed : Int
  metadata : Entries
  warnings : List Text
  errors : List Text
  /-- What is added when an iteration succeeded. -/
  rates : Option Rates

/-- `amount / elapsed if elapsed else None` -/
def perSecond (amount : Int) (elapsed : Double) : Except Raised (Option Double) :=
  if elapsed.Truthy then do
    let amount ← divideInts amount 1
    return some (amount.div elapsed)
  else .ok none

def countPerSecond (count : Nat) (elapsed : Double) : Option Double :=
  if elapsed.Truthy then some ((Double.ofRat count).div elapsed) else none

/-- `part / whole if whole else None` -/
def ratio (part whole : Int) : Except Raised (Option Double) :=
  if whole ≠ 0 then do
    let quotient ← divideInts part whole
    return some quotient
  else .ok none

def total (field : Field) (items : List Item) : Int := (items.map fun item => item.row field).sum

def rngBytes (items : List Item) : List Int := items.map (·.rngOutputBytes)

section Summarize

-- `statistics.pstdev` of integers; which of them overflow depends on the release.
variable (pstdev : List Int → Except Raised Double)

/-- `pstdev(rng_bytes) if len(rng_bytes) > 1 else 0.0` -/
def deviation (values : List Int) : Except Raised Double :=
  if 1 < values.length then pstdev values else .ok (.finite 0)

def summarizeOk (interMs : Int) (first last : Row) (ok : List Item) : Except Raised Rates := do
  let elapsedSActive ← divideInts (total .elapsedUs ok) 1000000
  let pauseS ← divideInts (ok.length * interMs) 1000
  let elapsedSWall := elapsedSActive.add pauseS
  let poolDebit := total .poolDebitBytes ok
  let localHw := total .localHwBytes ok
  let external := total .externalBytes ok
  let supply := localHw + external
  let muMean ← meanInts (rngBytes ok)
  let muMedian ← medianInts (rngBytes ok)
  let muStd ← deviation pstdev (rngBytes ok)
  let lambdaOutActive ← perSecond poolDebit elapsedSActive
  let lambdaOutWall ← perSecond poolDebit elapsedSWall
  let lambdaLocalWall ← perSecond localHw elapsedSWall
  let lambdaNetWall ← perSecond external elapsedSWall
  let lambdaSupplyWall ← perSecond supply elapsedSWall
  let renewalMarginWall ← perSecond (supply - poolDebit) elapsedSWall
  let renewalSupplyToOut ← ratio supply poolDebit
  let drbgExpansion ← ratio (rngBytes ok).sum poolDebit
  return {
    muRngOutputBytesMean := muMean
    muRngOutputBytesMedian := muMedian
    muRngOutputBytesStd := muStd
    rngOutputBytesTotal := (rngBytes ok).sum
    poolDebitBytesTotal := poolDebit
    localHwBytesTotal := localHw
    externalBytesTotal := external
    supplyBytesTotal := supply
    acceptedNetworkBytesTotal := total .acceptedNetBytes ok
    elapsedSActive := elapsedSActive
    elapsedSWall := elapsedSWall
    handshakeRateActiveHz := countPerSecond ok.length elapsedSActive
    handshakeRateWallHz := countPerSecond ok.length elapsedSWall
    lambdaOutActiveBps := lambdaOutActive
    lambdaOutWallBps := lambdaOutWall
    lambdaLocalWallBps := lambdaLocalWall
    lambdaNetWallBps := lambdaNetWall
    lambdaSupplyWallBps := lambdaSupplyWall
    renewalMarginWallBps := renewalMarginWall
    renewalSupplyToOutRatio := renewalSupplyToOut
    drbgExpansionFactor := drbgExpansion
    poolCreditBitsStart := first .poolCreditBitsPre
    poolCreditBitsEnd := last .poolCreditBitsPost
    poolCreditDeltaBits := last .poolCreditBitsPost - first .poolCreditBitsPre
    rngErrorsTotal := total .rngErrors ok }

def okItems (items : List Item) : List Item := items.filter fun item => item.row .ret = 0

def summarize (log : Log) : Except Raised Summary := do
  let ok := okItems log.items
  let interMs ← interHandshakeMs log.metadata
  let summary : Summary := {
    iterationsLogged := log.items.length
    iterationsOk := ok.length
    iterationsFailed := log.items.length - ok.length
    metadata := log.metadata
    warnings := log.warnings
    errors := log.errors
    rates := none }
  match ok.head?, ok.getLast? with
  | some first, some last => do
      let rates ← summarizeOk pstdev interMs first.row last.row ok
      return { summary with rates := some rates }
  | _, _ => return summary

end Summarize

end BootEntropy.Renewal
