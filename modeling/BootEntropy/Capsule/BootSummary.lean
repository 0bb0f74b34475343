import BootEntropy.Capsule.BootLog
import BootEntropy.Lib.Floats

/-!
# Boot summaries

`parse_server_log` and `summarize` of `parse_teb_boot_log.py`, and the table of
`compare_teb_boot_profiles.py`. A run of the scripts reads, for each of two profiles,
a boot log and a server log that may be absent.
-/

namespace BootEntropy.BootLog

open BootEntropy.Lib

set_option autoImplicit false

/-! ## Server log -/

def isAsciiDigit (c : Char) : Bool := '0' ≤ c && c ≤ '9'

/-- `.*key([0-9]+)` at the start: the digits behind the last place where the key has
some. -/
def lastDigits (key : String) (text : Text) : Option Text :=
  (text.tails.filterMap fun tail => do
    let rest ← behindTag key.toList tail
    let digits := rest.takeWhile isAsciiDigit
    if digits ≠ [] then some digits else none).getLast?

/-- `^\\[TEB_SERVER\\]\\s+served,.*key([0-9]+)` -/
def servedField (key : String) (line : Text) : Option Text := do
  let rest ← behindTag "[TEB_SERVER]".toList line
  let fields ← behindTag "served,".toList (rest.dropWhile isSpace)
  if rest.takeWhile isSpace ≠ [] then lastDigits key fields else none

/-- `float` of a run of digits. -/
def floatOfDigits (digits : Text) : Double :=
  Double.ofRat (digits.foldl (fun value c => 10 * value + (c.toNat - '0'.toNat)) 0 : Nat)

/-! ## Statistics -/

/-- A dictionary of `stats`; `none` is `None`. -/
structure Stats where
  n : Nat
  mean : Option Double
  median : Option Double
  min : Option Double
  max : Option Double
  std : Option Double
  deriving DecidableEq, Repr

def noStats : Stats := ⟨0, none, none, none, none, none⟩

structure ServerSummary where
  serverCapsulesServed : Nat
  serverSequences : List Nat
  serverGenerationUs : Stats

structure Summary where
  runsAttempted : Nat
  runsSeeded : Nat
  runsFailed : Nat
  profile : FieldValue
  /-- `none` is the empty dictionary. -/
  server : Option ServerSummary
  statistics : List (String × Stats)

def seededText : Text := "seeded".toList

def isSeeded (run : BootRun) : Bool := run "result".toList = some (.text seededText)

/-- `float(raw)`; `none` is a `ValueError`, which the caller passes over. -/
def floatOf : FieldValue → Except Raised (Option Double)
  | .text value => .ok (parseFloat value)
  | .int value => (divideInts value 1).map some
  | .quotient dividend divisor => .ok (some (Double.ofRat (dividend / divisor)))

def numericValues (runs : List BootRun) (key : String) : Except Raised (List Double) :=
  match runs with
  | [] => .ok []
  | run :: rest =>
      if isSeeded run then
        match run key.toList with
        | none => numericValues rest key
        | some raw => do
            let number ← floatOf raw
            let values ← numericValues rest key
            return number.toList ++ values
      else numericValues rest key

def statKeys : List String :=
  ["pre_wifi_ms", "wifi_association_ms", "dhcp_ms", "post_ipv4_settle_ms", "time_to_seed_ms",
    "capsule_exchange_ms", "capsule_wait_ms", "hello_send_us", "capsule_processing_us", "verify_us",
    "kem_decaps_us", "hkdf_us", "entropy_add_us", "capsule_input_bytes", "capsule_credit_bits",
    "credited_bits", "external_bytes", "hw_bytes", "heap_peak_after_capsule",
    "heap_used_after_capsule", "sram_one_rate", "sram_transition_rate", "timing_mean_delta"]

section Statistics

-- `sorted` and `statistics.pstdev` of floats; what they make of a NaN or an infinity
-- depends on the release.
variable (sorted : List Double → List Double) (pstdev : List Double → Except Raised Double)

/-- `statistics.median` -/
def median (values : List Double) : Double :=
  let data := sorted values
  let half := values.length / 2
  if values.length % 2 = 1 then data.getD half .nan
  else ((data.getD (half - 1) .nan).add (data.getD half .nan)).div (.finite 2)

/-- `pstdev(values) if len(values) > 1 else 0.0` -/
def deviation (values : List Double) : Except Raised Double :=
  if 1 < values.length then pstdev values else .ok (.finite 0)

def stats (values : List Double) : Except Raised Stats :=
  match values with
  | [] => .ok noStats
  | first :: rest => do
      let std ← deviation pstdev (first :: rest)
      return {
        n := (first :: rest).length
        mean := some (Double.mean (first :: rest))
        median := some (median sorted (first :: rest))
        min := some (Double.least first rest)
        max := some (Double.greatest first rest)
        std := some std }

/-- `int(digits)` of a matched sequence number. -/
def sequenceNumber (digits : Text) : Except Raised Nat :=
  match natural digits with
  | some value => .ok value
  | none => .error .valueError

/-- `none` for the path or the file is the empty dictionary. -/
def parseServerLog (log : Option Text) : Except Raised (Option ServerSummary) :=
  match log with
  | none => .ok none
  | some text => do
      let lines := (splitLines text).map strip
      let served := lines.filterMap (servedField "seq=")
      let sequences ← served.mapM sequenceNumber
      let times ← stats sorted pstdev ((lines.filterMap (servedField "server_us=")).map floatOfDigits)
      return some ⟨served.length, sequences, times⟩

/-- `ok[0].get("profile", runs[0].get("profile", "")) if runs else ""` -/
def summaryProfile (runs ok : List BootRun) : Except Raised FieldValue :=
  match runs, ok with
  | [], _ => .ok (.text [])
  | _ :: _, [] => .error .indexError
  | first :: _, seeded :: _ =>
      .ok (((seeded "profile".toList).or (first "profile".toList)).getD (.text []))

def summarize (runs : List BootRun) (server : Option ServerSummary) : Except Raised Summary := do
  let ok := runs.filter isSeeded
  let profile ← summaryProfile runs ok
  let statistics ← statKeys.mapM fun key => do
    let values ← numericValues runs key
    let entry ← stats sorted pstdev values
    return (key, entry)
  return {
    runsAttempted := runs.length
    runsSeeded := ok.length
    runsFailed := runs.length - ok.length
    profile := profile
    server := server
    statistics := statistics }

structure ProfileLogs where
  log : Text
  serverLog : Option Text

def buildProfile (logs : ProfileLogs) : Except Raised (List BootRun × Summary) := do
  let runs ← match parseLog logs.log with
    | some runs => .ok runs
    | none => .error .overflowError
  let server ← parseServerLog sorted pstdev logs.serverLog
  let summary ← summarize sorted pstdev runs server
  return (runs, summary)

end Statistics

/-! ## The table -/

/-- A number that is not finite has no `round`. -/
def fmt (number : Option Double) (digits : Nat) : Except Raised Text :=
  match number with
  | none => .ok "N/A".toList
  | some (.finite value) =>
      let rounded := roundEven value
      .ok (if isClose value rounded then fixedPoint 0 value else fixedPoint digits value)
  | some (.infinite _) => .error .overflowError
  | some .nan => .error .valueError

/-- `stat(summary, key)`; an absent entry counts as one without values. -/
def stat (summary : Summary) (key : String) : Stats := (summary.statistics.lookup key).getD noStats

def tableDigits : Nat := 1

def medianRange (summary : Summary) (key : String) (unit : String) : Except Raised Text :=
  let item := stat summary key
  if item.n = 0 then .ok "N/A".toList
  else do
    let middle ← fmt item.median tableDigits
    let lo ← fmt item.min tableDigits
    let hi ← fmt item.max tableDigits
    let range := if lo ≠ hi then " [".toList ++ lo ++ ", ".toList ++ hi ++ "]".toList else []
    return middle ++ range ++ ' ' :: unit.toList

def meanSd (summary : Summary) (key : String) (unit : String) : Except Raised Text :=
  let item := stat summary key
  if item.n = 0 then .ok "N/A".toList
  else do
    let center ← fmt item.mean tableDigits
    let spread ← fmt item.std tableDigits
    return center ++ " $\\pm$ ".toList ++ spread ++ ' ' :: unit.toList

def texEscape (text : Text) : Text := text.flatMap fun c => if c = '_' then ['\\', '_'] else [c]

def capsuleLen (summary : Summary) : Int :=
  if summary.profile = .text "pq-mlkem512-mldsa44".toList then pqCapsuleLen else ed25519CapsuleLen

/-- `summary['server']['server_capsules_served']` -/
def capsulesServed (summary : Summary) : Except Raised Nat :=
  match summary.server with
  | some server => .ok server.serverCapsulesServed
  | none => .error .keyError

def outOf (part whole : Nat) : Text := decimal part ++ " / ".toList ++ decimal whole

def helloAndCapsule (summary : Summary) : Text :=
  "88 B / ".toList ++ signedDecimal (capsuleLen summary) ++ " B".toList

def tableRow (label : String) (edValue pqValue : Text) : Text :=
  texEscape label.toList ++ " & ".toList ++ edValue ++ " & ".toList ++ pqValue ++ " \\\\".toList

def tableHead : String :=
  "\\begin\x7btabular\x7d\x7bp\x7b0.32\\linewidth\x7dp\x7b0.27\\linewidth\x7d" ++
  "p\x7b0.27\\linewidth\x7d\x7d\n\\toprule\n" ++
  "Metric & PUF + Ed25519 beacon & ML-KEM-512 + ML-DSA-44 \\\\\n\\midrule\n"

def tableFoot : String := "\n\\bottomrule\n\\end\x7btabular\x7d\n"

def microseconds : String := "\\si\x7b\\micro\\second\x7d"

/-- The text that `write_table` writes. -/
def writeTable (ed pq : Summary) : Except Raised Text := do
  let edMean ← meanSd ed "time_to_seed_ms" "ms"
  let pqMean ← meanSd pq "time_to_seed_ms" "ms"
  let edMedian ← medianRange ed "time_to_seed_ms" "ms"
  let pqMedian ← medianRange pq "time_to_seed_ms" "ms"
  let edVerify ← medianRange ed "verify_us" microseconds
  let pqVerify ← medianRange pq "verify_us" microseconds
  let pqDecaps ← medianRange pq "kem_decaps_us" microseconds
  let edHkdf ← medianRange ed "hkdf_us" microseconds
  let pqHkdf ← medianRange pq "hkdf_us" microseconds
  let edServed ← capsulesServed ed
  let pqServed ← capsulesServed pq
  let edHeap ← medianRange ed "heap_peak_after_capsule" "B"
  let pqHeap ← medianRange pq "heap_peak_after_capsule" "B"
  let edCredited ← medianRange ed "credited_bits" "bits"
  let pqCredited ← medianRange pq "credited_bits" "bits"
  let rows :=
    [tableRow "Seeded boots" (outOf ed.runsSeeded ed.runsAttempted)
        (outOf pq.runsSeeded pq.runsAttempted),
      tableRow "Time to first credited seed, mean" edMean pqMean,
      tableRow "Time to first credited seed, median" edMedian pqMedian,
      tableRow "Signature verify" edVerify pqVerify,
      tableRow "ML-KEM-512 decapsulation" "N/A".toList pqDecaps,
      tableRow "HKDF-SHA256" edHkdf pqHkdf,
      tableRow "BOOT_HELLO / capsule" (helloAndCapsule ed) (helloAndCapsule pq),
      tableRow "Server capsules" (outOf edServed ed.runsAttempted) (outOf pqServed pq.runsAttempted),
      tableRow "Heap peak after capsule" edHeap pqHeap,
      tableRow "Credited entropy" edCredited pqCredited]
  return tableHead.toList ++ List.intercalate ['\n'] rows ++ tableFoot.toList

end BootEntropy.BootLog
