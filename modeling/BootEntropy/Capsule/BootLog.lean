import BootEntropy.Lib.Lines
import BootEntropy.Lib.Numerals
import BootEntropy.Lib.Tokens
import Mathlib.Data.List.Infix

/-!
# Boot log parser

`parse_teb_boot_log.py`: the line patterns, one run of the log, and `parse_log` over the
lines of a file.
-/

namespace BootEntropy.BootLog

open BootEntropy.Lib

set_option autoImplicit false

/-! ## Patterns -/

def behindTag (tag line : Text) : Option Text :=
  if tag.isPrefixOf line then some (line.drop tag.length) else none

/-- `^tag\s+([^,]+),(.+)$`. When a comma follows the blanks, the pattern takes the last of
two or more blanks for the key. -/
def keyedEntry (tag : String) (line : Text) : Option (Text × Text) := do
  let rest ← behindTag tag.toList line
  let blank := rest.takeWhile isSpace
  let body := rest.dropWhile isSpace
  let body := if body.head? = some ',' ∧ 2 ≤ blank.length then
    blank.getLast?.toList ++ body else body
  let entry ← splitOnce ',' body
  if blank ≠ [] ∧ entry.1 ≠ [] ∧ entry.2 ≠ [] then some entry else none

/-- `^tag\s+(.+)$` of a line that does not end in a blank. -/
def taggedRest (tag : String) (line : Text) : Option Text := do
  let rest ← behindTag tag.toList line
  let body := rest.dropWhile isSpace
  if rest.takeWhile isSpace ≠ [] ∧ body ≠ [] then some body else none

def isAddressChar (c : Char) : Bool := ('0' ≤ c ∧ c ≤ '9') ∨ c = '.'

/-- `IPv4 ready: addr=([0-9.]+) gw=([0-9.]+)` at the start. -/
def addressAt (text : Text) : Option (Text × Text) := do
  let rest ← behindTag "IPv4 ready: addr=".toList text
  let gatewayRest ← behindTag " gw=".toList (rest.dropWhile isAddressChar)
  let addr := rest.takeWhile isAddressChar
  let gateway := gatewayRest.takeWhile isAddressChar
  if addr ≠ [] ∧ gateway ≠ [] then some (addr, gateway) else none

def addressSearch (line : Text) : Option (Text × Text) := line.tails.findSome? addressAt

/-! ### What they match -/

theorem behind_tag_append (tag rest : Text) : behindTag tag (tag ++ rest) = some rest := by
  have begins : tag.isPrefixOf (tag ++ rest) = true :=
    List.isPrefixOf_iff_prefix.mpr (List.prefix_append tag rest)
  rw [behindTag, if_pos begins, List.drop_left]

theorem behind_tag_none {tag line : Text} (apart : ¬tag <+: line) : behindTag tag line = none :=
  if_neg fun begins => apart (List.isPrefixOf_iff_prefix.mp begins)

theorem keyed_entry_none {tag : String} {line : Text} (apart : ¬tag.toList <+: line) :
    keyedEntry tag line = none := by
  rw [keyedEntry, behind_tag_none apart]
  rfl

theorem tagged_rest_none {tag : String} {line : Text} (apart : ¬tag.toList <+: line) :
    taggedRest tag line = none := by
  rw [taggedRest, behind_tag_none apart]
  rfl

section Blank

variable {body : Text} {c : Char}

theorem take_one_blank (head : body.head? = some c) (solid : isSpace c = false) :
    (' ' :: body).takeWhile isSpace = [' '] ∧ (' ' :: body).dropWhile isSpace = body := by
  have blank : isSpace ' ' = true := by decide
  cases body with
  | nil => cases head
  | cons d body =>
      cases head
      rw [List.takeWhile_cons_of_pos blank, List.dropWhile_cons_of_pos blank,
        List.takeWhile_cons_of_neg (by simp [solid]), List.dropWhile_cons_of_neg (by simp [solid])]
      exact ⟨rfl, rfl⟩

theorem tagged_rest_eq (tag : String) (head : body.head? = some c) (solid : isSpace c = false) :
    taggedRest tag (tag.toList ++ ' ' :: body) = some body := by
  obtain ⟨blank, rest⟩ := take_one_blank head solid
  have filled : body ≠ [] := by
    rintro rfl
    cases head
  rw [taggedRest, behind_tag_append]
  dsimp only [Option.bind_eq_bind, Option.bind_some]
  rw [blank, rest, if_pos ⟨List.cons_ne_nil _ _, filled⟩]

end Blank

theorem keyed_entry_eq (tag : String) {key value : Text} {c : Char} (head : key.head? = some c)
    (solid : isSpace c = false) (plain : ',' ∉ key) (filled : value ≠ []) :
    keyedEntry tag (tag.toList ++ ' ' :: (key ++ ',' :: value)) = some (key, value) := by
  have first : (key ++ ',' :: value).head? = some c := by
    cases key with
    | nil => cases head
    | cons d key => exact head
  obtain ⟨blank, rest⟩ := take_one_blank first solid
  have keyed : key ≠ [] := by
    rintro rfl
    cases head
  have noComma : ¬(some c = some ',' ∧ 2 ≤ [' '].length) := by
    rintro ⟨_, two⟩
    exact absurd two (by decide)
  have cut : splitOnce ',' (key ++ ',' :: value) = some (key, value) :=
    split_once_separator value plain
  rw [keyedEntry, behind_tag_append]
  dsimp only [Option.bind_eq_bind, Option.bind_some]
  rw [blank, rest, first, if_neg noComma, cut]
  exact if_pos ⟨List.cons_ne_nil _ _, keyed, filled⟩

theorem address_at_none {text : Text} (apart : ¬"IPv4 ready: addr=".toList <+: text) :
    addressAt text = none := by
  rw [addressAt, behind_tag_none apart]
  rfl

/-- A line without one of the characters of the pattern. -/
theorem address_search_none {line : Text} {c : Char} (needed : c ∈ "IPv4 ready: addr=".toList)
    (absent : c ∉ line) : addressSearch line = none := by
  rw [addressSearch, List.findSome?_eq_none_iff]
  intro tail member
  apply address_at_none
  intro begins
  exact absent (((List.mem_tails tail line).mp member).subset (begins.subset needed))

theorem address_search_eq {addr gateway : Text} (addrPlain : ∀ c ∈ addr, isAddressChar c = true)
    (addrSome : addr ≠ []) (gatewayPlain : ∀ c ∈ gateway, isAddressChar c = true)
    (gatewaySome : gateway ≠ []) :
    addressSearch ("IPv4 ready: addr=".toList ++ (addr ++ (" gw=".toList ++ gateway))) =
      some (addr, gateway) := by
  have blank : ¬isAddressChar ' ' = true := by decide
  have spaced : " gw=".toList = ' ' :: "gw=".toList := by decide
  have front : (addr ++ (" gw=".toList ++ gateway)).takeWhile isAddressChar = addr := by
    rw [List.takeWhile_append_of_pos addrPlain, spaced, List.cons_append,
      List.takeWhile_cons_of_neg blank, List.append_nil]
  have back : (addr ++ (" gw=".toList ++ gateway)).dropWhile isAddressChar =
      " gw=".toList ++ gateway := by
    rw [List.dropWhile_append_of_pos addrPlain, spaced, List.cons_append,
      List.dropWhile_cons_of_neg blank]
  have last : gateway.takeWhile isAddressChar = gateway := List.takeWhile_eq_self_iff.mpr gatewayPlain
  have here : addressAt ("IPv4 ready: addr=".toList ++ (addr ++ (" gw=".toList ++ gateway))) =
      some (addr, gateway) := by
    rw [addressAt, behind_tag_append]
    dsimp only [Option.bind_eq_bind, Option.bind_some]
    rw [front, back, behind_tag_append]
    dsimp only [Option.bind_some]
    rw [last]
    exact if_pos ⟨addrSome, gatewaySome⟩
  generalize "IPv4 ready: addr=".toList ++ (addr ++ (" gw=".toList ++ gateway)) = line at here
  cases line with
  | nil => exact here
  | cons c rest =>
      rw [addressSearch, List.tails, List.findSome?_cons, here]

def bannerText : Text := "Asymmetric Entropy Capsule Bootstrap".toList

/-- What a stripped line says, whatever run it stands in. -/
inductive Entry where
  | banner
  | fields (entries : List (Text × Text))
  | result (value : Text)
  deriving DecidableEq, Repr

def keyTags : List String := ["[TEB_META]", "[TEB_METRIC]", "[TEB_POOL]", "[TEB_PUF]"]

def readEntry (line : Text) : Entry :=
  if line = bannerText then .banner
  else
    match keyTags.findSome? fun tag => keyedEntry tag line with
    | some entry => .fields [entry]
    | none =>
        match taggedRest "[TEB_RESULT]" line with
        | some value => .result value
        | none =>
            match taggedRest "[TEB_ERR]" line with
            | some error => .fields [("error".toList, error), ("result".toList, "failed".toList)]
            | none =>
                match addressSearch line with
                | some (addr, gateway) =>
                    .fields [("ipv4_addr".toList, addr), ("ipv4_gateway".toList, gateway)]
                | none =>
                    match taggedRest "Profile:" line with
                    | some profile => .fields [("profile".toList, profile)]
                    | none => .fields []

/-! ## One run -/

/-- A value of the dictionary. The quotient stands for the float nearest to it. -/
inductive FieldValue where
  | text (value : Text)
  | int (value : Int)
  | quotient (dividend : Int) (divisor : Nat)
  deriving DecidableEq, Repr

abbrev BootRun := Text → Option FieldValue

def BootRun.set (run : BootRun) (key : Text) (value : FieldValue) : BootRun :=
  fun other => if other = key then some value else run other

def BootRun.setDefault (run : BootRun) (key : Text) (value : FieldValue) : BootRun :=
  if run key = none then run.set key value else run

def BootRun.setTexts (run : BootRun) (entries : List (Text × Text)) : BootRun :=
  entries.foldl (fun run entry => run.set entry.1 (.text entry.2)) run

def startRun (number : Nat) : BootRun :=
  BootRun.set (fun _ => none) "run".toList (.int number)

/-- `parse_int`. The string of a float is no integer literal. -/
def fieldInt : Option FieldValue → Option Int
  | none => none
  | some (.text value) => parseLiteral value
  | some (.int value) => some value
  | some (.quotient _ _) => none

def pqCapsuleLen : Int := 3252
def ed25519CapsuleLen : Int := 160

def capsuleRxBytes (run : BootRun) : Int :=
  if run "profile".toList = some (.text "pq-mlkem512-mldsa44".toList) then pqCapsuleLen
  else ed25519CapsuleLen

/-- `dividend / divisor`; `none` is the `OverflowError` of a quotient that rounds to `2^1024`
or more. -/
def trueDivide (dividend : Int) (divisor : Nat) : Option FieldValue :=
  if dividend.natAbs < (2 ^ 1024 - 2 ^ 970) * divisor then some (.quotient dividend divisor)
  else none

/-- `run[key] = parse_int(run.get(source)) / divisor` if that is an integer. -/
def BootRun.setQuotient (run : BootRun) (source key : String) (divisor : Nat) : Option BootRun :=
  match fieldInt (run source.toList) with
  | some dividend => (trueDivide dividend divisor).map (run.set key.toList)
  | none => some run

def setDefaults (run : BootRun) : BootRun :=
  let run := run.setDefault "hello_tx_bytes".toList (.int 88)
  let run := run.setDefault "capsule_rx_bytes".toList (.int (capsuleRxBytes run))
  let run := run.setDefault "application_datagrams".toList (.int 2)
  run.setDefault "result".toList (.text "incomplete".toList)

/-- `none` is an `OverflowError`. -/
def finalizeRun (run : BootRun) : Option BootRun := do
  let run ← (setDefaults run).setQuotient "sram_ones" "sram_one_rate" (4096 * 8)
  let run ← run.setQuotient "sram_transitions" "sram_transition_rate" (4096 * 8 - 1)
  run.setQuotient "timing_sum_delta" "timing_mean_delta" 512

/-! ## The log -/

/-- `current` is `none` for the empty dictionary. -/
structure LogState where
  runs : List BootRun
  current : Option BootRun

def LogState.closed (state : LogState) : Option (List BootRun) :=
  match state.current with
  | none => some state.runs
  | some run => (finalizeRun run).map fun final => state.runs ++ [final]

def enterLine (state : LogState) (raw : Text) : Option LogState :=
  match readEntry (strip raw), state.current with
  | .banner, _ => state.closed.map fun runs => ⟨runs, some (startRun (runs.length + 1))⟩
  | .fields entries, current => some ⟨state.runs, current.map (·.setTexts entries)⟩
  | .result _, none => some state
  | .result value, some run =>
      (finalizeRun (run.setTexts [("result".toList, value)])).map fun final =>
        ⟨state.runs ++ [final], none⟩

/-- `parse_log` of a file with this text; `none` is an `OverflowError`. -/
def parseLog (text : Text) : Option (List BootRun) :=
  (splitLines text).foldlM enterLine ⟨[], none⟩ >>= LogState.closed

end BootEntropy.BootLog
