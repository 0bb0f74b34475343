import BootEntropy.Lib.Run
import BootEntropy.RawDump.Console

/-!
# Results of `connect_to_wifi`

The polling loops of `wait_for_wifi_connection` and `wifi_wait_for_ipv4` in the attempts
of `connect_to_wifi`, while event handlers change what they poll. A step of the run is one
segment of the code up to a place where events can come in, behind the events that came in
there.
-/

namespace BootEntropy.RawDump

open BootEntropy.Lib

set_option autoImplicit false

/-! ## `wifi.c` -/

def eNODEV : Int := 19
def eTIMEDOUT : Int := 116

def wifiConnectionTimeoutMs : Nat := 20000
def wifiConnectionAttempts : Nat := 5
def wifiDhcpTimeoutMs : Nat := 20000

def maxTimeoutCount : Nat := wifiConnectionTimeoutMs / 100

inductive AddrType where
  | any
  | autoconf
  | dhcp
  | manual
  | overridable
  deriving DecidableEq, Repr

inductive AddrFamily where
  | unspec
  | inet
  | inet6
  deriving DecidableEq, Repr

structure IfAddr where
  isUsed : Bool
  addrType : AddrType
  family : AddrFamily
  deriving DecidableEq, Repr

/-- `iface->config.ip.ipv4` with its slots for addresses -/
structure NetIf where
  ipv4 : Option (List IfAddr)
  deriving DecidableEq, Repr

def wifiHasIpv4 (iface : Option NetIf) : Bool :=
  match iface.bind NetIf.ipv4 with
  | none => false
  | some unicast => unicast.any fun ifaddr =>
      !(!ifaddr.isUsed || ifaddr.addrType = .any || ifaddr.family ≠ .inet)

/-- The static variables of `wifi.c` and the interface of the station, if there is one. -/
structure Link where
  wifi : Wifi
  iface : Option NetIf
  deriving DecidableEq, Repr

/-- A management event, or a change of the addresses by the network stack. -/
inductive LinkEvent where
  | wifi (event : WifiEvent)
  | addresses (iface : Option NetIf)
  deriving DecidableEq, Repr

def Link.handle (link : Link) : LinkEvent → Link
  | .wifi event => { link with wifi := leaveEvent (enterEvent link.wifi event) event }
  | .addresses iface => { link with iface := iface }

inductive Place where
  /-- The call itself. -/
  | calling
  /-- The top of the loop over the attempts. -/
  | attempting
  /-- `net_mgmt` with the request to connect. -/
  | requesting
  /-- The first look at `wifi_connected`. -/
  | polling
  /-- `k_sleep(K_MSEC(100))` -/
  | sleeping (timeoutCount : Nat)
  /-- The condition of the loop in `wifi_wait_for_ipv4`, behind `k_sleep(K_MSEC(250))`. -/
  | leasing (waitedMs : Nat)
  /-- The look at the addresses behind that loop. -/
  | checking
  /-- `wifi_print_ipv4` and the return of zero. -/
  | printing
  /-- `wifi_disconnect` behind a failed attempt. -/
  | disconnecting
  /-- `k_sleep(K_MSEC(WIFI_RETRY_DELAY_MS))` -/
  | retrying
  | returned
  deriving DecidableEq, Repr

/-- A return value with what `wifi_connected` and the addresses are at that moment. -/
inductive Returned where
  | waited (ret : Int) (connected : Bool)
  | connect (ret : Int) (connected hasIpv4 : Bool)
  deriving DecidableEq, Repr

/-- `returns` keeps account of the returns, and `since` of the events since
`wifi_connected` was read last. -/
structure Connecting where
  link : Link
  attempt : Nat
  lastRet : Int
  place : Place
  since : List LinkEvent
  returns : List Returned
  deriving DecidableEq, Repr

/-- The events at a place, and what `net_mgmt` returns to the request made behind them. -/
structure Gap where
  events : List LinkEvent
  ret : Int
  deriving DecidableEq, Repr

namespace Connecting

def meet (call : Connecting) (events : List LinkEvent) : Connecting :=
  { call with link := events.foldl Link.handle call.link, since := call.since ++ events }

/-- An attempt that failed with `ret`. -/
def fail (call : Connecting) (ret : Int) : Connecting :=
  { call with lastRet := ret, place := .disconnecting }

def waitReturns (call : Connecting) (ret : Int) : Connecting :=
  { call with returns := call.returns ++ [.waited ret call.link.wifi.connected] }

def connectReturns (call : Connecting) (ret : Int) : Next Connecting Int :=
  .stop { call with
    place := .returned
    returns := call.returns ++ [.connect ret call.link.wifi.connected (wifiHasIpv4 call.link.iface)] } ret

/-- `while (!wifi_connected)` -/
def poll (call : Connecting) (timeoutCount : Nat) : Connecting :=
  if call.link.wifi.connected then
    { call.waitReturns 0 with place := .leasing 0, since := [] }
  else { call with place := .sleeping timeoutCount, since := [] }

def setWifi (call : Connecting) (wifi : Wifi) : Connecting :=
  { call with link := { call.link with wifi := wifi } }

/-- The segment behind a place, with what `net_mgmt` returns. -/
def segment (call : Connecting) (ret : Int) : Next Connecting Int :=
  match call.place with
  | .calling =>
      if call.link.iface = none then call.connectReturns (-eNODEV)
      else .go { call with place := .attempting }
  | .attempting =>
      .go { call.setWifi { call.link.wifi with connected := false, connecting := true } with
        place := .requesting }
  | .requesting =>
      if ret < 0 then .go ((call.setWifi { call.link.wifi with connecting := false }).fail ret)
      else .go { call with place := .polling }
  | .polling => .go (call.poll 0)
  | .sleeping timeoutCount =>
      if maxTimeoutCount ≤ timeoutCount + 1 then
        .go ((call.waitReturns (-eTIMEDOUT)).fail (-eTIMEDOUT))
      else .go (call.poll (timeoutCount + 1))
  | .leasing waitedMs =>
      if !wifiHasIpv4 call.link.iface && waitedMs < wifiDhcpTimeoutMs then
        .go { call with place := .leasing (waitedMs + 250) }
      else .go { call with place := .checking }
  | .checking =>
      if !wifiHasIpv4 call.link.iface then .go (call.fail (-eTIMEDOUT))
      else .go { call with place := .printing }
  | .printing => call.connectReturns 0
  | .disconnecting =>
      if call.link.iface = none then .go { call with place := .retrying }
      else
        .go { call.setWifi { call.link.wifi with disconnecting := ret = 0 } with place := .retrying }
  | .retrying =>
      if call.attempt + 1 ≤ wifiConnectionAttempts then
        .go { call with attempt := call.attempt + 1, place := .attempting }
      else call.connectReturns call.lastRet
  | .returned => .stop call call.lastRet

def step (call : Connecting) (gap : Gap) : Next Connecting Int :=
  (call.meet gap.events).segment gap.ret

/-- `connect_to_wifi()` with any state of the station. -/
def start (link : Link) : Connecting := ⟨link, 1, -eTIMEDOUT, .calling, [], []⟩

end Connecting

/-! ## What events change -/

def linkChange : LinkEvent → Option Bool
  | .wifi (.connectResult status) => if status = 0 then some true else none
  | .wifi (.disconnectResult _) => some false
  | _ => none

def ifaceChange : LinkEvent → Option (Option NetIf)
  | .wifi _ => none
  | .addresses iface => some iface

/-- What the last event that changes `wifi_connected` makes of it. -/
def lastLink (events : List LinkEvent) : Option Bool := (events.filterMap linkChange).getLast?

def lastIface (events : List LinkEvent) : Option (Option NetIf) :=
  (events.filterMap ifaceChange).getLast?

theorem handle_connected (link : Link) (event : LinkEvent) :
    (link.handle event).wifi.connected = (linkChange event).getD link.wifi.connected := by
  cases event with
  | addresses iface => rfl
  | wifi event =>
      cases event with
      | scanResult entry => rfl
      | scanDone status => rfl
      | disconnectResult status => rfl
      | connectResult status =>
          by_cases good : status = 0
          · simp [Link.handle, enterEvent, leaveEvent, linkChange, good]
          · simp [Link.handle, enterEvent, leaveEvent, linkChange, good]

theorem handle_iface (link : Link) (event : LinkEvent) :
    (link.handle event).iface = (ifaceChange event).getD link.iface := by
  cases event <;> rfl

theorem last_link_append (front rest : List LinkEvent) (before : Bool) :
    (lastLink rest).getD ((lastLink front).getD before) = (lastLink (front ++ rest)).getD before := by
  rw [lastLink, lastLink, lastLink, List.filterMap_append, List.getLast?_append]
  cases (rest.filterMap linkChange).getLast? <;> rfl

namespace Connecting

theorem meet_connected (call : Connecting) (events : List LinkEvent) :
    (call.meet events).link.wifi.connected = (lastLink events).getD call.link.wifi.connected :=
  @foldl_last_change _ _ _ Link.handle (fun link => link.wifi.connected) linkChange handle_connected
    events call.link

theorem meet_iface (call : Connecting) (events : List LinkEvent) :
    (call.meet events).link.iface = (lastIface events).getD call.link.iface :=
  foldl_last_change handle_iface events call.link

/-! ## Invariant -/

def lastRead : Place → Option Bool
  | .sleeping _ => some false
  | .leasing _ | .checking | .printing => some true
  | _ => none

/-- The flag is what was read last and what events have made of it since. -/
def Tracked (call : Connecting) : Prop :=
  ∀ value ∈ lastRead call.place, call.link.wifi.connected = (lastLink call.since).getD value

structure Sound (call : Connecting) : Prop where
  failing : call.lastRet ≠ 0
  tracked : call.Tracked
  leased : call.place = .printing → wifiHasIpv4 call.link.iface = true

theorem start_sound (link : Link) : (start link).Sound where
  failing := show -eTIMEDOUT ≠ 0 by decide
  tracked := fun _ member => nomatch member
  leased := fun place => nomatch place

theorem Tracked.meet {call : Connecting} (tracked : call.Tracked) (events : List LinkEvent) :
    (call.meet events).Tracked := by
  intro value read
  rw [meet_connected, tracked value read, last_link_append]
  rfl

theorem poll_sound {call : Connecting} (failing : call.lastRet ≠ 0) (timeoutCount : Nat) :
    (call.poll timeoutCount).Sound := by
  rw [poll]
  split_ifs with up
  · refine ⟨failing, ?_, fun place => nomatch place⟩
    rintro value ⟨⟩
    exact up
  · refine ⟨failing, ?_, fun place => nomatch place⟩
    rintro value ⟨⟩
    exact eq_false_of_ne_true up

theorem untracked_sound {call : Connecting} (failing : call.lastRet ≠ 0)
    (unread : lastRead call.place = none) : call.Sound where
  failing := failing
  tracked := by
    intro value read
    rw [unread] at read
    cases read
  leased := by
    intro place
    rw [place] at unread
    cases unread

theorem connected_sound {call : Connecting} {here next : Place} (failing : call.lastRet ≠ 0)
    (tracked : call.Tracked) (place : call.place = here) (before : lastRead here = some true)
    (behind : lastRead next = some true)
    (leased : next = .printing → wifiHasIpv4 call.link.iface = true) :
    ({ call with place := next } : Connecting).Sound where
  failing := failing
  tracked := by
    intro value read
    rw [behind] at read
    apply tracked value
    rw [place, before]
    exact read
  leased := leased

theorem segment_sound {call : Connecting} (failing : call.lastRet ≠ 0) (tracked : call.Tracked)
    (ret : Int) : (call.segment ret).state.Sound := by
  rw [segment]
  cases place : call.place with
  | calling =>
      dsimp only
      split_ifs
      · exact untracked_sound failing rfl
      · exact untracked_sound failing rfl
  | attempting => exact untracked_sound failing rfl
  | requesting =>
      dsimp only
      split_ifs with refused
      · exact untracked_sound (Int.ne_of_lt refused) rfl
      · exact untracked_sound failing rfl
  | polling => exact poll_sound failing 0
  | sleeping timeoutCount =>
      dsimp only
      split_ifs
      · exact untracked_sound (show -eTIMEDOUT ≠ 0 by decide) rfl
      · exact poll_sound failing (timeoutCount + 1)
  | leasing waitedMs =>
      dsimp only
      split_ifs
      · exact connected_sound failing tracked place rfl rfl Place.noConfusion
      · exact connected_sound failing tracked place rfl rfl Place.noConfusion
  | checking =>
      dsimp only
      split_ifs with none
      · exact untracked_sound (show -eTIMEDOUT ≠ 0 by decide) rfl
      · have leased : wifiHasIpv4 call.link.iface = true := by simpa using none
        exact connected_sound failing tracked place rfl rfl fun _ => leased
  | printing => exact untracked_sound failing rfl
  | disconnecting =>
      dsimp only
      split_ifs
      · exact untracked_sound failing rfl
      · exact untracked_sound failing rfl
  | retrying =>
      dsimp only
      split_ifs
      · exact untracked_sound failing rfl
      · exact untracked_sound failing rfl
  | returned => exact untracked_sound failing (congrArg lastRead place)

theorem step_sound {call : Connecting} (sound : call.Sound) (gap : Gap) :
    (call.step gap).state.Sound :=
  @segment_sound (call.meet gap.events) sound.failing (sound.tracked.meet gap.events) gap.ret

/-! ## Returns -/

end Connecting

/-- The flag is up and there is an address where zero is returned, and a wait that times out
leaves the flag down. -/
def Returned.Faithful : Returned → Prop
  | .waited ret connected => ret = -eTIMEDOUT → connected = false
  | .connect ret connected hasIpv4 => ret = 0 → connected = true ∧ hasIpv4 = true

instance : (returned : Returned) → Decidable returned.Faithful
  | .waited _ _ => inferInstanceAs (Decidable (_ → _))
  | .connect _ _ _ => inferInstanceAs (Decidable (_ → _))

namespace Connecting

def Faithful (call : Connecting) : Prop := ∀ returned ∈ call.returns, returned.Faithful

/-- No connection comes in the last sleep of a wait without a disconnection behind it; and
from the look that saw the connection to the return of zero no disconnection comes without a
connection behind it, and behind the last look at the addresses none of them is lost. -/
def Steady (call : Connecting) (gap : Gap) : Prop :=
  match call.place with
  | .sleeping timeoutCount =>
      maxTimeoutCount ≤ timeoutCount + 1 → lastLink (call.since ++ gap.events) ≠ some true
  | .printing =>
      lastLink (call.since ++ gap.events) ≠ some false ∧
        ∀ iface ∈ lastIface gap.events, wifiHasIpv4 iface = true
  | _ => True

theorem faithful_snoc {call other : Connecting} {returned : Returned}
    (returns : other.returns = call.returns ++ [returned]) :
    other.Faithful ↔ call.Faithful ∧ returned.Faithful := by
  rw [Faithful, returns, List.forall_mem_append, List.forall_mem_singleton]
  rfl

theorem poll_faithful (call : Connecting) (timeoutCount : Nat) :
    (call.poll timeoutCount).Faithful ↔ call.Faithful := by
  have zero : (Returned.waited 0 call.link.wifi.connected).Faithful :=
    fun timedOut => absurd timedOut (by decide)
  rw [poll]
  split_ifs
  · exact (faithful_snoc rfl).trans (and_iff_left zero)
  · exact Iff.rfl

/-- A return that is not zero says nothing. -/
theorem connect_returns_faithful (call : Connecting) {ret : Int} (failed : ret ≠ 0) :
    (call.connectReturns ret).state.Faithful ↔ call.Faithful := by
  have empty : (Returned.connect ret call.link.wifi.connected
      (wifiHasIpv4 call.link.iface)).Faithful := fun zero => absurd zero failed
  exact (faithful_snoc rfl).trans (and_iff_left empty)

theorem wait_returns_faithful (call : Connecting) :
    (call.waitReturns (-eTIMEDOUT)).Faithful ↔
      call.Faithful ∧ call.link.wifi.connected = false :=
  (faithful_snoc rfl).trans (and_congr_right fun _ => ⟨fun down => down rfl, fun down _ => down⟩)

theorem printing_faithful (call : Connecting) :
    (call.connectReturns 0).state.Faithful ↔ call.Faithful ∧
      call.link.wifi.connected = true ∧ wifiHasIpv4 call.link.iface = true :=
  (faithful_snoc rfl).trans (and_congr_right fun _ => ⟨fun good => good rfl, fun good _ => good⟩)

theorem segment_faithful {call : Connecting} (failing : call.lastRet ≠ 0) (ret : Int) :
    (call.segment ret).state.Faithful ↔ call.Faithful ∧
      match call.place with
      | .sleeping timeoutCount =>
          maxTimeoutCount ≤ timeoutCount + 1 → call.link.wifi.connected = false
      | .printing => call.link.wifi.connected = true ∧ wifiHasIpv4 call.link.iface = true
      | _ => True := by
  rw [segment]
  cases place : call.place with
  | calling =>
      rw [and_true]
      dsimp only
      split_ifs
      · exact connect_returns_faithful call (by decide)
      · exact Iff.rfl
  | attempting => exact (and_iff_left trivial).symm
  | requesting =>
      rw [and_true]
      dsimp only
      split_ifs <;> exact Iff.rfl
  | polling => exact (poll_faithful call 0).trans (and_iff_left trivial).symm
  | sleeping timeoutCount =>
      dsimp only
      split_ifs with last
      · exact (wait_returns_faithful call).trans (and_congr_right fun _ => (imp_iff_right last).symm)
      · exact (poll_faithful call _).trans (and_iff_left fun spent => absurd spent last).symm
  | leasing waitedMs =>
      rw [and_true]
      dsimp only
      split_ifs <;> exact Iff.rfl
  | checking =>
      rw [and_true]
      dsimp only
      split_ifs <;> exact Iff.rfl
  | printing => exact printing_faithful call
  | disconnecting =>
      rw [and_true]
      dsimp only
      split_ifs <;> exact Iff.rfl
  | retrying =>
      rw [and_true]
      dsimp only
      split_ifs
      · exact Iff.rfl
      · exact connect_returns_faithful call failing
  | returned => exact (and_iff_left trivial).symm

theorem step_faithful {call : Connecting} (sound : call.Sound) (gap : Gap) :
    (call.step gap).state.Faithful ↔ call.Faithful ∧ call.Steady gap := by
  have tracked := sound.tracked.meet gap.events
  rw [step, @segment_faithful (call.meet gap.events) sound.failing]
  apply and_congr_right
  intro _
  show (match call.place with
    | .sleeping timeoutCount =>
        maxTimeoutCount ≤ timeoutCount + 1 → (call.meet gap.events).link.wifi.connected = false
    | .printing => (call.meet gap.events).link.wifi.connected = true ∧
        wifiHasIpv4 (call.meet gap.events).link.iface = true
    | _ => True) ↔ _
  rw [Steady]
  cases place : call.place with
  | sleeping timeoutCount =>
      have connected := tracked false (show false ∈ lastRead call.place from place ▸ rfl)
      dsimp only
      rw [connected]
      apply imp_congr_right
      intro _
      show (lastLink (call.since ++ gap.events)).getD false = false ↔ _
      cases lastLink (call.since ++ gap.events) with
      | none => decide
      | some up => cases up <;> decide
  | printing =>
      have connected := tracked true (show true ∈ lastRead call.place from place ▸ rfl)
      have leased := sound.leased place
      dsimp only
      rw [connected, meet_iface]
      apply and_congr
      · show (lastLink (call.since ++ gap.events)).getD true = true ↔ _
        cases lastLink (call.since ++ gap.events) with
        | none => decide
        | some up => cases up <;> decide
      · cases lastIface gap.events with
        | none => simpa using leased
        | some iface => simp
  | calling => exact Iff.rfl
  | attempting => exact Iff.rfl
  | requesting => exact Iff.rfl
  | polling => exact Iff.rfl
  | leasing waitedMs => exact Iff.rfl
  | checking => exact Iff.rfl
  | disconnecting => exact Iff.rfl
  | retrying => exact Iff.rfl
  | returned => exact Iff.rfl

/-! ## Termination -/

/-- Places of one attempt, the ones further on lower. -/
def placeRank : Place → Nat
  | .calling => 299
  | .attempting => 298
  | .requesting => 297
  | .polling => 296
  | .sleeping timeoutCount => 95 + (maxTimeoutCount - timeoutCount)
  | .leasing waitedMs => 6 + (wifiDhcpTimeoutMs + 250 - waitedMs) / 250
  | .checking => 5
  | .printing => 4
  | .disconnecting => 3
  | .retrying => 2
  | .returned => 1

def rank (call : Connecting) : Nat :=
  (wifiConnectionAttempts - call.attempt) * 300 + placeRank call.place

theorem rank_lower {call after : Connecting} {here next : Place} (place : call.place = here)
    (lower : placeRank next < placeRank here) (there : after.place = next)
    (same : after.attempt = call.attempt) : after.rank < call.rank := by
  rw [rank, rank, same, place, there]
  exact Nat.add_lt_add_left lower _

theorem poll_rank {call : Connecting} {here : Place} {timeoutCount : Nat}
    (place : call.place = here) (above : 95 + (maxTimeoutCount - timeoutCount) < placeRank here) :
    (call.poll timeoutCount).rank < call.rank := by
  have lease : placeRank (.leasing 0) = 87 := rfl
  rw [poll]
  split_ifs
  · exact rank_lower place (show placeRank (.leasing 0) < _ by omega) rfl rfl
  · exact rank_lower place (show placeRank (.sleeping timeoutCount) < _ from above) rfl rfl

theorem segment_rank {call after : Connecting} {ret : Int} (taken : call.segment ret = .go after) :
    after.rank < call.rank := by
  rw [segment] at taken
  cases place : call.place with
  | calling =>
      rw [place] at taken
      dsimp only at taken
      split_ifs at taken
      · cases taken
      · cases taken
        exact rank_lower place (show placeRank .attempting < placeRank .calling by decide) rfl rfl
  | attempting =>
      rw [place] at taken
      cases taken
      exact rank_lower place (show placeRank .requesting < placeRank .attempting by decide) rfl rfl
  | requesting =>
      rw [place] at taken
      dsimp only at taken
      split_ifs at taken
      · cases taken
        exact rank_lower place (show placeRank .disconnecting < placeRank .requesting by decide) rfl rfl
      · cases taken
        exact rank_lower place (show placeRank .polling < placeRank .requesting by decide) rfl rfl
  | polling =>
      rw [place] at taken
      cases taken
      exact poll_rank place (show _ < placeRank .polling by decide)
  | sleeping timeoutCount =>
      rw [place] at taken
      dsimp only at taken
      split_ifs at taken with last
      · cases taken
        exact rank_lower place (show placeRank .disconnecting < 95 + _ by
          have low : placeRank .disconnecting = 3 := rfl
          omega) rfl rfl
      · cases taken
        exact poll_rank place (show _ < 95 + (maxTimeoutCount - timeoutCount) by omega)
  | leasing waitedMs =>
      rw [place] at taken
      dsimp only at taken
      split_ifs at taken with wait
      · cases taken
        have early : waitedMs < wifiDhcpTimeoutMs := by
          rw [Bool.and_eq_true, decide_eq_true_eq] at wait
          exact wait.2
        have lower : placeRank (.leasing (waitedMs + 250)) < placeRank (.leasing waitedMs) := by
          rw [placeRank, placeRank]
          omega
        exact rank_lower place lower rfl rfl
      · cases taken
        have lower : placeRank .checking < placeRank (.leasing waitedMs) := by
          rw [placeRank, placeRank]
          omega
        exact rank_lower place lower rfl rfl
  | checking =>
      rw [place] at taken
      dsimp only at taken
      split_ifs at taken
      · cases taken
        exact rank_lower place (show placeRank .disconnecting < placeRank .checking by decide) rfl rfl
      · cases taken
        exact rank_lower place (show placeRank .printing < placeRank .checking by decide) rfl rfl
  | printing =>
      rw [place] at taken
      cases taken
  | disconnecting =>
      rw [place] at taken
      dsimp only at taken
      split_ifs at taken
      · cases taken
        exact rank_lower place (show placeRank .retrying < placeRank .disconnecting by decide) rfl rfl
      · cases taken
        exact rank_lower place (show placeRank .retrying < placeRank .disconnecting by decide) rfl rfl
  | retrying =>
      rw [place] at taken
      dsimp only at taken
      split_ifs at taken with more
      · cases taken
        show (wifiConnectionAttempts - (call.attempt + 1)) * 300 + 298 <
          (wifiConnectionAttempts - call.attempt) * 300 + placeRank call.place
        omega
      · cases taken
  | returned =>
      rw [place] at taken
      cases taken

end Connecting

/-- In every run of `connect_to_wifi`, whatever its events are: all that is returned is
faithful if and only if the events of every step are steady. -/
theorem connect_results_faithful_iff (link : Link) (gaps : List Gap) :
    (∀ returned ∈ (run Connecting.step (Connecting.start link) gaps).1.returns, returned.Faithful) ↔
      Guarded Connecting.step Connecting.Steady (Connecting.start link) gaps := by
  have none : (Connecting.start link).Faithful := fun _ member => nomatch member
  have whole := @run_holds_iff _ _ _ Connecting.step Connecting.Steady Connecting.Sound
    Connecting.Faithful (fun _ gap sound => Connecting.step_sound sound gap)
    (fun _ gap sound => Connecting.step_faithful sound gap) gaps _ (Connecting.start_sound link)
  exact whole.trans (and_iff_right none)

/-- Whatever happens, `connect_to_wifi` comes to its return. -/
theorem connect_to_wifi_returns (link : Link) (gaps : List Gap)
    (long : 1500 ≤ gaps.length) : (run Connecting.step (Connecting.start link) gaps).2 ≠ none := by
  have rank : (Connecting.start link).rank = (5 - 1) * 300 + 299 := rfl
  refine @run_stops _ _ _ Connecting.step Connecting.rank ?_ gaps (Connecting.start link) ?_
  · exact fun call gap after taken =>
      @Connecting.segment_rank (call.meet gap.events) after gap.ret taken
  · omega

/-! ## Events that are not noticed -/

def leasedStation : Link where
  wifi := ⟨0, false, false, false, true⟩
  iface := some ⟨some [⟨true, .dhcp, .inet⟩]⟩

def quietGap : Gap := ⟨[], 0⟩

def lostLink : List Gap :=
  [quietGap, quietGap, quietGap, ⟨[.wifi (.connectResult 0)], 0⟩,
    ⟨[.wifi (.disconnectResult 0)], 0⟩, quietGap, quietGap]

def lateLink : List Gap :=
  List.replicate (3 + maxTimeoutCount) quietGap ++ [⟨[.wifi (.connectResult 0)], 0⟩]

/-- Zero is returned without a connection, and a wait times out with one. -/
theorem connect_results_unfaithful :
    (run Connecting.step (Connecting.start leasedStation) lostLink).1.returns =
        [.waited 0 true, .connect 0 false true] ∧
      (run Connecting.step (Connecting.start leasedStation) lateLink).1.returns =
        [.waited (-eTIMEDOUT) true] ∧
      ¬∀ (link : Link) (gaps : List Gap),
        ∀ returned ∈ (run Connecting.step (Connecting.start link) gaps).1.returns,
          returned.Faithful := by
  have lost : (run Connecting.step (Connecting.start leasedStation) lostLink).1.returns =
      [.waited 0 true, .connect 0 false true] := by decide
  refine ⟨lost, by decide +kernel, ?_⟩
  intro always
  have here := always leasedStation lostLink (.connect 0 false true) (lost ▸ by decide)
  exact absurd here (by decide)

end BootEntropy.RawDump
