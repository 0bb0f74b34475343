import BootEntropy.Lib.Run
import BootEntropy.RawDump.Console

/-!
# Purity of the raw dump

What stands between the two markers, over every interleaving of the threads. The
flag keeps the other threads quiet only if they look at it, and look after it was
cleared.
-/

namespace BootEntropy.RawDump

open BootEntropy.Lib

set_option autoImplicit false

variable (build : Build)

/-! ## What a run owes -/

def delivered (system : System) : Bytes :=
  match system.main.pc with
  | .sent _ _ => system.returned.take (system.returned.length - system.main.text.length)
  | _ => system.returned

/-- Nothing but the driver bytes stands in the window, and behind a dump without a
failed call all of them do. -/
structure DumpPure (system : System) : Prop where
  bytes : system.window = delivered system
  count : system.main.phase = .closed → system.callFailed = false →
    system.window.length = build.trngRawDumpBytes.toNat

/-- The turn writes a byte of a text that the flag does not hold back: the error
message of the dump, an ungated text, or a text whose look at the flag came before
it was cleared. -/
def Disturbs (system : System) : Turn → Prop
  | .main _ => system.main.pc = .failed ∧ system.main.text ≠ []
  | .handler _ => build.hasWifi = true ∧ system.others.handler.text ≠ [] ∧
      system.others.handler.late = false
  | .scan _ => build.hasScanThread = true ∧ system.others.scan.text ≠ [] ∧
      system.others.scan.late = false
  | .udp _ => build.hasUdpThread = true ∧ system.others.udp.text ≠ [] ∧
      system.others.udp.late = false

instance disturbsDecidable (system : System) (turn : Turn) :
    Decidable (Disturbs build system turn) := by
  cases turn <;> exact inferInstanceAs (Decidable (_ ∧ _))

def Undisturbed (system : System) (turn : Turn) : Prop :=
  system.main.phase = .opened → ¬Disturbs build system turn

instance undisturbedDecidable (system : System) (turn : Turn) :
    Decidable (Undisturbed build system turn) := inferInstanceAs (Decidable (_ → _))

/-! ## Turns of the other threads -/

structure NoLate (others : Others) : Prop where
  handler : others.handler.late = true → others.handler.text = []
  scan : others.scan.late = true → others.scan.text = []
  udp : others.udp.late = true → others.udp.text = []

/-- A turn leaves the flag alone, and no text gets past a flag that is down. -/
structure Follows (system : System) (others : Others) : Prop where
  flag : others.wifi.eventLogging = system.others.wifi.eventLogging
  timely : NoLate system.others →
    (system.main.pc ≠ .quieting → system.others.wifi.eventLogging = false) → NoLate others

inductive OtherTurn (system : System) (writes : Prop) : System → Prop where
  | silent {others : Others} (unwritten : ¬writes) (follows : Follows system others) :
      OtherTurn system writes (system.setOthers others)
  | wrote {others : Others} (written : writes) (byte : UInt8) (follows : Follows system others) :
      OtherTurn system writes ((system.put byte).setOthers others)

section Others

variable {system : System}

theorem follows_self : Follows system system.others := ⟨rfl, fun timely _ => timely⟩

theorem gated_late {text : Bytes}
    (down : system.main.pc ≠ .quieting → system.others.wifi.eventLogging = false)
    (late : system.lateNow = true) : gated system.others.wifi text = [] := by
  unfold System.lateNow at late
  rw [gated, down (of_decide_eq_true late)]
  rfl

theorem enter_event_flag (wifi : Wifi) (event : WifiEvent) :
    (enterEvent wifi event).eventLogging = wifi.eventLogging := by
  cases event <;> rfl

theorem leave_event_flag (wifi : Wifi) (event : WifiEvent) :
    (leaveEvent wifi event).eventLogging = wifi.eventLogging := by
  cases event <;> rfl

theorem step_handler_turn (event : WifiEvent) :
    OtherTurn system (system.others.handler.text ≠ []) (stepHandler system event) := by
  unfold stepHandler
  dsimp only
  cases text : system.others.handler.text with
  | cons byte rest =>
      apply OtherTurn.wrote (List.cons_ne_nil _ _)
      refine ⟨rfl, fun timely _ => ⟨?_, timely.scan, timely.udp⟩⟩
      intro late
      have empty := timely.handler late
      rw [text] at empty
      cases empty
  | nil =>
      cases at' : system.others.handler.pc with
      | idle =>
          apply OtherTurn.silent (not_not_intro rfl)
          refine ⟨enter_event_flag _ event, fun timely down => ⟨?_, timely.scan, timely.udp⟩⟩
          exact gated_late down
      | leaving entered =>
          apply OtherTurn.silent (not_not_intro rfl)
          exact ⟨leave_event_flag _ entered, fun timely _ => ⟨fun _ => rfl, timely.scan, timely.udp⟩⟩

theorem step_scan_turn (request : ScanRequest) :
    OtherTurn system (system.others.scan.text ≠ []) (stepScan system request) := by
  unfold stepScan
  dsimp only
  cases text : system.others.scan.text with
  | cons byte rest =>
      apply OtherTurn.wrote (List.cons_ne_nil _ _)
      refine ⟨rfl, fun timely _ => ⟨timely.handler, ?_, timely.udp⟩⟩
      intro late
      have empty := timely.scan late
      rw [text] at empty
      cases empty
  | nil =>
      cases at' : system.others.scan.pc with
      | checking =>
          dsimp only
          split_ifs
          · apply OtherTurn.silent (not_not_intro rfl)
            exact ⟨rfl, fun timely _ => ⟨timely.handler, (fun late => nomatch late), timely.udp⟩⟩
          · apply OtherTurn.silent (not_not_intro rfl)
            exact ⟨rfl, fun timely _ => ⟨timely.handler, fun _ => rfl, timely.udp⟩⟩
      | counting =>
          apply OtherTurn.silent (not_not_intro rfl)
          exact ⟨rfl, fun timely down => ⟨timely.handler, gated_late down, timely.udp⟩⟩
      | sleeping =>
          apply OtherTurn.silent (not_not_intro rfl)
          exact ⟨rfl, fun timely _ => ⟨timely.handler, fun _ => rfl, timely.udp⟩⟩
      | stopping =>
          apply OtherTurn.silent (not_not_intro rfl)
          exact ⟨rfl, fun timely down => ⟨timely.handler, gated_late down, timely.udp⟩⟩
      | stopped => exact .silent (not_not_intro rfl) follows_self

theorem step_udp_turn (result : Int) :
    OtherTurn system (system.others.udp.text ≠ []) (stepUdp build system result) := by
  have early {udp : Thread UdpPc} (timely : NoLate system.others) (early : udp.late = false) :
      udp.late = true → udp.text = [] := by
    rw [early]
    exact fun late => nomatch late
  unfold stepUdp
  dsimp only
  cases text : system.others.udp.text with
  | cons byte rest =>
      apply OtherTurn.wrote (List.cons_ne_nil _ _)
      refine ⟨rfl, fun timely _ => ⟨timely.handler, timely.scan, ?_⟩⟩
      intro late
      have empty := timely.udp late
      rw [text] at empty
      cases empty
  | nil =>
      cases at' : system.others.udp.pc with
      | creating =>
          dsimp only
          split_ifs
          · apply OtherTurn.silent (not_not_intro rfl)
            exact ⟨rfl, fun timely _ => ⟨timely.handler, timely.scan, early timely rfl⟩⟩
          · apply OtherTurn.silent (not_not_intro rfl)
            exact ⟨rfl, fun timely _ => ⟨timely.handler, timely.scan, early timely rfl⟩⟩
      | binding =>
          dsimp only
          split_ifs
          · apply OtherTurn.silent (not_not_intro rfl)
            exact ⟨rfl, fun timely _ => ⟨timely.handler, timely.scan, early timely rfl⟩⟩
          · apply OtherTurn.silent (not_not_intro rfl)
            exact ⟨rfl, fun timely _ => ⟨timely.handler, timely.scan, early timely rfl⟩⟩
      | receiving =>
          dsimp only
          split_ifs
          · apply OtherTurn.silent (not_not_intro rfl)
            exact ⟨rfl, fun timely _ => ⟨timely.handler, timely.scan, timely.udp⟩⟩
          · exact .silent (not_not_intro rfl) follows_self
          · apply OtherTurn.silent (not_not_intro rfl)
            exact ⟨rfl, fun timely _ => ⟨timely.handler, timely.scan, early timely rfl⟩⟩
      | givingUp =>
          apply OtherTurn.silent (not_not_intro rfl)
          exact ⟨rfl, fun timely _ => ⟨timely.handler, timely.scan, early timely rfl⟩⟩
      | stopped => exact .silent (not_not_intro rfl) follows_self

end Others

/-! ## The books of the dump -/

/-- What the program counter of the dump says about the bytes returned so far. -/
def Accounted (system : System) : Prop :=
  match system.main.pc with
  | .quieting => system.returned = [] ∧ system.callFailed = false
  | .announcing => system.returned = [] ∧ system.callFailed = false
  | .waiting => system.returned = [] ∧ system.callFailed = false
  | .starting => system.returned = [] ∧ system.callFailed = false
  | .asking total => system.main.text = [] ∧ system.callFailed = false ∧
      system.returned.length + total = build.trngRawDumpBytes.toNat
  | .sent toRead total => system.main.text <:+ system.returned ∧ system.callFailed = false ∧
      toRead ≤ total ∧
      system.returned.length + (total - toRead) = build.trngRawDumpBytes.toNat
  | .failed => system.callFailed = true
  | .draining => system.main.text = [] ∧ (system.callFailed = false →
      system.returned.length = build.trngRawDumpBytes.toNat)
  | .ending => system.callFailed = false →
      system.returned.length = build.trngRawDumpBytes.toNat
  | .finished => system.callFailed = false →
      system.returned.length = build.trngRawDumpBytes.toNat

/-- Until the dump is over the flag is down and no text is late. -/
structure Hushed (system : System) : Prop where
  flag : system.main.pc ≠ .finished → system.main.pc ≠ .quieting → build.hasWifi = true →
    system.others.wifi.eventLogging = false
  timely : system.main.pc ≠ .finished → NoLate system.others

/-- Whatever else is written, no driver byte is lost or moved. -/
structure Books (system : System) : Prop where
  accounted : Accounted build system
  hushed : Hushed build system
  kept : (delivered system).Sublist system.window

section Put

variable (system : System) (byte : UInt8) (others : Others)

theorem put_main : (system.put byte).main = system.main := by
  unfold System.put
  split <;> rfl

theorem put_returned : (system.put byte).returned = system.returned := by
  unfold System.put
  split <;> rfl

theorem put_call_failed : (system.put byte).callFailed = system.callFailed := by
  unfold System.put
  split <;> rfl

theorem put_window : (system.put byte).window =
    if system.main.phase = .opened then system.window ++ [byte] else system.window := by
  unfold System.put
  cases system.main.phase with
  | before => rfl
  | opened => rfl
  | closed => rfl

end Put

theorem hushed_of_follows {build : Build} {system after : System}
    (hushed : Hushed build system) (main : after.main = system.main)
    (follows : Follows system after.others) (wifi : build.hasWifi = true) : Hushed build after := by
  constructor
  · rw [main, follows.flag]
    exact hushed.flag
  · rw [main]
    intro running
    apply follows.timely (hushed.timely running)
    intro cleared
    exact hushed.flag running cleared wifi

theorem pushed_ne {bytes window : Bytes} (byte : UInt8) (kept : bytes.Sublist window) :
    window ++ [byte] ≠ bytes := by
  intro equal
  have lengths := congrArg List.length equal
  have shorter := kept.length_le
  rw [List.length_append, List.length_singleton] at lengths
  omega

structure KeepsBooks (system : System) (undisturbed : Prop) (after : System) : Prop where
  books : Books build after
  bytes : after.window = delivered after ↔ system.window = delivered system ∧ undisturbed

theorem has_wifi_of_scan {build : Build} (scans : build.hasScanThread = true) :
    build.hasWifi = true := by
  unfold Build.hasScanThread at scans
  unfold Build.hasWifi
  rw [of_decide_eq_true scans]
  rfl

theorem has_wifi_of_udp {build : Build} (receives : build.hasUdpThread = true) :
    build.hasWifi = true := by
  unfold Build.hasUdpThread at receives
  unfold Build.hasWifi
  cases condition : build.condition with
  | rfDisabled =>
      rw [condition] at receives
      cases receives
  | _ => rfl

section Turns

variable {build : Build} {system after : System}

/-- A byte of another thread breaks the window exactly if the window is open. -/
theorem OtherTurn.keeps_books {writes : Prop} (turn : OtherTurn system writes after)
    (wifi : build.hasWifi = true) (books : Books build system) :
    KeepsBooks build system (system.main.phase = .opened → ¬writes) after := by
  cases turn with
  | @silent others unwritten follows =>
      constructor
      · exact ⟨books.accounted, hushed_of_follows books.hushed rfl follows wifi, books.kept⟩
      · exact (and_iff_left fun _ => unwritten).symm
  | @wrote others written byte follows =>
      have main : ((system.put byte).setOthers others).main = system.main := put_main system byte
      have returned : ((system.put byte).setOthers others).returned = system.returned :=
        put_returned system byte
      have callFailed : ((system.put byte).setOthers others).callFailed = system.callFailed :=
        put_call_failed system byte
      have window : ((system.put byte).setOthers others).window = _ := put_window system byte
      have same : delivered ((system.put byte).setOthers others) = delivered system := by
        unfold delivered
        rw [main, returned]
      constructor
      · refine ⟨?_, hushed_of_follows books.hushed main follows wifi, ?_⟩
        · have accounted := books.accounted
          unfold Accounted at accounted ⊢
          rw [main, returned, callFailed]
          exact accounted
        · rw [window, same]
          split_ifs
          · exact books.kept.trans (List.sublist_append_left _ _)
          · exact books.kept
      · rw [window, same]
        by_cases opened : system.main.phase = .opened
        · rw [if_pos opened]
          apply iff_of_false (pushed_ne byte books.kept)
          rintro ⟨_, silent⟩
          exact silent opened written
        · rw [if_neg opened]
          exact (and_iff_left fun isOpen => absurd isOpen opened).symm

theorem Hushed.keep (hushed : Hushed build system) (others : after.others = system.others)
    (pc : after.main.pc = system.main.pc) : Hushed build after := by
  constructor
  · rw [pc, others]
    exact hushed.flag
  · rw [pc, others]
    exact hushed.timely

theorem Hushed.go (hushed : Hushed build system) (others : after.others = system.others)
    {pc : MainPc} (now : system.main.pc = pc) (running : pc ≠ .finished)
    (cleared : pc ≠ .quieting) : Hushed build after := by
  subst now
  constructor
  · rw [others]
    exact fun _ _ => hushed.flag running cleared
  · rw [others]
    exact fun _ => hushed.timely running

theorem take_next {bytes rest : Bytes} {byte : UInt8} (tail : byte :: rest <:+ bytes) :
    bytes.take (bytes.length - rest.length) =
      bytes.take (bytes.length - (byte :: rest).length) ++ [byte] := by
  obtain ⟨front, rfl⟩ := tail
  have longer : (front ++ byte :: rest).length - rest.length = (front ++ [byte]).length := by
    simp only [List.length_append, List.length_cons, List.length_nil]
    omega
  have shorter : (front ++ byte :: rest).length - (byte :: rest).length = front.length := by
    rw [List.length_append, Nat.add_sub_cancel]
  rw [shorter, List.take_left, longer, List.append_cons front byte rest]
  exact List.take_left

def MainPc.outside : MainPc → Bool
  | .quieting => true
  | .announcing => true
  | .waiting => true
  | .starting => true
  | .ending => true
  | .finished => true
  | _ => false

theorem outside_keeps_books (input : MainInput) (books : Books build system)
    (outside : system.main.pc.outside = true) (pc : after.main.pc = system.main.pc)
    (others : after.others = system.others) (returned : after.returned = system.returned)
    (callFailed : after.callFailed = system.callFailed) (window : after.window = system.window) :
    KeepsBooks build system (Undisturbed build system (.main input)) after := by
  have accounted := books.accounted
  have same : delivered after = delivered system := by
    unfold delivered
    rw [pc, returned]
    cases at' : system.main.pc with
    | sent toRead total =>
        rw [at'] at outside
        cases outside
    | _ => rfl
  constructor
  · refine ⟨?_, books.hushed.keep others pc, ?_⟩
    · unfold Accounted at accounted ⊢
      rw [pc, returned, callFailed]
      cases at' : system.main.pc with
      | asking total =>
          rw [at'] at outside
          cases outside
      | sent toRead total =>
          rw [at'] at outside
          cases outside
      | draining =>
          rw [at'] at outside
          cases outside
      | _ =>
          rw [at'] at accounted
          exact accounted
    · rw [window, same]
      exact books.kept
  · rw [window, same]
    apply (and_iff_left _).symm
    rintro _ ⟨failed, _⟩
    rw [failed] at outside
    cases outside

theorem main_writes_keeps_books (input : MainInput) (books : Books build system) {byte : UInt8}
    {rest : Bytes} (text : system.main.text = byte :: rest) :
    KeepsBooks build system (Undisturbed build system (.main input)) (system.putMain byte rest) := by
  have accounted := books.accounted
  unfold Accounted at accounted
  unfold System.putMain
  cases pc : system.main.pc with
  | asking total =>
      rw [pc] at accounted
      rw [text] at accounted
      cases accounted.1
  | draining =>
      rw [pc] at accounted
      rw [text] at accounted
      cases accounted.1
  | sent toRead total =>
      rw [pc] at accounted
      have tail : byte :: rest <:+ system.returned := text ▸ accounted.1
      have now : delivered system =
          system.returned.take (system.returned.length - (byte :: rest).length) := by
        unfold delivered
        rw [pc, text]
      have next : delivered { system with
          main := { system.main with text := rest }, window := system.window ++ [byte] } =
            delivered system ++ [byte] := by
        rw [now, ← take_next tail]
        unfold delivered
        rw [pc]
      have silent : Undisturbed build system (.main input) := by
        rintro _ ⟨failed, _⟩
        rw [pc] at failed
        cases failed
      refine ⟨⟨?_, books.hushed.keep rfl rfl, ?_⟩, ?_⟩
      · unfold Accounted
        rw [pc]
        exact ⟨(List.suffix_cons byte rest).trans tail, accounted.2⟩
      · rw [next]
        exact books.kept.append (List.Sublist.refl [byte])
      · rw [next, and_iff_left silent]
        exact List.append_left_inj [byte]
  | failed =>
      rw [pc] at accounted
      have same : delivered { system with
          main := { system.main with text := rest }, window := system.window ++ [byte] } =
            delivered system := by
        unfold delivered
        rw [pc]
      refine ⟨⟨?_, books.hushed.keep rfl rfl, ?_⟩, ?_⟩
      · unfold Accounted
        rw [pc]
        exact accounted
      · rw [same]
        exact books.kept.trans (List.sublist_append_left _ _)
      · rw [same]
        apply iff_of_false (pushed_ne byte books.kept)
        rintro ⟨_, silent⟩
        apply silent
        · rw [MainThread.phase, pc]
        · exact ⟨pc, by rw [text]; exact List.cons_ne_nil _ _⟩
  | quieting => exact outside_keeps_books input books (by rw [pc]; rfl) rfl rfl rfl rfl rfl
  | announcing => exact outside_keeps_books input books (by rw [pc]; rfl) rfl rfl rfl rfl rfl
  | waiting => exact outside_keeps_books input books (by rw [pc]; rfl) rfl rfl rfl rfl rfl
  | starting => exact outside_keeps_books input books (by rw [pc]; rfl) rfl rfl rfl rfl rfl
  | ending => exact outside_keeps_books input books (by rw [pc]; rfl) rfl rfl rfl rfl rfl
  | finished => exact outside_keeps_books input books (by rw [pc]; rfl) rfl rfl rfl rfl rfl

theorem read_chunk_length (input : MainInput) (total : Nat) :
    (readChunk input total).length = readSize total := by
  rw [readChunk, List.length_map, List.length_range]

theorem read_size_le (total : Nat) : readSize total ≤ total := by
  unfold readSize
  split_ifs with small
  · exact Nat.le_refl total
  · exact Nat.not_lt.mp small

theorem delivered_of_silent (text : system.main.text = []) : delivered system = system.returned := by
  unfold delivered
  rw [text]
  split
  · exact List.take_length
  · rfl

theorem silent_keeps_books (input : MainInput) (books : Books build system)
    (text : system.main.text = []) (accounted : Accounted build after)
    (hushed : Hushed build after) (window : after.window = system.window)
    (same : delivered after = system.returned) :
    KeepsBooks build system (Undisturbed build system (.main input)) after := by
  have whole := delivered_of_silent text
  have silent : Undisturbed build system (.main input) := fun _ disturbs => disturbs.2 text
  constructor
  · refine ⟨accounted, hushed, ?_⟩
    rw [window, same, ← whole]
    exact books.kept
  · rw [window, same, ← whole]
    exact (and_iff_left silent).symm

theorem main_moves_keeps_books (input : MainInput) (books : Books build system)
    (text : system.main.text = []) :
    KeepsBooks build system (Undisturbed build system (.main input))
      (stepMain build system input) := by
  have accounted := books.accounted
  have hushed := books.hushed
  unfold Accounted at accounted
  unfold stepMain
  rw [text]
  dsimp only
  cases pc : system.main.pc with
  | quieting =>
      rw [pc] at accounted
      have running : system.main.pc ≠ .finished := by
        rw [pc]
        exact fun equal => nomatch equal
      dsimp only
      unfold System.setLogging
      split_ifs with wifi
      · refine silent_keeps_books input books text accounted ?_ rfl rfl
        exact ⟨fun _ _ _ => rfl, fun _ => ⟨(hushed.timely running).handler,
          (hushed.timely running).scan, (hushed.timely running).udp⟩⟩
      · refine silent_keeps_books input books text accounted ?_ rfl rfl
        exact ⟨fun _ _ present => absurd present wifi, fun _ => hushed.timely running⟩
  | announcing =>
      rw [pc] at accounted
      refine silent_keeps_books input books text accounted ?_ rfl rfl
      exact hushed.go rfl pc (nomatch ·) (nomatch ·)
  | waiting =>
      rw [pc] at accounted
      dsimp only
      split_ifs
      · refine silent_keeps_books input books text accounted ?_ rfl rfl
        exact hushed.go rfl pc (nomatch ·) (nomatch ·)
      · exact silent_keeps_books input books text books.accounted hushed rfl
          (delivered_of_silent text)
  | starting =>
      rw [pc] at accounted
      refine silent_keeps_books input books text ?_ ?_ rfl rfl
      · refine ⟨rfl, accounted.2, ?_⟩
        dsimp only [System.setMain]
        rw [accounted.1, List.length_nil, Nat.zero_add]
      · exact hushed.go rfl pc (nomatch ·) (nomatch ·)
  | asking total =>
      rw [pc] at accounted
      obtain ⟨_, unfailed, sum⟩ := accounted
      dsimp only
      split_ifs with drained refused
      · refine silent_keeps_books input books text ?_ ?_ rfl rfl
        · rw [drained] at sum
          exact ⟨rfl, fun _ => sum⟩
        · exact hushed.go rfl pc (nomatch ·) (nomatch ·)
      · refine silent_keeps_books input books text rfl ?_ rfl rfl
        exact hushed.go rfl pc (nomatch ·) (nomatch ·)
      · have length := read_chunk_length input total
        have fits := read_size_le total
        refine silent_keeps_books input books text ?_ ?_ rfl ?_
        · refine ⟨List.suffix_append _ _, unfailed, fits, ?_⟩
          dsimp only
          rw [List.length_append, length]
          omega
        · exact hushed.go rfl pc (nomatch ·) (nomatch ·)
        · unfold delivered
          dsimp only [System.setMain]
          rw [List.length_append, Nat.add_sub_cancel]
          exact List.take_left
  | sent toRead total =>
      rw [pc] at accounted
      refine silent_keeps_books input books text ?_ ?_ rfl rfl
      · exact ⟨rfl, accounted.2.1, accounted.2.2.2⟩
      · exact hushed.go rfl pc (nomatch ·) (nomatch ·)
  | failed =>
      rw [pc] at accounted
      refine silent_keeps_books input books text ?_ ?_ rfl rfl
      · refine ⟨rfl, ?_⟩
        intro unfailed
        dsimp only [System.setMain] at unfailed
        rw [accounted] at unfailed
        cases unfailed
      · exact hushed.go rfl pc (nomatch ·) (nomatch ·)
  | draining =>
      rw [pc] at accounted
      refine silent_keeps_books input books text accounted.2 ?_ rfl rfl
      exact hushed.go rfl pc (nomatch ·) (nomatch ·)
  | ending =>
      rw [pc] at accounted
      dsimp only
      unfold System.setLogging
      split_ifs with wifi
      · refine silent_keeps_books input books text accounted ?_ rfl rfl
        exact ⟨fun running => absurd rfl running, fun running => absurd rfl running⟩
      · refine silent_keeps_books input books text accounted ?_ rfl rfl
        exact ⟨fun running => absurd rfl running, fun running => absurd rfl running⟩
  | finished =>
      exact silent_keeps_books input books text books.accounted hushed rfl (delivered_of_silent text)

theorem step_main_keeps_books (input : MainInput) (books : Books build system) :
    KeepsBooks build system (Undisturbed build system (.main input))
      (stepMain build system input) := by
  cases text : system.main.text with
  | nil => exact main_moves_keeps_books input books text
  | cons byte rest =>
      have writes := main_writes_keeps_books input books text
      unfold stepMain
      rw [text]
      exact writes

theorem absent_keeps_books {undisturbed : Prop} (books : Books build system)
    (silent : undisturbed) : KeepsBooks build system undisturbed system :=
  ⟨books, (and_iff_left silent).symm⟩

theorem undisturbed_iff {present : Prop} {text : Bytes} {late : Bool} (hushed : Hushed build system)
    (timely : NoLate system.others → late = true → text = []) (here : present) :
    (system.main.phase = .opened → ¬text ≠ []) ↔
      (system.main.phase = .opened → ¬(present ∧ text ≠ [] ∧ late = false)) := by
  apply forall_congr'
  intro opened
  have running : system.main.pc ≠ .finished := by
    intro finished
    rw [MainThread.phase, finished] at opened
    cases opened
  apply not_congr
  constructor
  · intro some
    refine ⟨here, some, ?_⟩
    cases late with
    | false => rfl
    | true => exact absurd (timely (hushed.timely running) rfl) some
  · exact fun disturbs => disturbs.2.1

theorem step_keeps_books (turn : Turn) (books : Books build system) :
    KeepsBooks build system (Undisturbed build system turn) (step build system turn) := by
  have hushed := books.hushed
  cases turn with
  | main input => exact step_main_keeps_books input books
  | handler event =>
      unfold step
      dsimp only
      split_ifs with wifi
      · have kept := (step_handler_turn event).keeps_books wifi books
        rwa [undisturbed_iff hushed (·.handler) wifi] at kept
      · exact absent_keeps_books books fun _ disturbs => wifi disturbs.1
  | scan request =>
      unfold step
      dsimp only
      split_ifs with scans
      · have wifi := has_wifi_of_scan scans
        have kept := (step_scan_turn request).keeps_books wifi books
        rwa [undisturbed_iff hushed (·.scan) scans] at kept
      · exact absent_keeps_books books fun _ disturbs => scans disturbs.1
  | udp result =>
      unfold step
      dsimp only
      split_ifs with receives
      · have wifi := has_wifi_of_udp receives
        have kept := (step_udp_turn build result).keeps_books wifi books
        rwa [undisturbed_iff hushed (·.udp) receives] at kept
      · exact absent_keeps_books books fun _ disturbs => receives disturbs.1

end Turns

/-! ## Runs -/

def turnOf (system : System) (turn : Turn) : Next System Empty := .go (step build system turn)

theorem run_turns_eq_run (turns : List Turn) :
    ∀ system, runTurns build system turns = (run (turnOf build) system turns).1 := by
  induction turns with
  | nil => exact fun _ => rfl
  | cons turn turns ih => exact fun system => ih (step build system turn)

theorem dump_start_books (others : Others) (console : Bytes) :
    Books build (dumpStart others console) where
  accounted := ⟨rfl, rfl⟩
  hushed := ⟨fun _ cleared => absurd rfl cleared, fun _ => ⟨(nomatch ·), (nomatch ·), (nomatch ·)⟩⟩
  kept := List.Sublist.refl _

variable {build}

theorem run_books (others : Others) (console : Bytes) (turns : List Turn) :
    Books build (runTurns build (dumpStart others console) turns) := by
  have keeps (system : System) (turn : Turn) (books : Books build system) (_ : True) :
      Books build (turnOf build system turn).state := (step_keeps_books turn books).books
  rw [run_turns_eq_run]
  apply run_invariant keeps turns _ (dump_start_books build others console)
  exact Guarded.of_forall (fun _ _ => trivial) turns _

theorem Books.pure_iff {system : System} (books : Books build system) :
    DumpPure build system ↔ system.window = delivered system := by
  refine ⟨DumpPure.bytes, fun bytes => ⟨bytes, ?_⟩⟩
  intro closed unfailed
  have accounted := books.accounted
  unfold Accounted at accounted
  unfold MainThread.phase at closed
  unfold delivered at bytes
  cases pc : system.main.pc with
  | ending =>
      rw [pc] at accounted bytes
      rw [bytes]
      exact accounted unfailed
  | finished =>
      rw [pc] at accounted bytes
      rw [bytes]
      exact accounted unfailed
  | starting =>
      rw [pc] at closed
      dsimp only at closed
      split_ifs at closed
  | _ =>
      rw [pc] at closed
      cases closed

/-- Over every interleaving, in every build, with every sequence of results of the
driver: the window is pure just if no turn of the run disturbs it. -/
theorem raw_dump_pure_iff (others : Others) (console : Bytes) (turns : List Turn) :
    DumpPure build (runTurns build (dumpStart others console) turns) ↔
      Guarded (turnOf build) (Undisturbed build) (dumpStart others console) turns := by
  rw [(run_books others console turns).pure_iff, run_turns_eq_run]
  rw [@run_holds_iff _ _ _ (turnOf build) (Undisturbed build) (Books build)
    (fun system => system.window = delivered system)
    (fun _ turn books => (step_keeps_books turn books).books)
    (fun _ turn books => (step_keeps_books turn books).bytes) turns _
    (dump_start_books build others console)]
  exact and_iff_right rfl

def smallBuild (condition : BenchCondition) : Build where
  condition := condition
  trngRawDumpBytes := 1
  trngRawStartDelayMs := 0
  udpBurstPort := 5005
  udpBurstPayloadSize := 4
  udpBurstExpectByte := 0xA5

def quietOthers : Others where
  wifi := ⟨0, true, false, false, true⟩
  handler := ⟨[], false, .idle⟩
  scan := ⟨[], false, .checking⟩
  scanThreadRunning := true
  scanCount := 0
  udp := ⟨[], false, .receiving⟩
  udpBurstRunning := true
  udpRxPackets := 0
  udpRxBytes := 0

/-- The driver fails at the first call, and without Wi-Fi nobody else can print. Or the
driver never fails, and the network stack refuses the scan the window falls into. -/
theorem window_holds_text :
    ¬DumpPure (smallBuild .rfDisabled) (runTurns (smallBuild .rfDisabled)
      (dumpStart quietOthers []) (List.replicate 260 (.main ⟨some 0x47, -5, fun _ => 0⟩))) ∧
    ¬DumpPure (smallBuild .wifiScan) (runTurns (smallBuild .wifiScan)
      (dumpStart quietOthers []) (List.replicate 165 (.main ⟨some 0x47, 0, fun _ => 7⟩) ++
        [.scan .refused, .scan .refused] ++
        List.replicate 45 (.main ⟨some 0x47, 0, fun _ => 7⟩))) := by
  constructor
  · intro pure
    have bytes := pure.bytes
    revert bytes
    decide +kernel
  · intro pure
    have bytes := pure.bytes
    revert bytes
    decide +kernel

end BootEntropy.RawDump
