import BootEntropy.Capsule.ConsoleLines

/-!
# The console of a boot

`main` prints a banner, ordinary lines, and at most one line that ends the capture of the
boot.
-/

namespace BootEntropy.Capsule

open BootEntropy.Lib
open BootEntropy.BootLog

set_option autoImplicit false

/-! ## Ordinary lines -/

theorem metric_ordinary {key : String} (value : UInt32) (plain : PlainField key.toList)
    (other : key.toList ∉ derivedKeys ∧ key.toList ∉ measuredKeys ∧ key.toList ≠ "result".toList) :
    Ordinary (metricLine key value) :=
  keyed_ordinary (by decide) plain (nat_field value.toNat) other

theorem state_ordinary {state : String} (plain : PlainField state.toList) :
    Ordinary (.tagged .tebMeta ["bootstrap_state", state]) :=
  keyed_ordinary (by decide) (by decide) plain (by decide)

theorem err_ordinary {key : String} (ret : Int) (plain : PlainField key.toList)
    (other : key.toList.head? ≠ some 'r') : Ordinary (errLine key ret) :=
  .error (.two plain (int_field ret)) other

theorem hex_ordinary {key : String} {bytes : Bytes} (some : bytes ≠ []) (plain : PlainField key.toList)
    (other : key.toList ∉ derivedKeys ∧ key.toList ∉ measuredKeys ∧ key.toList ≠ "result".toList) :
    Ordinary (.tagged .tebPuf [key, hexString bytes]) :=
  keyed_ordinary (by decide) plain (hex_field some) other

theorem report_heap_ordinary {label : String}
    (known : label ∈ ["before_wifi", "before_capsule", "after_capsule"]) (stats : HeapStats) :
    ∀ line ∈ reportHeap label stats, Ordinary line := by
  intro line member
  cases stats with
  | none => cases member
  | some sizes =>
      have shown : ∃ kind ∈ ["heap_free_", "heap_used_", "heap_peak_"], ∃ size : Nat,
          line = .tagged .tebMeta [kind ++ label, toString size] := by
        simp only [reportHeap, List.mem_cons, List.not_mem_nil, or_false] at member
        rcases member with rfl | rfl | rfl
        · exact ⟨_, by decide, _, rfl⟩
        · exact ⟨_, by decide, _, rfl⟩
        · exact ⟨_, by decide, _, rfl⟩
      obtain ⟨kind, kinds, size, rfl⟩ := shown
      have key : ∀ label ∈ ["before_wifi", "before_capsule", "after_capsule"],
          ∀ kind ∈ ["heap_free_", "heap_used_", "heap_peak_"],
            PlainField (kind ++ label).toList ∧ (kind ++ label).toList ∉ derivedKeys ∧
              (kind ++ label).toList ∉ measuredKeys ∧ (kind ++ label).toList ≠ "result".toList := by
        decide
      obtain ⟨plain, other⟩ := key label known kind kinds
      exact keyed_ordinary (by decide) plain (nat_field size) other

def Adds (before after : Trace) : Prop :=
  ∃ lines, after.console = before.console ++ lines ∧ ∀ line ∈ lines, Ordinary line

namespace Adds

variable {before after : Trace}

theorem refl (trace : Trace) : Adds trace trace :=
  ⟨[], (List.append_nil _).symm, List.forall_mem_nil _⟩

theorem printAll {lines : List ConsoleLine} (adds : Adds before after)
    (ordinary : ∀ line ∈ lines, Ordinary line) : Adds before (after.printAll lines) := by
  obtain ⟨front, console, plain⟩ := adds
  refine ⟨front ++ lines, ?_, List.forall_mem_append.mpr ⟨plain, ordinary⟩⟩
  rw [print_all_console, console, List.append_assoc]

theorem print {line : ConsoleLine} (adds : Adds before after) (ordinary : Ordinary line) :
    Adds before (after.print line) :=
  adds.printAll fun _ member => List.mem_singleton.mp member ▸ ordinary

theorem retain (adds : Adds before after) (counter : RetainedCounter) :
    Adds before { after with retained := counter } := adds

theorem trans {middle : Trace} (adds : Adds before middle) (later : Adds middle after) :
    Adds before after := by
  obtain ⟨front, console, plain⟩ := adds
  obtain ⟨lines, console', ordinary⟩ := later
  refine ⟨front ++ lines, ?_, List.forall_mem_append.mpr ⟨plain, ordinary⟩⟩
  rw [console', console, List.append_assoc]

end Adds

/-- What is configured, and what the stack prints, is plain text. -/
structure Environment.Plain {profile : Profile} (env : Environment profile) : Prop where
  server : ∀ c ∈ env.serverIp.toList, c ∈ fieldChars
  wifi : ∀ line ∈ env.wifiLines, line.Plain
  dhcp : ∀ line ∈ env.dhcpLines, line.Plain
  ipv4 : ∀ line ∈ env.ipv4Lines, line.Plain

section Run

variable {profile : Profile} (env : Environment profile)

theorem request_capsule_ordinary (plain : env.Plain) :
    ∀ line ∈ (requestCapsule env).1, Ordinary line := by
  have address : PlainField (env.serverIp ++ ":" ++ toString env.serverPort).toList := by
    rw [String.toList_append, String.toList_append, List.append_assoc]
    constructor
    · intro c member
      rcases List.mem_append.mp member with front | behind
      · exact plain.server c front
      · rcases List.mem_append.mp behind with colon | number
        · exact (by decide : ∀ c ∈ ":".toList, c ∈ fieldChars) c colon
        · exact (nat_field _).plain c number
    · exact List.append_ne_nil_of_right_ne_nil _ (List.append_ne_nil_of_right_ne_nil _ (nat_field _).filled)
  have net {key value : String} (plainKey : PlainField key.toList)
      (plainValue : PlainField value.toList) : Ordinary (.tagged .tebNet [key, value]) :=
    .note (.inl rfl) (.two plainKey plainValue)
  have connect : Ordinary (.tagged .tebNet ["connect", env.serverIp ++ ":" ++ toString env.serverPort]) :=
    net (by decide) address
  have hello : Ordinary (.tagged .tebNet ["send_hello", toString tebHelloLen]) :=
    net (by decide) (nat_field _)
  have wait : Ordinary (.tagged .tebNet ["recv_capsule_wait", toString profile.capsuleLen]) :=
    net (by decide) (nat_field _)
  have exchange (value : UInt32) : Ordinary (metricLine "capsule_exchange_ms" value) :=
    metric_ordinary value (by decide) (by decide)
  have send (value : UInt32) : Ordinary (metricLine "hello_send_us" value) :=
    metric_ordinary value (by decide) (by decide)
  have waited (value : UInt32) : Ordinary (metricLine "capsule_wait_ms" value) :=
    metric_ordinary value (by decide) (by decide)
  unfold requestCapsule
  dsimp only
  split_ifs <;>
    simp only [List.cons_append, List.nil_append, List.forall_mem_cons, connect, hello, wait,
      exchange, send, waited, true_and] <;>
    exact List.forall_mem_nil _

theorem decapsulate_lines_ordinary : ∀ line ∈ decapsulateLines env, Ordinary line := by
  have metric : Ordinary (metricLine "kem_decaps_us" (env.cycToUs (env.cycle 6 - env.cycle 5))) :=
    metric_ordinary _ (by decide) (by decide)
  cases profile with
  | devEd25519PufBeacon => exact List.forall_mem_nil _
  | pqMlkem512Mldsa44 => exact fun line member => List.mem_singleton.mp member ▸ metric

theorem derive_and_inject_adds (puf : PufSample) (fields : CapsuleFields) (trace : Trace) :
    Adds trace (deriveAndInject env puf fields trace).1 := by
  have seedFilled : (derivedSeed env puf fields).val ≠ [] := by
    intro none
    have length := (derivedSeed env puf fields).property
    rw [none] at length
    exact absurd length (by decide)
  have kem : Adds trace (trace.printAll (decapsulateLines env)) :=
    (Adds.refl trace).printAll (decapsulate_lines_ordinary env)
  have hkdf (value : UInt32) : Ordinary (metricLine "hkdf_us" value) :=
    metric_ordinary value (by decide) (by decide)
  have added (value : UInt32) : Ordinary (metricLine "entropy_add_us" value) :=
    metric_ordinary value (by decide) (by decide)
  have report : ∀ line ∈ ([.tagged .tebMeta ["capsule_input_bytes",
        toString (derivedSeed env puf fields).val.length],
      .tagged .tebMeta ["capsule_credit_bits", toString tebCapsuleCreditBits],
      .tagged .tebMeta ["gateway_time_ms", toString fields.gatewayTimeMs.toNat],
      .tagged .tebMeta ["gateway_sequence", toString fields.sequence.toNat],
      tebPrintHex .tebSeedCommit (derivedSeed env puf fields).val] : List ConsoleLine),
      Ordinary line := by
    intro line member
    simp only [List.mem_cons, List.not_mem_nil, or_false] at member
    rcases member with rfl | rfl | rfl | rfl | rfl
    · exact keyed_ordinary (by decide) (by decide) (nat_field _) (by decide)
    · exact keyed_ordinary (by decide) (by decide) (nat_field _) (by decide)
    · exact keyed_ordinary (by decide) (by decide) (nat_field _) (by decide)
    · exact keyed_ordinary (by decide) (by decide) (nat_field _) (by decide)
    · exact .note (.inr rfl) (.one (hex_field seedFilled))
  have err (key : String) (ret : Int) (plain : PlainField key.toList)
      (other : key.toList.head? ≠ some 'r') : Ordinary (errLine key ret) :=
    err_ordinary ret plain other
  simp only [deriveAndInject]
  split_ifs
  · exact kem.print (err _ _ (by decide) (by decide))
  · exact kem
  · exact Adds.print (Adds.print kem (hkdf _)) (err _ _ (by decide) (by decide))
  · exact Adds.print (Adds.print (Adds.print kem (hkdf _)) (added _)) (err _ _ (by decide) (by decide))
  · exact Adds.printAll (Adds.print (Adds.print kem (hkdf _)) (added _)) report

theorem accept_capsule_adds (hello : Bytes) (helloFields : HelloFields) (puf : PufSample)
    (capsule : Bytes) (trace : Trace) :
    Adds trace (acceptCapsule env hello helloFields puf capsule trace).1 := by
  have err (key : String) (ret : Int) (plain : PlainField key.toList)
      (other : key.toList.head? ≠ some 'r') : Adds trace (trace.print (errLine key ret)) :=
    (Adds.refl trace).print (err_ordinary ret plain other)
  have note (key : String) (plain : PlainField key.toList) (other : key.toList.head? ≠ some 'r') :
      Adds trace (trace.print (.tagged .tebErr [key])) :=
    (Adds.refl trace).print (.error (.one plain) other)
  have verify (value : UInt32) : Adds trace (trace.print (metricLine "verify_us" value)) :=
    (Adds.refl trace).print (metric_ordinary value (by decide) (by decide))
  unfold acceptCapsule
  split
  · exact err _ _ (by decide) (by decide)
  · next fields parsed =>
      dsimp only
      split_ifs
      · exact (Adds.refl trace).print (.error (.two (by decide) (nat_field _)) (by decide))
      · exact note _ (by decide) (by decide)
      · exact Adds.refl trace
      · exact note _ (by decide) (by decide)
      · exact (verify _).print (err_ordinary _ (by decide) (by decide))
      · exact (verify _).trans (derive_and_inject_adds env _ _ _)

theorem pool_lines_ordinary : ∀ line ∈ poolLines env, Ordinary line := by
  have pool (key : String) (value : Nat) (plain : PlainField key.toList)
      (other : key.toList ∉ derivedKeys ∧ key.toList ∉ measuredKeys ∧ key.toList ≠ "result".toList) :
      Ordinary (.tagged .tebPool [key, toString value]) :=
    keyed_ordinary (by decide) plain (nat_field value) other
  unfold poolLines
  split_ifs
  · simp only [List.forall_mem_cons]
    exact ⟨pool _ _ (by decide) (by decide), pool _ _ (by decide) (by decide),
      pool _ _ (by decide) (by decide), List.forall_mem_nil _⟩
  · exact List.forall_mem_nil _

theorem puf_lines_ordinary : ∀ line ∈ pufLines env, Ordinary line := by
  have filled (block : Block tebHashSize) : block.val ≠ [] := by
    intro none
    have length := block.property
    rw [none] at length
    exact absurd length (by decide)
  have commitment (key : String) (block : Block tebHashSize) (plain : PlainField key.toList)
      (other : key.toList ∉ derivedKeys ∧ key.toList ∉ measuredKeys ∧ key.toList ≠ "result".toList) :
      Ordinary (.tagged .tebPuf [key, hexString block.val]) :=
    hex_ordinary (filled block) plain other
  have count (key : String) (value : UInt32) (plain : PlainField key.toList)
      (other : key.toList ∉ derivedKeys ∧ key.toList ≠ "result".toList) :
      Ordinary (.tagged .tebPuf [key, toString value.toNat]) :=
    measured_ordinary plain (Nat.lt_trans value.toNat_lt (by decide)) other
  have sum : Ordinary (.tagged .tebPuf ["timing_sum_delta", toString env.puf.timingSumDelta.toNat]) :=
    measured_ordinary (by decide) env.puf.timingSumDelta.toNat_lt (by decide)
  unfold pufLines
  simp only [List.forall_mem_cons]
  exact ⟨commitment _ _ (by decide) (by decide), commitment _ _ (by decide) (by decide),
    count _ _ (by decide) (by decide), count _ _ (by decide) (by decide),
    count _ _ (by decide) (by decide), count _ _ (by decide) (by decide), sum,
    List.forall_mem_nil _⟩

/-! ## The end of a boot -/

/-- What is printed from the line on at which a capture stops, and what `main` returns. -/
inductive Ending : List ConsoleLine → Int → Prop where
  | unfinished : Ending [] 1
  | seeded : Ending [seededLine] 0
  | failed (code : Int) : Ending [.tagged .tebResult ["failed", toString code]] 1
  | refused (code : Int) : Ending [errLine "request_capsule" code, failedUnseededLine] 1

def Finishes (before : Trace) (run : Trace × Int) : Prop :=
  ∃ front ending, run.1.console = before.console ++ front ++ ending ∧
    (∀ line ∈ front, Ordinary line) ∧ Ending ending run.2

theorem Adds.finishes {before after : Trace} {ending : List ConsoleLine} {ret : Int}
    (adds : Adds before after) (ends : Ending ending ret) :
    Finishes before (after.printAll ending, ret) := by
  obtain ⟨lines, console, ordinary⟩ := adds
  exact ⟨lines, ending, congrArg (· ++ ending) console, ordinary, ends⟩

theorem Adds.behind {before after : Trace} {run : Trace × Int} (adds : Adds before after)
    (finishes : Finishes after run) : Finishes before run := by
  obtain ⟨lines, console, ordinary⟩ := adds
  obtain ⟨front, ending, later, ordinaryLater, ends⟩ := finishes
  refine ⟨lines ++ front, ending, ?_, List.forall_mem_append.mpr ⟨ordinary, ordinaryLater⟩, ends⟩
  rw [later, console, List.append_assoc before.console]

theorem Adds.stops {before after : Trace} (adds : Adds before after) : Finishes before (after, 1) := by
  have finishes := adds.finishes .unfinished
  rw [Trace.printAll, List.append_nil] at finishes
  exact finishes

theorem failed_unseeded_ordinary : Ordinary failedUnseededLine := state_ordinary (by decide)

theorem exchange_and_accept_finishes (plain : env.Plain) (helloFields : HelloFields) (trace : Trace) :
    Finishes trace (exchangeAndAccept env helloFields trace) := by
  have request : Adds trace (trace.printAll (requestCapsule env).1) :=
    (Adds.refl trace).printAll (request_capsule_ordinary env plain)
  have accepted := request.trans (accept_capsule_adds env (tebBuildHello profile helloFields)
    helloFields env.puf env.capsule.val _)
  have processed (value : UInt32) := accepted.print
    (@metric_ordinary "capsule_processing_us" value (by decide) (by decide))
  have seeding : ∀ line ∈ [metricLine "time_to_seed_ms" (env.uptime 10 - env.uptime 0), readyLine] ++
      poolLines env ++ reportHeap "after_capsule" env.heapAfterCapsule, Ordinary line := by
    simp only [List.forall_mem_append, List.forall_mem_cons]
    exact ⟨⟨⟨metric_ordinary _ (by decide) (by decide), state_ordinary (by decide),
      List.forall_mem_nil _⟩, pool_lines_ordinary env⟩,
      report_heap_ordinary (by decide) _⟩
  unfold exchangeAndAccept
  dsimp only
  split_ifs with refused failed
  · exact request.finishes (.refused _)
  · have unseeded := (processed (env.cycToUs (env.cycle 11 - env.cycle 2))).print failed_unseeded_ordinary
    have finishes := unseeded.finishes (.failed (acceptCapsule env (tebBuildHello profile helloFields)
      helloFields env.puf env.capsule.val (trace.printAll (requestCapsule env).1)).2)
    rw [Trace.print, Trace.printAll, List.append_assoc] at finishes
    exact finishes
  · have seeded := ((processed (env.cycToUs (env.cycle 11 - env.cycle 2))).printAll seeding).finishes
      .seeded
    rw [Trace.printAll, Trace.printAll, List.append_assoc] at seeded
    exact seeded

theorem wifi_lines_ordinary {lines : List WifiLine} (plain : ∀ line ∈ lines, line.Plain) :
    ∀ line ∈ lines.map ConsoleLine.wifi, Ordinary line := by
  intro line member
  obtain ⟨wifi, known, rfl⟩ := List.mem_map.mp member
  exact .wifi (plain wifi known)

theorem join_network_finishes (plain : env.Plain) (helloFields : HelloFields) (trace : Trace) :
    Finishes trace (joinNetwork env helloFields trace) := by
  have both {key : String} (ret : Int) (plainKey : PlainField key.toList)
      (other : key.toList.head? ≠ some 'r') :
      ∀ line ∈ [errLine key ret, failedUnseededLine], Ordinary line := by
    simp only [List.forall_mem_cons]
    exact ⟨err_ordinary ret plainKey other, failed_unseeded_ordinary,
      List.forall_mem_nil _⟩
  have associated := ((Adds.refl trace).printAll (wifi_lines_ordinary plain.wifi)).print
    (@metric_ordinary "wifi_association_ms" (env.uptime 4 - env.uptime 3) (by decide) (by decide))
  have started := associated.printAll (wifi_lines_ordinary plain.dhcp)
  have addressed := (started.printAll (wifi_lines_ordinary plain.ipv4)).print
    (@metric_ordinary "dhcp_ms" (env.uptime 6 - env.uptime 5) (by decide) (by decide))
  have settled := addressed.print
    (@metric_ordinary "post_ipv4_settle_ms" tebPostIpv4SettleMs (by decide) (by decide))
  have waiting := (settled.printAll
    (@report_heap_ordinary "before_capsule" (by decide) env.heapBeforeCapsule)).print
    (@state_ordinary "waiting_capsule" (by decide))
  unfold joinNetwork
  dsimp only
  split_ifs
  · exact (associated.printAll (both _ (by decide) (by decide))).stops
  · exact (started.printAll (both _ (by decide) (by decide))).stops
  · exact (addressed.printAll (both _ (by decide) (by decide))).stops
  · exact waiting.behind (exchange_and_accept_finishes env plain helloFields _)

theorem device_id_field (deviceId : Nat) :
    PlainField ("0x" ++ String.ofList (Nat.toDigits 16 deviceId)).toList := by
  have digit : ∀ d < 16, d.digitChar ∈ fieldChars := by decide
  rw [String.toList_append, @String.toList_ofList (Nat.toDigits 16 deviceId)]
  constructor
  · intro c member
    rcases List.mem_append.mp member with front | digits
    · exact (by decide : ∀ c ∈ "0x".toList, c ∈ fieldChars) c front
    · exact @forall_mem_to_digits 16 (by decide) (· ∈ fieldChars) digit deviceId c digits
  · exact List.append_ne_nil_of_right_ne_nil _ Nat.toDigits_ne_nil

def bannerLines : List ConsoleLine :=
  [.banner "", .banner "========================================",
    .banner "Asymmetric Entropy Capsule Bootstrap"]

theorem client_main_finishes (plain : env.Plain) (retained : RetainedCounter) :
    Finishes ((startTrace retained).printAll bannerLines) (clientMain env retained) := by
  have opened : Adds ((startTrace retained).printAll bannerLines)
      ((startTrace retained).printAll
        [.banner "", .banner "========================================",
          .banner "Asymmetric Entropy Capsule Bootstrap",
          .banner ("Profile: " ++ profile.name),
          .banner ("Server: " ++ env.serverIp ++ ":" ++ toString env.serverPort),
          .banner "========================================",
          .tagged .tebMeta ["bootstrap_state", "unseeded"]]) := by
    refine ⟨_, rfl, ?_⟩
    simp only [List.forall_mem_cons]
    exact ⟨.profile profile, .server _ plain.server, .rule, state_ordinary (by decide),
      List.forall_mem_nil _⟩
  have refill : ∀ line ∈ (if env.disableLocalRefill then
      [.tagged .tebMeta ["local_hw_refill", "disabled_after_init"],
        .tagged .tebMeta ["local_credit", "discarded_for_capsule_only_benchmark"]]
      else [.tagged .tebMeta ["local_hw_refill", "enabled"]] : List ConsoleLine), Ordinary line := by
    have note (key value : String) (plainKey : PlainField key.toList)
        (plainValue : PlainField value.toList) (other : key.toList ∉ derivedKeys ∧
          key.toList ∉ measuredKeys ∧ key.toList ≠ "result".toList) :
        Ordinary (.tagged .tebMeta [key, value]) :=
      keyed_ordinary (by decide) plainKey plainValue other
    split_ifs <;> simp only [List.forall_mem_cons]
    · exact ⟨note _ _ (by decide) (by decide) (by decide),
        note _ _ (by decide) (by decide) (by decide), List.forall_mem_nil _⟩
    · exact ⟨note _ _ (by decide) (by decide) (by decide),
        List.forall_mem_nil _⟩
  have booted : ∀ line ∈ pufLines env ++
      [.tagged .tebMeta ["device_id", "0x" ++ String.ofList (Nat.toDigits 16 env.deviceId.toNat)],
        .tagged .tebMeta ["boot_counter", toString (nextBootCounter retained).1.toNat]] ++
      reportHeap "before_wifi" env.heapBeforeWifi ++
      [metricLine "pre_wifi_ms" (env.uptime 2 - env.uptime 0)], Ordinary line := by
    simp only [List.forall_mem_append, List.forall_mem_cons]
    exact ⟨⟨⟨puf_lines_ordinary env, keyed_ordinary (by decide) (by decide) (device_id_field _) (by decide),
      keyed_ordinary (by decide) (by decide) (nat_field _) (by decide),
      List.forall_mem_nil _⟩, report_heap_ordinary (by decide) _⟩,
      metric_ordinary _ (by decide) (by decide), List.forall_mem_nil _⟩
  have counted := opened.retain (nextBootCounter retained).2
  unfold clientMain
  dsimp only
  by_cases ready : env.deviceReady = false
  · rw [if_pos ready]
    exact (opened.print (.error (.one (by decide)) (by decide))).stops
  · rw [if_neg ready]
    by_cases kept : env.disableLocalRefill = true ∧ env.discardCreditRet ≠ 0
    · rw [if_pos kept]
      exact (opened.print (err_ordinary _ (by decide) (by decide))).stops
    · rw [if_neg kept]
      exact ((counted.printAll refill).printAll booted).behind (join_network_finishes env plain _ _)

end Run

end BootEntropy.Capsule
