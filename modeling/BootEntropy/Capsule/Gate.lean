import BootEntropy.Capsule.Client

/-!
# The capsule gate

Everything between the network and `entropy_add_entropy`. `CapsuleGate` lists
what must hold of the received bytes and of the library answers;
`accept_capsule_cases` says that `accept_capsule` injects exactly then. The run
of `main` adds the exchange before it and the two success lines after it.
-/

namespace BootEntropy.Capsule

open BootEntropy.Lib

set_option autoImplicit false

/-! ## Library answers -/

/-- Every wolfSSL step of the verification returned zero and the flag was set. -/
structure VerifyCall.Accepted (profile : Profile) (call : VerifyCall) : Prop where
  keyAllocated : call.keyAllocated = true
  initRet : call.initRet = 0
  levelRet : profile = .pqMlkem512Mldsa44 → call.levelRet = 0
  importRet : call.importRet = 0
  verifyRet : call.verifyRet = 0
  verify : call.verify = 1

theorem first_failure_eq_zero_iff (rets : List Int) :
    firstFailure rets = 0 ↔ ∀ ret ∈ rets, ret = 0 := by
  induction rets with
  | nil => simp [firstFailure]
  | cons ret later ih =>
      by_cases failed : ret = 0
      · simp [firstFailure, failed, ih]
      · simp [firstFailure, failed]

theorem teb_sha256_of_le {inLen : Nat} (fits : inLen ≤ uint32Max) (wcRet : Int) :
    tebSha256 inLen wcRet = wcRet := by
  simp [tebSha256, Nat.not_lt.mpr fits]

theorem teb_verify_ed25519_iff {msgLen : Nat} (fits : msgLen ≤ uint32Max) (call : VerifyCall) :
    tebVerifyEd25519 msgLen call = 0 ↔ call.Accepted .devEd25519PufBeacon := by
  have chain := first_failure_eq_zero_iff [call.initRet, call.importRet, call.verifyRet]
  simp only [List.mem_cons, List.not_mem_nil, or_false, forall_eq_or_imp, forall_eq] at chain
  simp only [tebVerifyEd25519, Nat.not_lt.mpr fits, if_false]
  constructor
  · intro accepted
    split_ifs at accepted with unallocated failed verified
    · exact absurd accepted (by decide)
    · exact absurd accepted failed
    · obtain ⟨init, imported, verifyRet⟩ := chain.mp (not_not.mp failed)
      exact ⟨by simpa using unallocated, init, by simp, imported, verifyRet, verified⟩
    · exact absurd accepted (by decide)
  · intro accepted
    have passed := chain.mpr ⟨accepted.initRet, accepted.importRet, accepted.verifyRet⟩
    simp [accepted.keyAllocated, passed, accepted.verify]

theorem teb_verify_mldsa44_iff {msgLen : Nat} (fits : msgLen ≤ uint32Max) (call : VerifyCall) :
    tebVerifyMldsa44 msgLen call = 0 ↔ call.Accepted .pqMlkem512Mldsa44 := by
  have chain := first_failure_eq_zero_iff
    [call.initRet, call.levelRet, call.importRet, call.verifyRet]
  simp only [List.mem_cons, List.not_mem_nil, or_false, forall_eq_or_imp, forall_eq] at chain
  simp only [tebVerifyMldsa44, Nat.not_lt.mpr fits, if_false]
  constructor
  · intro accepted
    split_ifs at accepted with unallocated failed verified
    · exact absurd accepted (by decide)
    · exact absurd accepted failed
    · obtain ⟨init, level, imported, verifyRet⟩ := chain.mp (not_not.mp failed)
      exact ⟨by simpa using unallocated, init, fun _ => level, imported, verifyRet, verified⟩
    · exact absurd accepted (by decide)
  · intro accepted
    have passed := chain.mpr ⟨accepted.initRet, accepted.levelRet rfl, accepted.importRet,
      accepted.verifyRet⟩
    simp [accepted.keyAllocated, passed, accepted.verify]

section Gate

variable {profile : Profile} (env : Environment profile)

theorem verify_signature_eq_zero_iff (capsule : Bytes) (fields : CapsuleFields) :
    verifySignature env capsule fields = 0 ↔
      (env.verify env.gatewayPublicKey (capsule.take profile.capsuleSignedLen)
        fields.signature).Accepted profile := by
  have short : (capsule.take profile.capsuleSignedLen).length ≤ uint32Max := by
    have bound : profile.capsuleSignedLen ≤ uint32Max := by cases profile <;> decide
    simp only [List.length_take]
    omega
  cases profile with
  | devEd25519PufBeacon => exact teb_verify_ed25519_iff short _
  | pqMlkem512Mldsa44 => exact teb_verify_mldsa44_iff short _

/-! ## The gate -/

/-- Everything that must hold before `accept_capsule` touches the pool: the
capsule is well formed and bound to this hello, the gateway's signature over its
signed part verified, and every derivation step returned zero. -/
structure CapsuleGate (hello : Bytes) (helloFields : HelloFields) (capsule : Bytes) : Prop where
  formed : WellFormed profile capsule
  deviceId : (loadedFields profile capsule).deviceId = helloFields.deviceId
  bootCounter : (loadedFields profile capsule).bootCounter = helloFields.bootCounter
  helloHashed : env.shaHelloRet = 0
  helloHash : (loadedFields profile capsule).helloHash = (env.sha256 hello).val
  signature : (env.verify env.gatewayPublicKey (capsule.take profile.capsuleSignedLen)
    (loadedFields profile capsule).signature).Accepted profile
  decapsulated : decapsulateRet env (loadedFields profile capsule) = 0
  sourceHashed : env.shaCiphertextRet = 0
  derived : env.hkdfRet = 0

theorem slice_length_le (bytes : Bytes) (off len : Nat) : (slice bytes off len).length ≤ len := by
  simp only [slice, List.length_take]
  omega

theorem shared_secret_source_short (capsule : Bytes) :
    (sharedSecretSource profile (loadedFields profile capsule)).length ≤ uint32Max := by
  cases profile with
  | devEd25519PufBeacon => exact (slice_length_le _ _ _).trans (by decide)
  | pqMlkem512Mldsa44 => exact (slice_length_le _ _ _).trans (by decide)

theorem seed_salt_short (capsule : Bytes) :
    (seedSalt env (loadedFields profile capsule)).length ≤ uint32Max := by
  have digest := (env.sha256 (sharedSecretSource profile (loadedFields profile capsule))).property
  have embedded : (loadedFields profile capsule).helloHash.length ≤ tebHashSize := by
    cases profile <;> exact slice_length_le _ _ _
  simp only [seedSalt, List.length_append, digest, tebHashSize, uint32Max] at embedded ⊢
  omega

theorem seed_ikm_short (puf : PufSample) (capsule : Bytes) :
    (seedIkm env puf (loadedFields profile capsule)).length ≤ uint32Max := by
  have secret : (sharedSecret env (loadedFields profile capsule)).length ≤ 32 := by
    cases profile with
    | devEd25519PufBeacon => exact slice_length_le _ _ _
    | pqMlkem512Mldsa44 => exact env.kemSharedSecret.property.le
  have sram := puf.sramSecret.property
  have timing := puf.timingSecret.property
  simp only [seedIkm, List.length_append, sram, timing, tebHashSize, uint32Max]
  omega

/-- The length guards of `teb_hkdf_sha256` never fire here. -/
theorem teb_hkdf_ret (puf : PufSample) (capsule : Bytes) :
    tebHkdfSha256 (seedIkm env puf (loadedFields profile capsule)).length
      (seedSalt env (loadedFields profile capsule)).length (hkdfInfo profile).length
      (derivedSeed env puf (loadedFields profile capsule)).val.length env.hkdfRet = env.hkdfRet := by
  have ikm := Nat.not_lt.mpr (seed_ikm_short env puf capsule)
  have salt := Nat.not_lt.mpr (seed_salt_short env capsule)
  have info : ¬uint32Max < (hkdfInfo profile).length := by cases profile <;> decide
  have seed : ¬uint32Max < (derivedSeed env puf (loadedFields profile capsule)).val.length := by
    rw [(derivedSeed env puf (loadedFields profile capsule)).property]
    decide
  simp [tebHkdfSha256, ikm, salt, info, seed]

/-! ## What the trace operations touch -/

@[simp] theorem print_console (trace : Trace) (line : ConsoleLine) :
    (trace.print line).console = trace.console ++ [line] := rfl

@[simp] theorem print_injected (trace : Trace) (line : ConsoleLine) :
    (trace.print line).injected = trace.injected := rfl

@[simp] theorem print_all_console (trace : Trace) (lines : List ConsoleLine) :
    (trace.printAll lines).console = trace.console ++ lines := rfl

@[simp] theorem print_all_injected (trace : Trace) (lines : List ConsoleLine) :
    (trace.printAll lines).injected = trace.injected := rfl

@[simp] theorem inject_console (trace : Trace) (seed : Bytes) (creditBits : Nat) :
    (trace.inject seed creditBits).console = trace.console := rfl

@[simp] theorem inject_injected (trace : Trace) (seed : Bytes) (creditBits : Nat) :
    (trace.inject seed creditBits).injected = trace.injected ++ [(seed, creditBits)] := rfl

/-! ## `accept_capsule` -/

theorem derive_and_inject_cases (puf : PufSample) (capsule : Bytes) (trace : Trace) :
    let fields := loadedFields profile capsule
    let result := deriveAndInject env puf fields trace
    let derives := decapsulateRet env fields = 0 ∧ env.shaCiphertextRet = 0 ∧ env.hkdfRet = 0
    (derives ∧ result.1.injected =
        trace.injected ++ [((derivedSeed env puf fields).val, tebCapsuleCreditBits)] ∧
        result.2 = env.addEntropyRet) ∨
      (¬derives ∧ result.1.injected = trace.injected ∧ result.2 ≠ 0) := by
  intro fields result derives
  have hkdf := teb_hkdf_ret env puf capsule
  have sha := teb_sha256_of_le (@shared_secret_source_short profile capsule)
    env.shaCiphertextRet
  simp only [result, derives, fields, deriveAndInject, hkdf, sha]
  split_ifs with decapsulation hashing derivation adding
  · exact .inr ⟨fun passed => decapsulation passed.1, rfl, decapsulation⟩
  · exact .inr ⟨fun passed => hashing passed.2.1, rfl, hashing⟩
  · exact .inr ⟨fun passed => derivation passed.2.2, rfl, derivation⟩
  · push Not at decapsulation hashing derivation
    exact .inl ⟨⟨decapsulation, hashing, derivation⟩, rfl, rfl⟩
  · push Not at decapsulation hashing derivation adding
    exact .inl ⟨⟨decapsulation, hashing, derivation⟩, rfl, adding.symm⟩

theorem accept_capsule_cases (hello : Bytes) (helloFields : HelloFields) (puf : PufSample)
    (capsule : Bytes) (trace : Trace) (helloLength : hello.length = tebHelloLen) :
    let result := acceptCapsule env hello helloFields puf capsule trace
    (CapsuleGate env hello helloFields capsule ∧ result.1.injected = trace.injected ++
        [((derivedSeed env puf (loadedFields profile capsule)).val, tebCapsuleCreditBits)] ∧
        result.2 = env.addEntropyRet) ∨
      (¬CapsuleGate env hello helloFields capsule ∧ result.1.injected = trace.injected ∧
        result.2 ≠ 0) := by
  intro result
  have short : hello.length ≤ uint32Max := by
    rw [helloLength]
    decide
  have sha := teb_sha256_of_le short env.shaHelloRet
  rcases teb_parse_capsule_cases profile capsule with ⟨formed, parsed⟩ | ⟨malformed, ret, parsed, negative⟩
  · simp only [result, acceptCapsule, parsed, sha]
    split_ifs with selected binding hashing mismatch signature
    · exact absurd formed.selectedProfile selected
    · exact .inr ⟨fun gate => binding.elim (· gate.deviceId) (· gate.bootCounter), rfl,
        neg_ne_zero.mpr (by decide)⟩
    · exact .inr ⟨fun gate => hashing gate.helloHashed, rfl, hashing⟩
    · exact .inr ⟨fun gate => mismatch gate.helloHash.symm, rfl, neg_ne_zero.mpr (by decide)⟩
    · refine .inr ⟨fun gate => signature ?_, rfl, signature⟩
      exact (verify_signature_eq_zero_iff env capsule _).mpr gate.signature
    · push Not at binding hashing mismatch signature
      have verified := (verify_signature_eq_zero_iff env capsule _).mp signature
      rcases derive_and_inject_cases env puf capsule
        (trace.print (metricLine "verify_us" (env.cycToUs (env.cycle 4 - env.cycle 3)))) with
        ⟨⟨decapsulated, sourceHashed, derived⟩, injected, ret⟩ | ⟨stuck, injected, ret⟩
      · exact .inl ⟨⟨formed, binding.1, binding.2, hashing, mismatch.symm, verified, decapsulated,
          sourceHashed, derived⟩, injected, ret⟩
      · exact .inr ⟨fun gate => stuck ⟨gate.decapsulated, gate.sourceHashed, gate.derived⟩,
          injected, ret⟩
  · simp only [result, acceptCapsule, parsed]
    exact .inr ⟨fun gate => malformed gate.formed, rfl, by omega⟩

/-! ## The two success lines -/

theorem success_ne_tagged {line : ConsoleLine} (success : line = readyLine ∨ line = seededLine)
    {tag : Tag} {key : String} (fields : List String)
    (notState : tag = .tebMeta → key ≠ "bootstrap_state")
    (notResult : tag = .tebResult → key ≠ "seeded") :
    line ≠ .tagged tag (key :: fields) := by
  rintro rfl
  rcases success with same | same
  · simp only [readyLine, ConsoleLine.tagged.injEq, List.cons.injEq] at same
    exact notState same.1 same.2.1
  · simp only [seededLine, ConsoleLine.tagged.injEq, List.cons.injEq] at same
    exact notResult same.1 same.2.1

theorem success_ne_err {line : ConsoleLine} (success : line = readyLine ∨ line = seededLine)
    (key : String) (ret : Int) : line ≠ errLine key ret :=
  success_ne_tagged success _ (by simp) (by simp)

theorem success_ne_metric {line : ConsoleLine} (success : line = readyLine ∨ line = seededLine)
    (key : String) (value : UInt32) : line ≠ metricLine key value :=
  success_ne_tagged success _ (by simp) (by simp)

theorem derive_and_inject_quiet (puf : PufSample) (fields : CapsuleFields) (trace : Trace)
    (line : ConsoleLine) (success : line = readyLine ∨ line = seededLine) :
    line ∈ (deriveAndInject env puf fields trace).1.console ↔ line ∈ trace.console := by
  have err := success_ne_err success
  have metric := success_ne_metric success
  have kem : line ∉ decapsulateLines env := by
    cases profile <;> simp [decapsulateLines, metric]
  have report (tag : Tag) (key value : String) (notState : tag = .tebMeta → key ≠ "bootstrap_state")
      (notResult : tag = .tebResult → key ≠ "seeded") : line ≠ .tagged tag [key, value] :=
    success_ne_tagged success _ notState notResult
  have commit (digits : String) : line ≠ .tagged .tebSeedCommit [digits] :=
    success_ne_tagged success _ (by simp) (by simp)
  simp only [deriveAndInject]
  split_ifs
  · simp [err, kem]
  · simp [kem]
  · simp [err, metric, kem]
  · simp [err, metric, kem]
  · simp [metric, kem, report, commit, tebPrintHex]

theorem accept_capsule_quiet (hello : Bytes) (helloFields : HelloFields) (puf : PufSample)
    (capsule : Bytes) (trace : Trace) (line : ConsoleLine)
    (success : line = readyLine ∨ line = seededLine) :
    line ∈ (acceptCapsule env hello helloFields puf capsule trace).1.console ↔
      line ∈ trace.console := by
  have err := success_ne_err success
  have metric := success_ne_metric success
  have note (key : String) (fields : List String) : line ≠ .tagged .tebErr (key :: fields) :=
    success_ne_tagged success _ (by simp) (by simp)
  unfold acceptCapsule
  split
  · simp [err]
  · dsimp only
    split_ifs
    · simp [note]
    · simp [note]
    · rfl
    · simp [note]
    · simp [err, metric]
    · simp [derive_and_inject_quiet env _ _ _ line success, metric]

/-! ## The exchange and the whole run -/

theorem request_capsule_ok (ok : (requestCapsule env).2 = 0) :
    env.recv.ret = profile.capsuleLen := by
  unfold requestCapsule at ok
  dsimp only at ok
  split_ifs at ok with address socket connect send sendFailed poll pollFailed recv recvFailed
  · exact absurd ok (by decide)
  · exact absurd (neg_eq_zero.mp ok) (env.socket.errnoSet socket)
  · exact absurd (neg_eq_zero.mp ok) (env.connect.errnoSet connect)
  · exact absurd (neg_eq_zero.mp ok) (env.send.errnoSet sendFailed)
  · exact absurd (neg_eq_zero.mp ok) (by decide)
  · exact absurd (neg_eq_zero.mp ok) (by decide)
  · exact absurd (neg_eq_zero.mp ok) (env.poll.errnoSet pollFailed)
  · exact absurd (neg_eq_zero.mp ok) (env.recv.errnoSet recvFailed)
  · exact absurd (neg_eq_zero.mp ok) (by decide)
  · exact not_not.mp recv

theorem request_capsule_quiet {line : ConsoleLine} (success : line = readyLine ∨ line = seededLine) :
    line ∉ (requestCapsule env).1 := by
  have metric := success_ne_metric success
  have net (fields : List String) (key : String) : line ≠ .tagged .tebNet (key :: fields) :=
    success_ne_tagged success _ (by simp) (by simp)
  unfold requestCapsule
  dsimp only
  split_ifs <;> simp [net, metric]

theorem report_heap_quiet {line : ConsoleLine} (success : line = readyLine ∨ line = seededLine)
    (label : String) (stats : HeapStats) : line ∉ reportHeap label stats := by
  have heap (kind value : String) (kinds : kind = "heap_free_" ∨ kind = "heap_used_" ∨
      kind = "heap_peak_") : line ≠ .tagged .tebMeta [kind ++ label, value] := by
    refine success_ne_tagged success _ (fun _ same => ?_) (by simp)
    have chars := congrArg String.toList same
    rcases kinds with rfl | rfl | rfl <;> simp at chars
  rcases stats with _ | ⟨free, used, peak⟩
  · simp [reportHeap]
  · simp [reportHeap, heap]

/-- What the capsule path did to the pool and to the success lines between two
points of a run: a granted capsule is injected once, anything else changes neither. -/
def CapsulePath (helloFields : HelloFields) (before after : Trace) : Prop :=
  (env.recv.ret = profile.capsuleLen ∧
      CapsuleGate env (tebBuildHello profile helloFields) helloFields env.capsule.val ∧
      after.injected = before.injected ++
        [((derivedSeed env env.puf (loadedFields profile env.capsule.val)).val,
          tebCapsuleCreditBits)] ∧
      ∀ line, line = readyLine ∨ line = seededLine →
        (line ∈ after.console ↔ line ∈ before.console ∨ env.addEntropyRet = 0)) ∨
    (after.injected = before.injected ∧
      ∀ line, line = readyLine ∨ line = seededLine →
        (line ∈ after.console ↔ line ∈ before.console))

theorem exchange_and_accept_path (helloFields : HelloFields) (trace : Trace) :
    CapsulePath env helloFields trace (exchangeAndAccept env helloFields trace).1 := by
  have unseeded {line : ConsoleLine} (success : line = readyLine ∨ line = seededLine) :
      line ≠ failedUnseededLine := by
    rcases success with rfl | rfl <;> simp [readyLine, seededLine, failedUnseededLine]
  have failed {line : ConsoleLine} (success : line = readyLine ∨ line = seededLine)
      (code : String) : line ≠ .tagged .tebResult ["failed", code] :=
    success_ne_tagged success _ (by simp) (by simp)
  by_cases request : (requestCapsule env).2 = 0
  · have quiet (line : ConsoleLine) (success : line = readyLine ∨ line = seededLine) :
        line ∈ (acceptCapsule env (tebBuildHello profile helloFields) helloFields env.puf
          env.capsule.val (trace.printAll (requestCapsule env).1)).1.console ↔
          line ∈ trace.console := by
      rw [accept_capsule_quiet env _ _ _ _ _ line success]
      simp [request_capsule_quiet env success]
    simp only [exchangeAndAccept, request, ne_eq, not_true_eq_false, if_false]
    rcases accept_capsule_cases env (tebBuildHello profile helloFields) helloFields env.puf
      env.capsule.val (trace.printAll (requestCapsule env).1)
      (teb_build_hello_length profile helloFields) with
      ⟨gate, injected, ret⟩ | ⟨closed, injected, ret⟩
    · refine .inl ⟨request_capsule_ok env request, gate, ?_, fun line success => ?_⟩
      · split_ifs <;> exact injected
      · have metric := success_ne_metric success
        have before := quiet line success
        by_cases added : env.addEntropyRet = 0
        · rw [ret, added]
          rcases success with rfl | rfl <;> simp
        · rw [ret]
          simpa [added, metric, unseeded success, failed success] using before
    · refine .inr ⟨?_, fun line success => ?_⟩
      · rw [if_pos ret]
        exact injected
      · have metric := success_ne_metric success
        rw [if_pos ret]
        simpa [metric, unseeded success, failed success] using quiet line success
  · simp only [exchangeAndAccept, request, ne_eq, not_false_eq_true, if_true]
    refine .inr ⟨rfl, fun line success => ?_⟩
    have err := success_ne_err success
    simp [request_capsule_quiet env success, err, unseeded success]

theorem capsule_path_after_lines {helloFields : HelloFields} {before middle after : Trace}
    (path : CapsulePath env helloFields middle after)
    (injected : middle.injected = before.injected)
    (quiet : ∀ line, line = readyLine ∨ line = seededLine →
      (line ∈ middle.console ↔ line ∈ before.console)) :
    CapsulePath env helloFields before after := by
  rcases path with ⟨received, gate, added, announced⟩ | ⟨same, announced⟩
  · refine .inl ⟨received, gate, by rw [added, injected], fun line success => ?_⟩
    rw [announced line success, quiet line success]
  · refine .inr ⟨same.trans injected, fun line success => ?_⟩
    rw [announced line success, quiet line success]

theorem join_network_path (helloFields : HelloFields) (trace : Trace) :
    CapsulePath env helloFields trace (joinNetwork env helloFields trace).1 := by
  have wifi {line : ConsoleLine} (success : line = readyLine ∨ line = seededLine)
      (lines : List WifiLine) : line ∉ lines.map ConsoleLine.wifi := by
    rcases success with rfl | rfl <;> simp [readyLine, seededLine]
  have unseeded {line : ConsoleLine} (success : line = readyLine ∨ line = seededLine) :
      line ≠ failedUnseededLine := by
    rcases success with rfl | rfl <;> simp [readyLine, seededLine, failedUnseededLine]
  have waiting {line : ConsoleLine} (success : line = readyLine ∨ line = seededLine) :
      line ≠ .tagged .tebMeta ["bootstrap_state", "waiting_capsule"] := by
    rcases success with rfl | rfl <;> simp [readyLine, seededLine]
  simp only [joinNetwork]
  split_ifs
  · refine .inr ⟨rfl, fun line success => ?_⟩
    simp [wifi success, success_ne_metric success, success_ne_err success, unseeded success]
  · refine .inr ⟨rfl, fun line success => ?_⟩
    simp [wifi success, success_ne_metric success, success_ne_err success, unseeded success]
  · refine .inr ⟨rfl, fun line success => ?_⟩
    simp [wifi success, success_ne_metric success, success_ne_err success, unseeded success]
  · refine capsule_path_after_lines env (exchange_and_accept_path env helloFields _) rfl
      fun line success => ?_
    simp [wifi success, success_ne_metric success, report_heap_quiet success, waiting success]

theorem client_main_path (retained : RetainedCounter) :
    CapsulePath env (bootHello env (nextBootCounter retained).1) (startTrace retained)
      (clientMain env retained).1 := by
  have banner {line : ConsoleLine} (success : line = readyLine ∨ line = seededLine)
      (text : String) : line ≠ .banner text := by
    rcases success with rfl | rfl <;> simp [readyLine, seededLine]
  have state {line : ConsoleLine} (success : line = readyLine ∨ line = seededLine) :
      line ≠ .tagged .tebMeta ["bootstrap_state", "unseeded"] := by
    rcases success with rfl | rfl <;> simp [readyLine, seededLine]
  have report {line : ConsoleLine} (success : line = readyLine ∨ line = seededLine) (tag : Tag)
      (key : String) (fields : List String) (notState : tag = .tebMeta → key ≠ "bootstrap_state")
      (notResult : tag = .tebResult → key ≠ "seeded") : line ≠ .tagged tag (key :: fields) :=
    success_ne_tagged success _ notState notResult
  simp only [clientMain]
  split_ifs
  · refine .inr ⟨rfl, fun line success => ?_⟩
    simp [banner success, state success, report success]
  · refine .inr ⟨rfl, fun line success => ?_⟩
    simp [banner success, state success, success_ne_err success]
  · refine capsule_path_after_lines env (join_network_path env _ _) rfl fun line success => ?_
    simp [banner success, state success, report success, pufLines, report_heap_quiet success,
      success_ne_metric success]
  · refine capsule_path_after_lines env (join_network_path env _ _) rfl fun line success => ?_
    simp [banner success, state success, report success, pufLines, report_heap_quiet success,
      success_ne_metric success]

/-- **The capsule gate.** In one run of the client the pool receives at most one
32-byte seed, with 128 credit bits, and only behind the whole gate. The two
success lines appear exactly when the call was made and returned zero. -/
theorem capsule_gate (retained : RetainedCounter) :
    let run := (clientMain env retained).1
    let hello := bootHello env (nextBootCounter retained).1
    run.injected.length ≤ 1 ∧
      (∀ call ∈ run.injected, call.1.length = 32 ∧ call.2 = 128) ∧
      (run.injected ≠ [] → env.recv.ret = profile.capsuleLen ∧
        CapsuleGate env (tebBuildHello profile hello) hello env.capsule.val) ∧
      (readyLine ∈ run.console ↔ run.injected ≠ [] ∧ env.addEntropyRet = 0) ∧
      (seededLine ∈ run.console ↔ run.injected ≠ [] ∧ env.addEntropyRet = 0) := by
  intro run hello
  rcases client_main_path env retained with
    ⟨received, gate, injected, announced⟩ | ⟨untouched, announced⟩
  · have one : run.injected = [((derivedSeed env env.puf
        (loadedFields profile env.capsule.val)).val, tebCapsuleCreditBits)] := injected
    have ready := announced readyLine (.inl rfl)
    have seeded := announced seededLine (.inr rfl)
    simp only [startTrace, List.not_mem_nil, false_or] at ready seeded
    have seedLength := (derivedSeed env env.puf (loadedFields profile env.capsule.val)).property
    rw [one]
    refine ⟨by simp, fun call member => ?_, fun _ => ⟨received, gate⟩, ?_, ?_⟩
    · rw [List.mem_singleton.mp member]
      exact ⟨seedLength, rfl⟩
    · simpa using ready
    · simpa using seeded
  · have none : run.injected = [] := untouched
    have ready := announced readyLine (.inl rfl)
    have seeded := announced seededLine (.inr rfl)
    simp only [startTrace, List.not_mem_nil, iff_false] at ready seeded
    rw [none]
    refine ⟨by simp, by simp, fun nonempty => absurd rfl nonempty, ?_, ?_⟩
    · simpa using ready
    · simpa using seeded

end Gate

end BootEntropy.Capsule
