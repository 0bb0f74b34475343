import BootEntropy.Capsule.Gate

/-!
# What the console reveals about the injected seed

Two runs of `accept_capsule` on one capsule that differ in their secrets only.
Up to the last line both consoles are one function of public data. The line
tagged `TEB_SEED_COMMIT` is the seed itself in hexadecimal, so equal consoles
force equal seeds, whatever hash stands behind the commitment.
-/

namespace BootEntropy.Capsule

open BootEntropy.Lib

set_option autoImplicit false

/-- The secret inputs of `accept_capsule`. -/
structure Secrets where
  sram : Block tebHashSize
  timing : Block tebHashSize
  kem : Block tebMlkem512SharedSecretSize

def Environment.withSecrets {profile : Profile} (env : Environment profile) (secrets : Secrets) :
    Environment profile :=
  { env with kemSharedSecret := secrets.kem }

def PufSample.withSecrets (puf : PufSample) (secrets : Secrets) : PufSample :=
  { puf with sramSecret := secrets.sram, timingSecret := secrets.timing }

section TwoRuns

variable {profile : Profile} (env : Environment profile) (hello : Block tebHelloLen)
  (helloFields : HelloFields) (puf : PufSample) (capsule : Bytes) (trace : Trace)

def acceptConsole (secrets : Secrets) : List String :=
  ((acceptCapsule (env.withSecrets secrets) hello.val helloFields (puf.withSecrets secrets) capsule
    trace).1.console).map ConsoleLine.text

def acceptSeed (secrets : Secrets) : Bytes :=
  (derivedSeed (env.withSecrets secrets) (puf.withSecrets secrets)
    (loadedFields profile capsule)).val

def derivationLines (fields : CapsuleFields) : List ConsoleLine :=
  decapsulateLines env ++
    if decapsulateRet env fields ≠ 0 then [errLine "mlkem_decaps" (decapsulateRet env fields)]
    else if env.shaCiphertextRet ≠ 0 then []
    else [metricLine "hkdf_us" (env.cycToUs (env.cycle 8 - env.cycle 7))] ++
      if env.hkdfRet ≠ 0 then [errLine "hkdf" env.hkdfRet]
      else [metricLine "entropy_add_us" (env.cycToUs (env.cycle 10 - env.cycle 9))] ++
        if env.addEntropyRet ≠ 0 then [errLine "entropy_add" env.addEntropyRet]
        else
          [.tagged .tebMeta ["capsule_input_bytes", toString tebBootSeedSize],
            .tagged .tebMeta ["capsule_credit_bits", toString tebCapsuleCreditBits],
            .tagged .tebMeta ["gateway_time_ms", toString fields.gatewayTimeMs.toNat],
            .tagged .tebMeta ["gateway_sequence", toString fields.sequence.toNat]]

/-- Every check, library call and pool call on the way to the seed line succeeds.
None of them looks at the secrets. -/
def ReachesSeedLine : Prop :=
  CapsuleGate env hello.val helloFields capsule ∧ env.addEntropyRet = 0

theorem derive_and_inject_console (start : Trace)
    (derives : decapsulateRet env (loadedFields profile capsule) = 0 ∧ env.shaCiphertextRet = 0 ∧
      env.hkdfRet = 0 ∧ env.addEntropyRet = 0) :
    (deriveAndInject env puf (loadedFields profile capsule) start).1.console =
      start.console ++ derivationLines env (loadedFields profile capsule) ++
        [tebPrintHex .tebSeedCommit
          (derivedSeed env puf (loadedFields profile capsule)).val] := by
  have hkdf := teb_hkdf_ret env puf capsule
  have sha := teb_sha256_of_le (@shared_secret_source_short profile capsule)
    env.shaCiphertextRet
  have seed := (derivedSeed env puf (loadedFields profile capsule)).property
  simp only [deriveAndInject, derivationLines, hkdf, sha]
  simp [seed, derives.1, derives.2.1, derives.2.2.1, derives.2.2.2]

theorem derive_and_inject_console_stopped (start : Trace)
    (stops : ¬(decapsulateRet env (loadedFields profile capsule) = 0 ∧ env.shaCiphertextRet = 0 ∧
      env.hkdfRet = 0 ∧ env.addEntropyRet = 0)) :
    (deriveAndInject env puf (loadedFields profile capsule) start).1.console =
      start.console ++ derivationLines env (loadedFields profile capsule) := by
  have hkdf := teb_hkdf_ret env puf capsule
  have sha := teb_sha256_of_le (@shared_secret_source_short profile capsule)
    env.shaCiphertextRet
  simp only [deriveAndInject, derivationLines, hkdf, sha]
  split_ifs with decapsulation hashing derivation adding
  · simp
  · simp
  · simp
  · simp
  · push Not at decapsulation hashing derivation adding
    exact absurd ⟨decapsulation, hashing, derivation, adding⟩ stops

/-- The part of the console that both runs share. -/
def publicLines : List ConsoleLine :=
  match tebParseCapsule profile capsule with
  | .error ret => [errLine "parse_capsule" ret]
  | .ok fields =>
    if fields.profile ≠ profile.code then [.tagged .tebErr ["profile", toString fields.profile.toNat]]
    else if fields.deviceId ≠ helloFields.deviceId ∨
        fields.bootCounter ≠ helloFields.bootCounter then [.tagged .tebErr ["capsule_binding"]]
    else if tebSha256 hello.val.length env.shaHelloRet ≠ 0 then []
    else if (env.sha256 hello.val).val ≠ fields.helloHash then
      [.tagged .tebErr ["hello_hash_mismatch"]]
    else [metricLine "verify_us" (env.cycToUs (env.cycle 4 - env.cycle 3))] ++
      if verifySignature env capsule fields ≠ 0 then
        [errLine "signature" (verifySignature env capsule fields)]
      else derivationLines env fields

theorem accept_capsule_console_stopped
    (stops : ¬ReachesSeedLine env hello helloFields capsule) :
    (acceptCapsule env hello.val helloFields puf capsule trace).1.console =
      trace.console ++ publicLines env hello helloFields capsule := by
  have short : hello.val.length ≤ uint32Max := by
    rw [hello.property]
    decide
  have sha := teb_sha256_of_le short env.shaHelloRet
  rcases teb_parse_capsule_cases profile capsule with ⟨formed, parsed⟩ | ⟨_, ret, parsed, _⟩
  · simp only [acceptCapsule, publicLines, parsed]
    split_ifs with selected binding hashing mismatch signature
    · rfl
    · rfl
    · simp
    · rfl
    · simp
    · push Not at selected binding hashing mismatch signature
      rw [derive_and_inject_console_stopped]
      · simp
      · intro derives
        have verified := (verify_signature_eq_zero_iff env capsule _).mp signature
        exact stops ⟨⟨formed, binding.1, binding.2, sha ▸ hashing, mismatch.symm, verified,
          derives.1, derives.2.1, derives.2.2.1⟩, derives.2.2.2⟩
  · simp only [acceptCapsule, publicLines, parsed]
    rfl

theorem accept_capsule_console_reached (reached : ReachesSeedLine env hello helloFields capsule) :
    (acceptCapsule env hello.val helloFields puf capsule trace).1.console =
      trace.console ++ publicLines env hello helloFields capsule ++
        [tebPrintHex .tebSeedCommit
          (derivedSeed env puf (loadedFields profile capsule)).val] := by
  obtain ⟨gate, added⟩ := reached
  have short : hello.val.length ≤ uint32Max := by
    rw [hello.property]
    decide
  have sha := teb_sha256_of_le short env.shaHelloRet
  have verified := (verify_signature_eq_zero_iff env capsule _).mpr gate.signature
  rcases teb_parse_capsule_cases profile capsule with ⟨formed, parsed⟩ | ⟨malformed, _⟩
  · have selected : (loadedFields profile capsule).profile = profile.code :=
      formed.selectedProfile
    have hashed : tebSha256 hello.val.length env.shaHelloRet = 0 := sha.trans gate.helloHashed
    simp only [acceptCapsule, publicLines, parsed, selected, gate.deviceId, gate.bootCounter,
      gate.helloHash, hashed, verified, ne_eq, not_true_eq_false, or_self, if_false]
    rw [derive_and_inject_console env puf capsule _
      ⟨gate.decapsulated, gate.sourceHashed, gate.derived, added⟩]
    simp
  · exact absurd gate.formed malformed

theorem decapsulate_ret_with_secrets (secrets : Secrets) (fields : CapsuleFields) :
    decapsulateRet (env.withSecrets secrets) fields = decapsulateRet env fields := by
  cases profile <;> rfl

theorem public_lines_with_secrets (secrets : Secrets) :
    publicLines (env.withSecrets secrets) hello helloFields capsule =
      publicLines env hello helloFields capsule := by
  cases profile <;> rfl

theorem reaches_seed_line_with_secrets (secrets : Secrets) :
    ReachesSeedLine (env.withSecrets secrets) hello helloFields capsule ↔
      ReachesSeedLine env hello helloFields capsule := by
  have same := decapsulate_ret_with_secrets env secrets (loadedFields profile capsule)
  constructor
  · intro ⟨gate, added⟩
    exact ⟨⟨gate.formed, gate.deviceId, gate.bootCounter, gate.helloHashed, gate.helloHash,
      gate.signature, same.symm.trans gate.decapsulated, gate.sourceHashed, gate.derived⟩, added⟩
  · intro ⟨gate, added⟩
    exact ⟨⟨gate.formed, gate.deviceId, gate.bootCounter, gate.helloHashed, gate.helloHash,
      gate.signature, same.trans gate.decapsulated, gate.sourceHashed, gate.derived⟩, added⟩

/-- Past the gate the console determines the seed, and before it the console
does not depend on the secrets at all. -/
theorem accept_console_eq_iff (left right : Secrets) :
    acceptConsole env hello helloFields puf capsule trace left =
        acceptConsole env hello helloFields puf capsule trace right ↔
      (ReachesSeedLine env hello helloFields capsule →
        acceptSeed env puf capsule left = acceptSeed env puf capsule right) := by
  have shared (secrets : Secrets) := public_lines_with_secrets env hello helloFields capsule secrets
  by_cases reached : ReachesSeedLine env hello helloFields capsule
  · have console (secrets : Secrets) : acceptConsole env hello helloFields puf capsule trace secrets =
        (trace.console ++ publicLines env hello helloFields capsule).map ConsoleLine.text ++
          ["[TEB_SEED_COMMIT] " ++ hexString (acceptSeed env puf capsule secrets)] := by
      rw [acceptConsole, accept_capsule_console_reached _ _ _ _ _ _
        ((reaches_seed_line_with_secrets env hello helloFields capsule secrets).mpr reached),
        shared, List.map_append]
      rfl
    rw [console left, console right]
    constructor
    · intro same _
      have lines := List.append_cancel_left same
      have digits : hexString (acceptSeed env puf capsule left) =
          hexString (acceptSeed env puf capsule right) := by
        have texts := congrArg String.toList (List.singleton_inj.mp lines)
        rw [String.toList_append, String.toList_append] at texts
        exact String.toList_inj.mp (List.append_cancel_left texts)
      have chars := congrArg String.toList digits
      simp only [hexString, String.toList_ofList] at chars
      exact hex_text_injective chars
    · intro same
      rw [same reached]
  · have console (secrets : Secrets) : acceptConsole env hello helloFields puf capsule trace secrets =
        (trace.console ++ publicLines env hello helloFields capsule).map ConsoleLine.text := by
      rw [acceptConsole, accept_capsule_console_stopped _ _ _ _ _ _
        (mt (reaches_seed_line_with_secrets env hello helloFields capsule secrets).mp reached),
        shared]
    rw [console left, console right]
    exact ⟨fun _ reaches => absurd reaches reached, fun _ => rfl⟩

/-- Equal commitments give equal consoles exactly where the run stops before the
seed line or the hash does not collide on the two seeds. -/
theorem console_depends_on_commitment_iff (left right : Secrets) :
    (env.sha256 (acceptSeed env puf capsule left) = env.sha256 (acceptSeed env puf capsule right) →
        acceptConsole env hello helloFields puf capsule trace left =
          acceptConsole env hello helloFields puf capsule trace right) ↔
      (ReachesSeedLine env hello helloFields capsule →
        env.sha256 (acceptSeed env puf capsule left) =
          env.sha256 (acceptSeed env puf capsule right) →
        acceptSeed env puf capsule left = acceptSeed env puf capsule right) := by
  rw [accept_console_eq_iff]
  exact ⟨fun discloses reached same => discloses same reached,
    fun separates same reached => separates reached same⟩

end TwoRuns

/-! ## A capsule that discloses two seeds with one commitment -/

/-- An accepted PQ capsule: the header `TEBC`, version 1, profile 2, signed length
832, and zeros. -/
def plainCapsule : Block Profile.pqMlkem512Mldsa44.capsuleLen :=
  ⟨[0x54, 0x45, 0x42, 0x43, 1, 2, 3, 0x40] ++ List.replicate 3244 0, by decide +kernel⟩

def plainSocketCall (ret : Int) : SocketCall :=
  ⟨ret, 5, fun _ => by decide⟩

def plainPuf : PufSample where
  sramSecret := zeroBlock tebHashSize
  sramCommitment := zeroBlock tebHashSize
  timingSecret := zeroBlock tebHashSize
  timingCommitment := zeroBlock tebHashSize
  sramOnes := 0
  sramTransitions := 0
  timingMinDelta := 0
  timingMaxDelta := 0
  timingSumDelta := 0

/-- Every call succeeds, every digest is zero, and HKDF returns the first half of
its input keying material. -/
def collidingEnvironment : Environment .pqMlkem512Mldsa44 where
  disableLocalRefill := true
  serverIp := "192.168.1.136"
  serverPort := 6767
  deviceId := 0
  deviceReady := true
  discardCreditRet := 0
  puf := plainPuf
  uptime := fun _ => 0
  cycle := fun _ => 0
  cycToUs := id
  heapBeforeWifi := none
  heapBeforeCapsule := none
  heapAfterCapsule := none
  wifiLines := []
  wifiRet := 0
  dhcpLines := []
  dhcpRet := 0
  ipv4Lines := []
  ipv4Ret := 0
  inetPton := 1
  socket := plainSocketCall 3
  connect := plainSocketCall 0
  send := plainSocketCall 88
  poll := plainSocketCall 1
  recv := plainSocketCall 3252
  capsule := plainCapsule
  sha256 := fun _ => zeroBlock tebHashSize
  shaHelloRet := 0
  shaCiphertextRet := 0
  gatewayPublicKey := []
  verify := fun _ _ _ => ⟨true, 0, 0, 0, 0, 1⟩
  decaps := fun _ => ⟨true, 0, 0, 0⟩
  kemSharedSecret := zeroBlock tebMlkem512SharedSecretSize
  kemLeftover := none
  hkdf := fun ikm _ _ =>
    if full : (ikm.take tebBootSeedSize).length = tebBootSeedSize then
      ⟨ikm.take tebBootSeedSize, full⟩
    else zeroBlock tebBootSeedSize
  hkdfRet := 0
  hkdfLeftover := none
  addEntropyRet := 0
  snapshotRet := 0
  snapshot := ⟨0, 0, 0⟩

def plainHello : HelloFields where
  deviceId := 0
  bootCounter := 0
  uptimeMs := 0
  sramCommitment := zeroBlock tebHashSize
  timingCommitment := zeroBlock tebHashSize

def plainHelloBytes : Block tebHelloLen :=
  ⟨tebBuildHello .pqMlkem512Mldsa44 plainHello, teb_build_hello_length _ _⟩

def sramSecrets (byte : UInt8) : Secrets where
  sram := ⟨List.replicate tebHashSize byte, List.length_replicate⟩
  timing := zeroBlock tebHashSize
  kem := zeroBlock tebMlkem512SharedSecretSize

theorem plain_capsule_reaches_seed_line :
    ReachesSeedLine collidingEnvironment plainHelloBytes plainHello plainCapsule.val where
  left :=
    { formed := ⟨plainCapsule.property, by decide +kernel, by decide +kernel, by decide +kernel,
        by decide +kernel⟩
      deviceId := by decide +kernel
      bootCounter := by decide +kernel
      helloHashed := rfl
      helloHash := by decide +kernel
      signature := ⟨rfl, rfl, fun _ => rfl, rfl, rfl, rfl⟩
      decapsulated := by decide +kernel
      sourceHashed := rfl
      derived := rfl }
  right := rfl

/-- Two SRAM secrets, one commitment, two different consoles. -/
theorem plain_capsule_discloses_seed :
    ¬(collidingEnvironment.sha256 (acceptSeed collidingEnvironment plainPuf plainCapsule.val
          (sramSecrets 0)) =
        collidingEnvironment.sha256 (acceptSeed collidingEnvironment plainPuf plainCapsule.val
          (sramSecrets 1)) →
      acceptConsole collidingEnvironment plainHelloBytes plainHello plainPuf
          plainCapsule.val (startTrace ⟨0, 0, 0⟩) (sramSecrets 0) =
        acceptConsole collidingEnvironment plainHelloBytes plainHello plainPuf
          plainCapsule.val (startTrace ⟨0, 0, 0⟩) (sramSecrets 1)) := by
  intro commits
  have seeds := (accept_console_eq_iff collidingEnvironment plainHelloBytes plainHello
    plainPuf plainCapsule.val (startTrace ⟨0, 0, 0⟩) (sramSecrets 0) (sramSecrets 1)).mp
    (commits rfl) plain_capsule_reaches_seed_line
  exact absurd seeds (by decide +kernel)

end BootEntropy.Capsule
