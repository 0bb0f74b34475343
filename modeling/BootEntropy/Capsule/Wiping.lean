import BootEntropy.Capsule.Disclosure
import BootEntropy.Capsule.Servers

/-!
# What the two ends leave in their secret buffers

`accept_capsule` and the C server's `build_capsule` clear their secrets right
before they return zero. A return between the first write and that point leaves
what the library calls wrote.
-/

namespace BootEntropy.Capsule

open BootEntropy.Lib

set_option autoImplicit false

/-- A buffer that was never written, or holds only zeros. -/
def Wiped (buffer : Option Bytes) : Prop :=
  ∀ bytes ∈ buffer, ∀ byte ∈ bytes, byte = 0

instance (buffer : Option Bytes) : Decidable (Wiped buffer) :=
  inferInstanceAs (Decidable (∀ bytes ∈ buffer, ∀ byte ∈ bytes, byte = 0))

structure SecretBuffers.Wiped (buffers : SecretBuffers) : Prop where
  ikm : Capsule.Wiped buffers.ikm
  pqSharedSecret : Capsule.Wiped buffers.pqSharedSecret
  seed : Capsule.Wiped buffers.seed

/-- The buffers when `accept_capsule` is entered. -/
def SecretBuffers.unwritten : SecretBuffers where
  ikm := none
  pqSharedSecret := none
  seed := none

theorem wiped_none : Wiped none := by
  intro bytes none
  exact absurd none (by simp)

theorem wiped_some_iff (bytes : Bytes) : Wiped (some bytes) ↔ ∀ byte ∈ bytes, byte = 0 := by
  simp [Wiped]

theorem wiped_zeros (count : Nat) : Wiped (some (List.replicate count 0)) := by
  rw [wiped_some_iff]
  intro byte member
  exact List.eq_of_mem_replicate member

theorem unwritten_wiped : SecretBuffers.unwritten.Wiped :=
  ⟨wiped_none, wiped_none, wiped_none⟩

section Client

variable {profile : Profile} (env : Environment profile) (hello : Block tebHelloLen)
  (helloFields : HelloFields) (puf : PufSample) (capsule : Bytes) (trace : Trace)

/-- The checks in front of the first write: the capsule is well formed, bound to
this hello, and signed. -/
structure PassesChecks : Prop where
  formed : WellFormed profile capsule
  deviceId : (loadedFields profile capsule).deviceId = helloFields.deviceId
  bootCounter : (loadedFields profile capsule).bootCounter = helloFields.bootCounter
  helloHashed : env.shaHelloRet = 0
  helloHash : (loadedFields profile capsule).helloHash = (env.sha256 hello.val).val
  signature : (env.verify env.gatewayPublicKey (capsule.take profile.capsuleSignedLen)
    (loadedFields profile capsule).signature).Accepted profile

def EveryCallSucceeds (fields : CapsuleFields) : Prop :=
  decapsulateRet env fields = 0 ∧ env.shaCiphertextRet = 0 ∧ env.hkdfRet = 0 ∧
    env.addEntropyRet = 0

/-- What the calls wrote into the buffers is zero anyway. HKDF and the copies into
`ikm` are reached when the two calls before them return zero. -/
def WritesZeros (fields : CapsuleFields) : Prop :=
  Wiped (decapsulateWrite env fields) ∧
    (decapsulateRet env fields = 0 ∧ env.shaCiphertextRet = 0 →
      Wiped (some (seedIkm env puf fields)) ∧ Wiped (hkdfWrite env puf fields env.hkdfRet))

theorem derive_and_inject_buffers_wiped_iff (start : Trace)
    (unwritten : start.buffers = .unwritten) :
    (deriveAndInject env puf (loadedFields profile capsule) start).1.buffers.Wiped ↔
      EveryCallSucceeds env (loadedFields profile capsule) ∨
        WritesZeros env puf (loadedFields profile capsule) := by
  have hkdf := teb_hkdf_ret env puf capsule
  have sha := teb_sha256_of_le (@shared_secret_source_short profile capsule)
    env.shaCiphertextRet
  simp only [deriveAndInject, EveryCallSucceeds, WritesZeros, hkdf, sha, unwritten]
  split_ifs with decapsulation hashing derivation adding
  · simp only [decapsulation, false_and, false_or, false_imp_iff, and_true]
    constructor
    · exact SecretBuffers.Wiped.pqSharedSecret
    · intro wiped
      exact ⟨wiped_none, wiped, wiped_none⟩
  · simp only [hashing, false_and, and_false, false_or, false_imp_iff, and_true]
    constructor
    · exact SecretBuffers.Wiped.pqSharedSecret
    · intro wiped
      exact ⟨wiped_none, wiped, wiped_none⟩
  · push Not at decapsulation hashing
    simp only [decapsulation, hashing, derivation, false_and, and_false, false_or, true_imp_iff,
      and_self]
    constructor
    · intro wiped
      exact ⟨wiped.pqSharedSecret, wiped.ikm, wiped.seed⟩
    · rintro ⟨secret, ikm, seed⟩
      exact ⟨ikm, secret, seed⟩
  · push Not at decapsulation hashing derivation
    simp only [decapsulation, hashing, derivation, adding, and_false, false_or, true_imp_iff,
      and_self]
    constructor
    · intro wiped
      exact ⟨wiped.pqSharedSecret, wiped.ikm, wiped.seed⟩
    · rintro ⟨secret, ikm, seed⟩
      exact ⟨ikm, secret, seed⟩
  · push Not at decapsulation hashing derivation adding
    apply iff_of_true
    · exact ⟨wiped_zeros _, wiped_zeros _, wiped_zeros _⟩
    · exact .inl ⟨decapsulation, hashing, derivation, adding⟩

theorem accept_capsule_stopped (stopped : ¬PassesChecks env hello helloFields capsule) :
    (acceptCapsule env hello.val helloFields puf capsule trace).1.buffers = trace.buffers := by
  have short : hello.val.length ≤ uint32Max := by
    rw [hello.property]
    decide
  have sha := teb_sha256_of_le short env.shaHelloRet
  rcases teb_parse_capsule_cases profile capsule with ⟨formed, parsed⟩ | ⟨_, ret, parsed, _⟩
  · simp only [acceptCapsule, parsed, sha]
    split_ifs with selected binding hashing mismatch signature
    · rfl
    · rfl
    · rfl
    · rfl
    · rfl
    · push Not at binding hashing mismatch signature
      have verified := (verify_signature_eq_zero_iff env capsule _).mp signature
      exact absurd ⟨formed, binding.1, binding.2, hashing, mismatch.symm, verified⟩ stopped
  · simp only [acceptCapsule, parsed]
    rfl

theorem accept_capsule_passed (passed : PassesChecks env hello helloFields capsule) :
    acceptCapsule env hello.val helloFields puf capsule trace =
      deriveAndInject env puf (loadedFields profile capsule)
        (trace.print (metricLine "verify_us" (env.cycToUs (env.cycle 4 - env.cycle 3)))) := by
  have short : hello.val.length ≤ uint32Max := by
    rw [hello.property]
    decide
  have sha := teb_sha256_of_le short env.shaHelloRet
  have verified := (verify_signature_eq_zero_iff env capsule _).mpr passed.signature
  rcases teb_parse_capsule_cases profile capsule with ⟨formed, parsed⟩ | ⟨malformed, _⟩
  · have selected : (loadedFields profile capsule).profile = profile.code := formed.selectedProfile
    simp only [acceptCapsule, parsed, sha]
    simp [selected, passed.deviceId, passed.bootCounter, passed.helloHashed,
      passed.helloHash, verified]
  · exact absurd passed.formed malformed

theorem accept_capsule_wiped_iff :
    (acceptCapsule env hello.val helloFields puf capsule
        { trace with buffers := .unwritten }).1.buffers.Wiped ↔
      (PassesChecks env hello helloFields capsule →
        EveryCallSucceeds env (loadedFields profile capsule) ∨
          WritesZeros env puf (loadedFields profile capsule)) := by
  by_cases passed : PassesChecks env hello helloFields capsule
  · rw [accept_capsule_passed env hello helloFields puf capsule _ passed,
      derive_and_inject_buffers_wiped_iff env puf capsule _ rfl]
    simp only [passed, true_imp_iff]
  · rw [accept_capsule_stopped env hello helloFields puf capsule _ passed]
    apply iff_of_true unwritten_wiped
    exact fun passes => absurd passes passed

end Client

/-! ## Server -/

/-- The answer of `OQS_SIG_ml_dsa_44_sign` over the signed part of the capsule that
carries `kemCt`: a signature of the expected length. -/
def PqServer.Signs (calls : PqServer.Calls) (hello : PqServer.TebHello) (sequence : UInt32)
    (kemCt : Bytes) : Prop :=
  ∃ sig, calls.sign ((PqServer.signedMsg hello.deviceId hello.counter calls.unixTimeMs sequence
      kemCt hello.helloHash.val).take Profile.pqMlkem512Mldsa44.capsuleSignedLen) = some sig ∧
    sig.length = tebMldsa44SigSize

theorem build_capsule_encapsulated {calls : PqServer.Calls} {hello : PqServer.TebHello}
    {sequence : UInt32} {kemCt : Block tebMlkem512CiphertextSize}
    {sharedSecret : Block tebMlkem512SharedSecretSize}
    (encapsulated : calls.encaps = some (kemCt, sharedSecret)) :
    Wiped (PqServer.buildCapsule calls hello sequence).2 ↔
      PqServer.Signs calls hello sequence kemCt.val ∨ Wiped (some sharedSecret.val) := by
  simp only [PqServer.buildCapsule, PqServer.Signs, encapsulated]
  split
  · next unsigned =>
      simp [unsigned]
  · next sig signed =>
      simp only [signed, Option.some.injEq, exists_eq_left']
      split_ifs with length
      · simp only [length, false_or]
      · apply iff_of_true (wiped_zeros _)
        exact .inl (not_not.mp length)

theorem build_capsule_wiped_iff (calls : PqServer.Calls) (hello : PqServer.TebHello)
    (sequence : UInt32) :
    Wiped (PqServer.buildCapsule calls hello sequence).2 ↔
      ∀ kemCt sharedSecret, calls.encaps = some (kemCt, sharedSecret) →
        PqServer.Signs calls hello sequence kemCt.val ∨ Wiped (some sharedSecret.val) := by
  constructor
  · intro wiped kemCt sharedSecret encapsulated
    exact (build_capsule_encapsulated encapsulated).mp wiped
  · intro clean
    cases answer : calls.encaps with
    | none =>
        simp only [PqServer.buildCapsule, answer]
        exact wiped_none
    | some written => exact (build_capsule_encapsulated answer).mpr (clean _ _ answer)

/-! ## Both ends -/

/-- The buffers of `accept_capsule` are clean on return exactly when a check failed
before the first write, every later call succeeded, or what was written is zero.
The shared secret of `build_capsule` is clean exactly when encapsulation failed,
signing gave a full signature, or the secret is zero. -/
theorem secrets_wiped_iff {profile : Profile} (env : Environment profile)
    (hello : Block tebHelloLen) (helloFields : HelloFields) (puf : PufSample) (capsule : Bytes)
    (trace : Trace) (calls : PqServer.Calls) (received : PqServer.TebHello) (sequence : UInt32) :
    (acceptCapsule env hello.val helloFields puf capsule
          { trace with buffers := .unwritten }).1.buffers.Wiped ∧
        Wiped (PqServer.buildCapsule calls received sequence).2 ↔
      (PassesChecks env hello helloFields capsule →
          EveryCallSucceeds env (loadedFields profile capsule) ∨
            WritesZeros env puf (loadedFields profile capsule)) ∧
        ∀ kemCt sharedSecret, calls.encaps = some (kemCt, sharedSecret) →
          PqServer.Signs calls received sequence kemCt.val ∨ Wiped (some sharedSecret.val) := by
  rw [accept_capsule_wiped_iff, build_capsule_wiped_iff]

/-- A well-formed capsule whose seed the entropy driver refuses. -/
def refusingEnvironment : Environment .pqMlkem512Mldsa44 :=
  { collidingEnvironment with addEntropyRet := -5 }

def pufOfOnes : PufSample := plainPuf.withSecrets (sramSecrets 1)

def unsignedCalls : PqServer.Calls where
  sha256 := fun _ => zeroBlock tebHashSize
  unixTimeMs := 0
  encaps := some (zeroBlock _, ⟨List.replicate tebMlkem512SharedSecretSize 1, List.length_replicate⟩)
  sign := fun _ => none

/-- After the refused seed `ikm` and `seed` still hold the SRAM secret; after the
failed signature the server still holds the shared secret. -/
theorem refused_seed_not_wiped :
    ¬(acceptCapsule refusingEnvironment plainHelloBytes.val plainHello pufOfOnes plainCapsule.val
        { startTrace ⟨0, 0, 0⟩ with buffers := .unwritten }).1.buffers.Wiped ∧
      ¬Wiped (PqServer.buildCapsule unsignedCalls ⟨0, 0, 0, zeroBlock tebHashSize⟩ 1).2 := by
  constructor
  · intro wiped
    have seed := wiped.seed
    revert seed
    decide +kernel
  · decide +kernel

end BootEntropy.Capsule
