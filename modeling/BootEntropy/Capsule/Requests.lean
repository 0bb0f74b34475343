import BootEntropy.Capsule.Servers

/-!
# Which requests the servers answer

Both servers check magic, version and profile. The C server cuts a longer datagram
to 88 bytes and wants zero flags; the Python server wants exactly 88 bytes and
ignores the flags.
-/

namespace BootEntropy.Capsule

open BootEntropy.Lib

set_option autoImplicit false

/-- The checks that both servers make, on a datagram with the PQ profile. -/
structure HelloHead (datagram : Bytes) : Prop where
  long : tebHelloLen ≤ datagram.length
  magic : slice datagram 0 4 = tebHelloMagic
  version : datagram.getD 4 0 = tebVersion
  profile : datagram.getD 5 0 = Profile.pqMlkem512Mldsa44.code

theorem get_d_take {bytes : Bytes} {index limit : Nat} (inside : index < limit) :
    (bytes.take limit).getD index 0 = bytes.getD index 0 := by
  rw [List.getD_eq_getElem?_getD, List.getD_eq_getElem?_getD, List.getElem?_take_of_lt inside]

/-! ## C server -/

namespace PqServer

structure Calls.Succeed (calls : Calls) : Prop where
  encaps : calls.encaps ≠ none
  sign : ∀ msg, ∃ sig, calls.sign msg = some sig ∧ sig.length = tebMldsa44SigSize

theorem parse_hello_ok_iff (sha256 : Bytes → Block tebHashSize) (datagram : Bytes) :
    (∃ hello, parseHello sha256 (datagram.take tebHelloLen) = .ok hello) ↔
      HelloHead datagram ∧ tebLoadU16Be datagram 6 = 0 := by
  have length : (datagram.take tebHelloLen).length = tebHelloLen ↔
      tebHelloLen ≤ datagram.length := by
    rw [List.length_take, min_eq_left_iff]
  have magic : slice (datagram.take tebHelloLen) 0 4 = slice datagram 0 4 := slice_take (by decide)
  have flags : tebLoadU16Be (datagram.take tebHelloLen) 6 = tebLoadU16Be datagram 6 := by
    rw [tebLoadU16Be, tebLoadU16Be, slice_take (by decide)]
  have version : (datagram.take tebHelloLen).getD 4 0 = datagram.getD 4 0 := get_d_take (by decide)
  have profile : (datagram.take tebHelloLen).getD 5 0 = datagram.getD 5 0 := get_d_take (by decide)
  unfold parseHello
  rw [magic, version, profile, flags]
  split_ifs with short otherMagic other
  · exact iff_of_false (by rintro ⟨_, ⟨⟩⟩) fun accepted => short (length.mpr accepted.1.long)
  · exact iff_of_false (by rintro ⟨_, ⟨⟩⟩) fun accepted => otherMagic accepted.1.magic
  · apply iff_of_false (by rintro ⟨_, ⟨⟩⟩)
    rintro ⟨head, zero⟩
    rcases other with version | profile | flags
    · exact version head.version
    · exact profile head.profile
    · exact flags zero
  · push Not at short otherMagic other
    exact iff_of_true ⟨_, rfl⟩
      ⟨⟨length.mp short, otherMagic, other.1, other.2.1⟩, other.2.2⟩

theorem build_capsule_eq {calls : Calls} {hello : TebHello} {sequence : UInt32}
    {kemCt : Block tebMlkem512CiphertextSize}
    {sharedSecret : Block tebMlkem512SharedSecretSize} {sig : Bytes}
    (encaps : calls.encaps = some (kemCt, sharedSecret))
    (sign : calls.sign ((signedMsg hello.deviceId hello.counter calls.unixTimeMs sequence kemCt.val
      hello.helloHash.val).take Profile.pqMlkem512Mldsa44.capsuleSignedLen) = some sig)
    (length : sig.length = tebMldsa44SigSize) :
    (buildCapsule calls hello sequence).1 =
      .ok (store (signedMsg hello.deviceId hello.counter calls.unixTimeMs sequence kemCt.val
        hello.helloHash.val) Profile.pqMlkem512Mldsa44.capsuleSignedLen sig) := by
  rw [buildCapsule, encaps]
  dsimp only
  rw [sign]
  dsimp only
  rw [if_neg (not_not.mpr length)]

theorem build_capsule_ok {calls : Calls} (succeed : calls.Succeed) (hello : TebHello)
    (sequence : UInt32) : ∃ capsule, (buildCapsule calls hello sequence).1 = .ok capsule := by
  obtain ⟨⟨kemCt, sharedSecret⟩, encaps⟩ := Option.ne_none_iff_exists'.mp succeed.encaps
  obtain ⟨sig, sign, length⟩ := succeed.sign
    ((signedMsg hello.deviceId hello.counter calls.unixTimeMs sequence kemCt.val
      hello.helloHash.val).take Profile.pqMlkem512Mldsa44.capsuleSignedLen)
  exact ⟨_, build_capsule_eq encaps sign length⟩

theorem serve_replies_iff {calls : Calls} (succeed : calls.Succeed) (sequence : UInt32)
    (datagram : Bytes) :
    (serve calls sequence datagram).2 ≠ none ↔
      HelloHead datagram ∧ tebLoadU16Be datagram 6 = 0 := by
  rw [← parse_hello_ok_iff calls.sha256, serve]
  cases parsed : parseHello calls.sha256 (datagram.take tebHelloLen) with
  | error ret => exact iff_of_false (fun sent => sent rfl) (by rintro ⟨_, ⟨⟩⟩)
  | ok hello =>
      obtain ⟨capsule, built⟩ := build_capsule_ok succeed hello (sequence + 1)
      dsimp only
      rw [built]
      exact iff_of_true (Option.some_ne_none _) ⟨hello, rfl⟩

end PqServer

/-! ## Python server -/

namespace BeaconServer

structure Calls.Succeed (calls : Calls) : Prop where
  sign : ∀ msg, ∃ sig, calls.signMessage msg = some sig ∧ sig.length = tebEd25519SigSize

/-- `struct.pack` accepts the clock and the next sequence number. -/
structure Calls.Packable (calls : Calls) (sequence : Nat) : Prop where
  clock : 0 ≤ calls.gatewayTimeMs ∧ calls.gatewayTimeMs < 2 ^ 64
  number : sequence + 1 < 2 ^ 32

instance (calls : Calls) (sequence : Nat) : Decidable (calls.Packable sequence) :=
  decidable_of_iff ((0 ≤ calls.gatewayTimeMs ∧ calls.gatewayTimeMs < 2 ^ 64) ∧ sequence + 1 < 2 ^ 32)
    ⟨fun ⟨clock, number⟩ => ⟨clock, number⟩, fun packable => ⟨packable.clock, packable.number⟩⟩

def loadedHello (sha256 : Bytes → Block tebHashSize) (data : Bytes) : Hello where
  flags := beValue (slice data 6 2)
  deviceId := beValue (slice data 8 8)
  counter := beValue (slice data 16 4)
  uptime := beValue (slice data 20 4)
  sramCommitment := slice data 24 32
  timingCommitment := slice data 56 32
  helloHash := sha256 data

theorem parse_hello_eq (sha256 : Bytes → Block tebHashSize) {data : Bytes}
    (length : data.length = tebHelloLen) :
    parseHello sha256 data =
      if slice data 0 4 ≠ tebHelloMagic then .error (.valueError "bad hello magic")
      else if (data.getD 4 0).toNat ≠ tebVersion.toNat then
        .error (.valueError ("bad version " ++ toString (data.getD 4 0).toNat))
      else if (data.getD 5 0).toNat ≠ Profile.devEd25519PufBeacon.code.toNat then
        .error (.valueError ("bad profile " ++ toString (data.getD 5 0).toNat))
      else .ok (loadedHello sha256 data) := by
  have octet (off : Nat) (inside : off < 24) :
      beValue (slice data off 1) = (data.getD off 0).toNat := by
    rw [slice_one (by rw [length, tebHelloLen]; omega)]
    exact Nat.add_zero _
  have field (off width : Nat) (inside : off + width ≤ 24) :
      ((data.take 24).drop off).take width = slice data off width := slice_take inside
  have magic : (data.take 24).take 4 = slice data 0 4 := by
    rw [List.take_take]
    rfl
  rw [parseHello, if_neg (not_not.mpr length)]
  simp only [unpackBe, List.drop_drop, Nat.reduceAdd, magic]
  rw [field 4 1 (by decide), field 5 1 (by decide), field 6 2 (by decide), field 8 8 (by decide),
    field 16 4 (by decide), field 20 4 (by decide), octet 4 (by decide), octet 5 (by decide)]
  rfl

theorem pack_unsigned_of_lt {width value : Nat} (fits : value < 256 ^ width) :
    packUnsigned width value = some (beBytes width value) := by
  have inside : 0 ≤ (value : Int) ∧ (value : Int).toNat < 256 ^ width := by
    rw [Int.toNat_natCast]
    exact ⟨Int.natCast_nonneg value, fits⟩
  rw [packUnsigned, if_pos inside, Int.toNat_natCast]

theorem pack_signed_packed {deviceId counter gatewayTimeMs sequence : Nat}
    (deviceIdFits : deviceId < 2 ^ 64) (counterFits : counter < 2 ^ 32)
    (clockFits : gatewayTimeMs < 2 ^ 64) (sequenceFits : sequence < 2 ^ 32)
    (beacon : Block tebBeaconSize) (helloHash : Block tebHashSize) :
    packSigned deviceId counter gatewayTimeMs sequence beacon.val helloHash.val =
      some (packedCapsule .devEd25519PufBeacon deviceId counter gatewayTimeMs sequence beacon.val
        helloHash.val []) := by
  have padded (bytes : Block 32) : pack32s bytes.val = bytes.val := List.take_left' bytes.property
  rw [packSigned, pack_unsigned_of_lt deviceIdFits, pack_unsigned_of_lt counterFits,
    pack_unsigned_of_lt clockFits, pack_unsigned_of_lt sequenceFits, padded beacon, padded helloHash]
  simp only [packedCapsule, Option.bind_eq_bind, Option.bind_some, List.append_assoc,
    List.append_nil]
  rfl

theorem pack_unsigned_some {width : Nat} {value : Int} {bytes : Bytes}
    (packed : packUnsigned width value = some bytes) : 0 ≤ value ∧ value.toNat < 256 ^ width := by
  rw [packUnsigned] at packed
  split_ifs at packed with fits
  exact fits

theorem pack_signed_fits {deviceId counter gatewayTimeMs sequence : Int}
    {beacon helloHash signed : Bytes}
    (packed : packSigned deviceId counter gatewayTimeMs sequence beacon helloHash = some signed) :
    (0 ≤ gatewayTimeMs ∧ gatewayTimeMs.toNat < 256 ^ 8) ∧
      0 ≤ sequence ∧ sequence.toNat < 256 ^ 4 := by
  simp only [packSigned, Option.bind_eq_bind, Option.bind_eq_some_iff] at packed
  obtain ⟨_, _, _, _, clockBytes, clock, numberBytes, number, _⟩ := packed
  exact ⟨pack_unsigned_some clock, pack_unsigned_some number⟩

/-- Building fails only in `struct.pack`, on the clock or the sequence number. -/
theorem build_capsule_ok_iff {calls : Calls} (succeed : calls.Succeed) {hello : Hello}
    (deviceIdFits : hello.deviceId < 2 ^ 64) (counterFits : hello.counter < 2 ^ 32)
    (sequence : Nat) :
    (∃ capsule, buildCapsule calls hello (sequence + 1) = .ok capsule) ↔
      calls.Packable sequence := by
  constructor
  · rintro ⟨capsule, built⟩
    rw [buildCapsule] at built
    cases packed : packSigned hello.deviceId hello.counter calls.gatewayTimeMs
      ((sequence + 1 : Nat) : Int) calls.urandom.val hello.helloHash.val with
    | none =>
        rw [packed] at built
        cases built
    | some signed =>
        obtain ⟨clock, number⟩ := pack_signed_fits packed
        exact ⟨⟨clock.1, by omega⟩, by omega⟩
  · rintro ⟨⟨positive, clock⟩, number⟩
    obtain ⟨gatewayTimeMs, clockEq⟩ := Int.eq_ofNat_of_zero_le positive
    have clockFits : gatewayTimeMs < 2 ^ 64 := by omega
    have packed := pack_signed_packed deviceIdFits counterFits clockFits number calls.urandom
      hello.helloHash
    obtain ⟨sig, sign, length⟩ := succeed.sign (packedCapsule .devEd25519PufBeacon hello.deviceId
      hello.counter gatewayTimeMs (sequence + 1) calls.urandom.val hello.helloHash.val [])
    have size := packed_capsule_front_length .devEd25519PufBeacon hello.deviceId hello.counter
      gatewayTimeMs (sequence + 1) calls.urandom.property
      hello.helloHash.property
    rw [buildCapsule, clockEq]
    rw [packed]
    dsimp only
    rw [sign]
    dsimp only
    rw [if_neg (by rintro (wrong | wrong); exacts [wrong size, wrong length])]
    exact ⟨_, rfl⟩

theorem serve_replies_iff {calls : Calls} (succeed : calls.Succeed) (sequence : Nat)
    (datagram : Bytes) :
    (serve calls sequence datagram).2 ≠ none ↔
      (datagram.length = tebHelloLen ∧ slice datagram 0 4 = tebHelloMagic ∧
        datagram.getD 4 0 = tebVersion ∧
        datagram.getD 5 0 = Profile.devEd25519PufBeacon.code) ∧ calls.Packable sequence := by
  have cut : (datagram.take recvLimit).length = tebHelloLen ↔ datagram.length = tebHelloLen := by
    rw [List.length_take, recvLimit, tebHelloLen]
    omega
  by_cases length : datagram.length = tebHelloLen
  · have whole : datagram.take recvLimit = datagram := by
      apply List.take_of_length_le
      rw [length]
      decide
    have deviceId : (loadedHello calls.sha256 datagram).deviceId < 2 ^ 64 :=
      be_value_slice_lt datagram 8 8
    have counter : (loadedHello calls.sha256 datagram).counter < 2 ^ 32 :=
      be_value_slice_lt datagram 16 4
    have built := build_capsule_ok_iff succeed deviceId counter sequence
    rw [serve, whole, parse_hello_eq calls.sha256 length]
    split_ifs with magic version profile
    · exact iff_of_false (fun sent => sent rfl) fun accepted => magic accepted.1.2.1
    · exact iff_of_false (fun sent => sent rfl) fun accepted =>
        version (congrArg UInt8.toNat accepted.1.2.2.1)
    · exact iff_of_false (fun sent => sent rfl) fun accepted =>
        profile (congrArg UInt8.toNat accepted.1.2.2.2)
    · have head : datagram.length = tebHelloLen ∧ slice datagram 0 4 = tebHelloMagic ∧
          datagram.getD 4 0 = tebVersion ∧
          datagram.getD 5 0 = Profile.devEd25519PufBeacon.code :=
        ⟨length, not_not.mp magic, UInt8.toNat_inj.mp (not_not.mp version),
          UInt8.toNat_inj.mp (not_not.mp profile)⟩
      rw [and_iff_right head, ← built]
      dsimp only
      cases result : buildCapsule calls (loadedHello calls.sha256 datagram) (sequence + 1) with
      | error error => exact iff_of_false (fun sent => sent rfl) (by rintro ⟨_, ⟨⟩⟩)
      | ok capsule => exact iff_of_true (Option.some_ne_none _) ⟨capsule, rfl⟩
  · rw [serve, parseHello, if_pos (fun same => length (cut.mp same))]
    exact iff_of_false (fun sent => sent rfl) fun accepted => length accepted.1.1

end BeaconServer

/-! ## Both servers -/

def exchangeProfile (datagram : Bytes) : Bytes :=
  datagram.modify 5 fun byte => if byte = 2 then 1 else if byte = 1 then 2 else byte

theorem exchanged_profile_iff {datagram : Bytes} (long : 5 < datagram.length) :
    (exchangeProfile datagram).getD 5 0 = Profile.devEd25519PufBeacon.code ↔
      datagram.getD 5 0 = Profile.pqMlkem512Mldsa44.code := by
  rw [exchangeProfile, List.getD_eq_getElem?_getD, List.getElem?_modify_eq,
    List.getD_eq_getElem?_getD, List.getElem?_eq_getElem long]
  generalize datagram[5] = byte
  show (if byte = 2 then 1 else if byte = 1 then 2 else byte) = (1 : UInt8) ↔ byte = (2 : UInt8)
  split_ifs with pq dev
  · exact iff_of_true rfl pq
  · exact iff_of_false (by decide) pq
  · exact iff_of_false dev pq

/-- The servers answer the same request exactly when it is no hello, or its flags
are zero just when it is 88 bytes long and the Python server can pack its clock
and sequence number. -/
theorem servers_agree_iff {pqCalls : PqServer.Calls} {beaconCalls : BeaconServer.Calls}
    (pqSucceed : pqCalls.Succeed) (beaconSucceed : beaconCalls.Succeed) (pqSequence : UInt32)
    (beaconSequence : Nat) (datagram : Bytes) :
    ((PqServer.serve pqCalls pqSequence datagram).2 ≠ none ↔
        (BeaconServer.serve beaconCalls beaconSequence (exchangeProfile datagram)).2 ≠ none) ↔
      (HelloHead datagram →
        (tebLoadU16Be datagram 6 = 0 ↔
          datagram.length = tebHelloLen ∧ beaconCalls.Packable beaconSequence)) := by
  have length : (exchangeProfile datagram).length = datagram.length := List.length_modify _ _ _
  have magic : slice (exchangeProfile datagram) 0 4 = slice datagram 0 4 := by
    rw [slice, slice, List.drop_zero, List.drop_zero, exchangeProfile]
    apply List.ext_getElem?
    intro index
    by_cases inside : index < 4
    · rw [List.getElem?_take_of_lt inside, List.getElem?_take_of_lt inside,
        List.getElem?_modify_ne _ _ (by omega)]
    · rw [List.getElem?_take_eq_none (by omega), List.getElem?_take_eq_none (by omega)]
  have version : (exchangeProfile datagram).getD 4 0 = datagram.getD 4 0 := by
    rw [List.getD_eq_getElem?_getD, exchangeProfile, List.getElem?_modify_ne _ _ (by decide),
      ← List.getD_eq_getElem?_getD]
  rw [PqServer.serve_replies_iff pqSucceed, BeaconServer.serve_replies_iff beaconSucceed, length,
    magic, version]
  by_cases long : tebHelloLen ≤ datagram.length
  · have profile := exchanged_profile_iff (lt_of_lt_of_le (by decide) long)
    rw [profile]
    constructor
    · intro agree head
      constructor
      · intro zero
        have answered := agree.mp ⟨head, zero⟩
        exact ⟨answered.1.1, answered.2⟩
      · rintro ⟨whole, packable⟩
        exact (agree.mpr ⟨⟨whole, head.magic, head.version, head.profile⟩, packable⟩).2
    · intro agree
      constructor
      · rintro ⟨head, zero⟩
        obtain ⟨whole, packable⟩ := (agree head).mp zero
        exact ⟨⟨whole, head.magic, head.version, head.profile⟩, packable⟩
      · rintro ⟨⟨whole, magic, version, profile⟩, packable⟩
        have head : HelloHead datagram := ⟨long, magic, version, profile⟩
        exact ⟨head, (agree head).mpr ⟨whole, packable⟩⟩
  · constructor
    · intro _ head
      exact absurd head.long long
    · intro _
      constructor
      · intro answered
        exact absurd answered.1.long long
      · intro answered
        exact absurd (le_of_eq answered.1.1.symm) long

/-! ## A hello and a longer one -/

def plainPqCalls : PqServer.Calls where
  sha256 := fun _ => zeroBlock tebHashSize
  unixTimeMs := 0
  encaps := some (zeroBlock _, zeroBlock _)
  sign := fun _ => some (zeroBlock tebMldsa44SigSize).val

def plainBeaconCalls : BeaconServer.Calls where
  sha256 := fun _ => zeroBlock tebHashSize
  urandom := zeroBlock tebBeaconSize
  gatewayTimeMs := 0
  signMessage := fun _ => some (zeroBlock tebEd25519SigSize).val

theorem plain_pq_calls_succeed : plainPqCalls.Succeed where
  encaps := Option.some_ne_none _
  sign := fun _ => ⟨_, rfl, List.length_replicate⟩

theorem plain_beacon_calls_succeed : plainBeaconCalls.Succeed where
  sign := fun _ => ⟨_, rfl, List.length_replicate⟩

/-- A hello of the PQ build with `left` zeros behind its profile byte. -/
def zeroHello (left : Nat) : Bytes := tebHelloMagic ++ [1, 2] ++ List.replicate left 0

theorem servers_agree_on_hello :
    (PqServer.serve plainPqCalls 0 (zeroHello 82)).2 ≠ none ↔
      (BeaconServer.serve plainBeaconCalls 0 (exchangeProfile (zeroHello 82))).2 ≠ none :=
  (servers_agree_iff plain_pq_calls_succeed plain_beacon_calls_succeed 0 0 (zeroHello 82)).mpr
    fun _ => iff_of_true (by decide +kernel) (by decide +kernel)

/-- One byte more than a hello: the C server does not see it. -/
theorem longer_hello_divides_servers :
    ¬((PqServer.serve plainPqCalls 0 (zeroHello 83)).2 ≠ none ↔
      (BeaconServer.serve plainBeaconCalls 0 (exchangeProfile (zeroHello 83))).2 ≠ none) := by
  intro agree
  have head : HelloHead (zeroHello 83) := ⟨by decide, by decide, by decide, by decide⟩
  have answered := agree.mp
    ((PqServer.serve_replies_iff plain_pq_calls_succeed 0 _).mpr ⟨head, by decide +kernel⟩)
  have exactly := (BeaconServer.serve_replies_iff plain_beacon_calls_succeed 0 _).mp answered
  exact absurd exactly.1.1 (by decide +kernel)

end BootEntropy.Capsule
