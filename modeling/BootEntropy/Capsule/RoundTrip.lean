import BootEntropy.Capsule.Disclosure
import BootEntropy.Capsule.Requests

/-!
# The capsule exchange closes

A hello of the client is read by the server of its profile, the capsule the server
builds from it is read by the client, and every field comes back. With the
libraries on both sides working, the client accepts that capsule.
-/

namespace BootEntropy.Capsule

open BootEntropy.Lib

set_option autoImplicit false

/-! ## Layout of a hello -/

structure HelloLayout (profile : Profile) (fields : HelloFields) (hello : Bytes) : Prop where
  length : hello.length = tebHelloLen
  magic : slice hello 0 4 = tebHelloMagic
  version : hello.getD 4 0 = tebVersion
  selectedProfile : hello.getD 5 0 = profile.code
  flags : slice hello 6 2 = beBytes 2 0
  deviceId : slice hello 8 8 = beBytes 8 fields.deviceId.toNat
  bootCounter : slice hello 16 4 = beBytes 4 fields.bootCounter.toNat
  uptimeMs : slice hello 20 4 = beBytes 4 fields.uptimeMs.toNat

theorem get_d_of_slice {bytes : Bytes} {off : Nat} {byte : UInt8} (inside : off < bytes.length)
    (field : slice bytes off 1 = [byte]) : bytes.getD off 0 = byte := by
  rw [slice_one inside] at field
  exact List.singleton_injective field

theorem teb_build_hello_layout (profile : Profile) (fields : HelloFields) :
    HelloLayout profile fields (tebBuildHello profile fields) := by
  have length := teb_build_hello_length profile fields
  have packed : tebBuildHello profile fields =
      [tebHelloMagic, [tebVersion], [profile.code], beBytes 2 0, beBytes 8 fields.deviceId.toNat,
        beBytes 4 fields.bootCounter.toNat, beBytes 4 fields.uptimeMs.toNat,
        fields.sramCommitment.val, fields.timingCommitment.val].flatten := by
    rw [teb_build_hello_packed]
    simp only [packedHello, List.flatten_cons, List.flatten_nil, List.append_nil]
  have magic : tebHelloMagic.length = 4 := rfl
  have version : slice (tebBuildHello profile fields) 4 1 = [tebVersion] := by
    rw [packed]
    exact slice_flatten 1 rfl rfl rfl
  have selected : slice (tebBuildHello profile fields) 5 1 = [profile.code] := by
    rw [packed]
    exact slice_flatten 2 rfl (by simp [magic]) rfl
  constructor
  · exact length
  · rw [packed]
    exact slice_flatten 0 rfl rfl rfl
  · exact get_d_of_slice (by rw [length]; decide) version
  · exact get_d_of_slice (by rw [length]; decide) selected
  · rw [packed]
    exact slice_flatten 3 rfl (by simp [magic]) (be_bytes_length _ _)
  · rw [packed]
    exact slice_flatten 4 rfl (by simp [magic]) (be_bytes_length _ _)
  · rw [packed]
    exact slice_flatten 5 rfl (by simp [magic]) (be_bytes_length _ _)
  · rw [packed]
    exact slice_flatten 6 rfl (by simp [magic]) (be_bytes_length _ _)

theorem teb_load_u16_be_of_slice {bytes : Bytes} {off value : Nat} (fits : value < 2 ^ 16)
    (field : slice bytes off 2 = beBytes 2 value) : (tebLoadU16Be bytes off).toNat = value := by
  rw [tebLoadU16Be, field, be_value_bytes_of_lt fits, UInt16.toNat_ofNat', Nat.mod_eq_of_lt fits]

theorem teb_load_u32_be_of_slice {bytes : Bytes} {off : Nat} {value : UInt32}
    (field : slice bytes off 4 = beBytes 4 value.toNat) : tebLoadU32Be bytes off = value := by
  rw [tebLoadU32Be, field, be_value_bytes_of_lt value.toNat_lt, UInt32.ofNat_toNat]

theorem teb_load_u64_be_of_slice {bytes : Bytes} {off : Nat} {value : UInt64}
    (field : slice bytes off 8 = beBytes 8 value.toNat) : tebLoadU64Be bytes off = value := by
  rw [tebLoadU64Be, field, be_value_bytes_of_lt value.toNat_lt, UInt64.ofNat_toNat]

/-! ## Layout of a capsule -/

section Capsule

variable {profile : Profile}

def capsuleParts (profile : Profile) (fields : CapsuleFields) (body : Bytes) : List Bytes :=
  [tebCapsuleMagic, [tebVersion], [profile.code], beBytes 2 profile.capsuleSignedLen,
    beBytes 8 fields.deviceId.toNat, beBytes 4 fields.bootCounter.toNat,
    beBytes 8 fields.gatewayTimeMs.toNat, beBytes 4 fields.sequence.toNat, body, fields.helloHash,
    fields.signature]

theorem packed_capsule_parts (fields : CapsuleFields) (body : Bytes) :
    packedCapsule profile fields.deviceId.toNat fields.bootCounter.toNat
        fields.gatewayTimeMs.toNat fields.sequence.toNat body fields.helloHash fields.signature =
      (capsuleParts profile fields body).flatten := by
  simp only [packedCapsule, capsuleParts, List.flatten_cons, List.flatten_nil, List.append_nil]

attribute [ext] CapsuleFields

/-- Fields that a capsule of this profile can carry around this body. -/
structure Carries (profile : Profile) (fields : CapsuleFields) (body : Bytes) : Prop where
  selectedProfile : fields.profile = profile.code
  bodyLength : body.length = profile.bodySize
  helloHashLength : fields.helloHash.length = tebHashSize
  signatureLength : fields.signature.length = profile.signatureSize
  beacon : fields.beacon = match profile with
    | .devEd25519PufBeacon => body
    | .pqMlkem512Mldsa44 => List.replicate tebBeaconSize 0
  kemCiphertext : fields.kemCiphertext = match profile with
    | .devEd25519PufBeacon => none
    | .pqMlkem512Mldsa44 => some body

theorem parse_packed_capsule {fields : CapsuleFields} {body : Bytes}
    (carries : Carries profile fields body) :
    tebParseCapsule profile (capsuleParts profile fields body).flatten = .ok fields := by
  have magic : tebCapsuleMagic.length = 4 := rfl
  have signed := capsule_signed_len_eq profile
  have signedFits : profile.capsuleSignedLen < 2 ^ 16 := by cases profile <;> decide
  have length : (capsuleParts profile fields body).flatten.length = profile.capsuleLen := by
    rw [Profile.capsuleLen, signed]
    simp only [capsuleParts, List.length_flatten, List.map_cons, List.map_nil, List.sum_cons,
      List.sum_nil, magic, List.length_singleton, be_bytes_length, carries.bodyLength,
      carries.helloHashLength, carries.signatureLength, tebCapsuleHeaderLen]
    omega
  have room : tebCapsuleHeaderLen ≤ (capsuleParts profile fields body).flatten.length := by
    rw [length, Profile.capsuleLen, signed]
    omega
  have version : slice (capsuleParts profile fields body).flatten 4 1 = [tebVersion] :=
    slice_flatten 1 rfl rfl rfl
  have selected : slice (capsuleParts profile fields body).flatten 5 1 = [profile.code] :=
    slice_flatten 2 rfl rfl rfl
  have signedField : slice (capsuleParts profile fields body).flatten 6 2 =
      beBytes 2 profile.capsuleSignedLen := slice_flatten 3 rfl rfl (be_bytes_length _ _)
  have deviceId : slice (capsuleParts profile fields body).flatten 8 8 =
      beBytes 8 fields.deviceId.toNat :=
    slice_flatten 4 rfl (by simp [capsuleParts, magic]) (be_bytes_length _ _)
  have bootCounter : slice (capsuleParts profile fields body).flatten 16 4 =
      beBytes 4 fields.bootCounter.toNat :=
    slice_flatten 5 rfl (by simp [capsuleParts, magic]) (be_bytes_length _ _)
  have gatewayTimeMs : slice (capsuleParts profile fields body).flatten 20 8 =
      beBytes 8 fields.gatewayTimeMs.toNat :=
    slice_flatten 6 rfl (by simp [capsuleParts, magic]) (be_bytes_length _ _)
  have sequence : slice (capsuleParts profile fields body).flatten 28 4 =
      beBytes 4 fields.sequence.toNat :=
    slice_flatten 7 rfl (by simp [capsuleParts, magic]) (be_bytes_length _ _)
  have inBody : slice (capsuleParts profile fields body).flatten tebCapsuleHeaderLen
      profile.bodySize = body :=
    slice_flatten 8 rfl (by simp [capsuleParts, magic, tebCapsuleHeaderLen]) carries.bodyLength
  have helloHash : slice (capsuleParts profile fields body).flatten
      (tebCapsuleHeaderLen + profile.bodySize) tebHashSize = fields.helloHash := by
    apply slice_flatten 9 rfl _ carries.helloHashLength
    simp [capsuleParts, magic, tebCapsuleHeaderLen, carries.bodyLength]
    omega
  have signature : slice (capsuleParts profile fields body).flatten profile.capsuleSignedLen
      profile.signatureSize = fields.signature := by
    apply slice_flatten 10 rfl _ carries.signatureLength
    simp [capsuleParts, magic, signed, tebCapsuleHeaderLen, carries.bodyLength,
      carries.helloHashLength]
    omega
  have formed : WellFormed profile (capsuleParts profile fields body).flatten := by
    constructor
    · exact length
    · exact slice_flatten 0 rfl rfl rfl
    · exact get_d_of_slice (lt_of_lt_of_le (by decide) room) version
    · exact get_d_of_slice (lt_of_lt_of_le (by decide) room) selected
    · exact teb_load_u16_be_of_slice signedFits signedField
  rcases teb_parse_capsule_cases profile (capsuleParts profile fields body).flatten with
    ⟨_, parsed⟩ | ⟨malformed, _⟩
  · have beacon : (loadedFields profile (capsuleParts profile fields body).flatten).beacon =
        fields.beacon := by
      rw [carries.beacon]
      cases profile with
      | devEd25519PufBeacon => exact inBody
      | pqMlkem512Mldsa44 => rfl
    have hash : (loadedFields profile (capsuleParts profile fields body).flatten).helloHash =
        fields.helloHash := by
      cases profile with
      | devEd25519PufBeacon => exact helloHash
      | pqMlkem512Mldsa44 => exact helloHash
    have ciphertext : (loadedFields profile
        (capsuleParts profile fields body).flatten).kemCiphertext = fields.kemCiphertext := by
      rw [carries.kemCiphertext]
      cases profile with
      | devEd25519PufBeacon => rfl
      | pqMlkem512Mldsa44 => exact congrArg some inBody
    have loaded : loadedFields profile (capsuleParts profile fields body).flatten = fields :=
      CapsuleFields.ext (formed.selectedProfile.trans carries.selectedProfile.symm)
        (teb_load_u64_be_of_slice deviceId) (teb_load_u32_be_of_slice bootCounter)
        (teb_load_u64_be_of_slice gatewayTimeMs) (teb_load_u32_be_of_slice sequence) beacon hash
        ciphertext signature
    rw [parsed, loaded]
  · exact absurd formed malformed

/-! ## Encoding a parsed capsule again -/

def reencode (profile : Profile) (fields : CapsuleFields) : Option Bytes :=
  match profile with
  | .devEd25519PufBeacon =>
      (BeaconServer.packSigned fields.deviceId.toNat fields.bootCounter.toNat
        fields.gatewayTimeMs.toNat fields.sequence.toNat fields.beacon fields.helloHash).map
        (· ++ fields.signature)
  | .pqMlkem512Mldsa44 =>
      some (store (PqServer.signedMsg fields.deviceId fields.bootCounter fields.gatewayTimeMs
        fields.sequence (fields.kemCiphertext.getD []) fields.helloHash) profile.capsuleSignedLen
        fields.signature)

theorem reencode_carried {fields : CapsuleFields} {body : Bytes}
    (carries : Carries profile fields body) :
    reencode profile fields = some (capsuleParts profile fields body).flatten := by
  rw [← packed_capsule_parts]
  cases profile with
  | devEd25519PufBeacon =>
      rw [reencode, carries.beacon]
      have packed := BeaconServer.pack_signed_packed fields.deviceId.toNat_lt
        fields.bootCounter.toNat_lt fields.gatewayTimeMs.toNat_lt fields.sequence.toNat_lt
        ⟨body, carries.bodyLength⟩ ⟨fields.helloHash, carries.helloHashLength⟩
      rw [packed, Option.map_some, ← packed_capsule_signature]
  | pqMlkem512Mldsa44 =>
      rw [reencode, carries.kemCiphertext, Option.getD_some]
      have packed := PqServer.signed_msg_packed fields.deviceId fields.bootCounter
        fields.gatewayTimeMs fields.sequence ⟨body, carries.bodyLength⟩
        ⟨fields.helloHash, carries.helloHashLength⟩
      have front := packed_capsule_front_length .pqMlkem512Mldsa44 fields.deviceId.toNat
        fields.bootCounter.toNat fields.gatewayTimeMs.toNat fields.sequence.toNat
        carries.bodyLength carries.helloHashLength
      have zeros := store_field tebMldsa44SigSize 0 Profile.pqMlkem512Mldsa44.capsuleSignedLen
        carries.signatureLength.symm front
      rw [packed, packed_capsule_signature, zeros, List.replicate_zero, List.append_nil,
        ← packed_capsule_signature]

theorem be_bytes_teb_load_u32_be {bytes : Bytes} {off : Nat} (inside : off + 4 ≤ bytes.length) :
    beBytes 4 (tebLoadU32Be bytes off).toNat = slice bytes off 4 := by
  have fits : beValue (slice bytes off 4) < 2 ^ 32 := be_value_slice_lt bytes off 4
  rw [tebLoadU32Be, UInt32.toNat_ofNat', Nat.mod_eq_of_lt fits, be_bytes_slice inside]

theorem be_bytes_teb_load_u64_be {bytes : Bytes} {off : Nat} (inside : off + 8 ≤ bytes.length) :
    beBytes 8 (tebLoadU64Be bytes off).toNat = slice bytes off 8 := by
  have fits : beValue (slice bytes off 8) < 2 ^ 64 := be_value_slice_lt bytes off 8
  rw [tebLoadU64Be, UInt64.toNat_ofNat', Nat.mod_eq_of_lt fits, be_bytes_slice inside]

theorem well_formed_carries {buf : Bytes} (formed : WellFormed profile buf) :
    Carries profile (loadedFields profile buf)
      (slice buf tebCapsuleHeaderLen profile.bodySize) := by
  have length := formed.length
  rw [Profile.capsuleLen, capsule_signed_len_eq] at length
  have hash : (loadedFields profile buf).helloHash =
      slice buf (tebCapsuleHeaderLen + profile.bodySize) tebHashSize := by
    cases profile with
    | devEd25519PufBeacon => rfl
    | pqMlkem512Mldsa44 => rfl
  exact
    { selectedProfile := formed.selectedProfile
      bodyLength := slice_length _ _ _ (by omega)
      helloHashLength := by
        rw [hash]
        exact slice_length _ _ _ (by omega)
      signatureLength := slice_length _ _ _ (le_of_eq formed.length.symm)
      beacon := by cases profile <;> rfl
      kemCiphertext := by cases profile <;> rfl }

theorem well_formed_parts {buf : Bytes} (formed : WellFormed profile buf) :
    (capsuleParts profile (loadedFields profile buf)
      (slice buf tebCapsuleHeaderLen profile.bodySize)).flatten = buf := by
  have signed := capsule_signed_len_eq profile
  have length := formed.length
  rw [Profile.capsuleLen, signed, tebCapsuleHeaderLen, tebHashSize] at length
  have octet (off : Nat) (inside : off < 32) : slice buf off 1 = [buf.getD off 0] :=
    slice_one (by omega)
  have signedField : beBytes 2 profile.capsuleSignedLen = slice buf 6 2 := by
    have fits : beValue (slice buf 6 2) < 2 ^ 16 := be_value_slice_lt buf 6 2
    rw [← formed.signedLength, tebLoadU16Be, UInt16.toNat_ofNat', Nat.mod_eq_of_lt fits,
      be_bytes_slice (by omega)]
  have hash : (loadedFields profile buf).helloHash = slice buf (32 + profile.bodySize) 32 := by
    cases profile with
    | devEd25519PufBeacon => rfl
    | pqMlkem512Mldsa44 => rfl
  have parts : capsuleParts profile (loadedFields profile buf)
      (slice buf tebCapsuleHeaderLen profile.bodySize) =
      cut [4, 1, 1, 2, 8, 4, 8, 4, profile.bodySize, 32, profile.signatureSize] buf := by
    rw [capsuleParts, hash, signedField, ← formed.magic, ← formed.version,
      ← formed.selectedProfile, ← octet 4 (by decide), ← octet 5 (by decide)]
    simp only [loadedFields, cut, signed]
    rw [be_bytes_teb_load_u64_be (by omega), be_bytes_teb_load_u32_be (by omega),
      be_bytes_teb_load_u64_be (by omega), be_bytes_teb_load_u32_be (by omega)]
    simp only [slice, List.drop_drop, List.drop_zero, Nat.reduceAdd, tebCapsuleHeaderLen,
      tebHashSize, Nat.add_assoc]
  rw [parts, cut_flatten]
  apply List.take_of_length_le
  rw [length]
  simp
  omega

theorem reencode_of_parsed {buf : Bytes} {fields : CapsuleFields}
    (parsed : tebParseCapsule profile buf = .ok fields) : reencode profile fields = some buf := by
  rcases teb_parse_capsule_cases profile buf with ⟨formed, loaded⟩ | ⟨_, ret, rejected, _⟩
  · rw [loaded] at parsed
    cases parsed
    rw [reencode_carried (well_formed_carries formed), well_formed_parts formed]
  · rw [rejected] at parsed
    cases parsed

/-! ## Acceptance -/

/-- The calls of the client that can only fail outside the signature and the KEM. -/
structure LibrariesSucceed (env : Environment profile) : Prop where
  shaHelloRet : env.shaHelloRet = 0
  shaCiphertextRet : env.shaCiphertextRet = 0
  hkdfRet : env.hkdfRet = 0
  addEntropyRet : env.addEntropyRet = 0

/-- A capsule whose fields answer the hello is accepted once it verifies and
decapsulates. -/
theorem accept_parsed_capsule {env : Environment profile} (succeed : LibrariesSucceed env)
    {hello capsule : Bytes} {helloFields : HelloFields} {fields : CapsuleFields}
    (helloLength : hello.length = tebHelloLen)
    (parsed : tebParseCapsule profile capsule = .ok fields)
    (deviceId : fields.deviceId = helloFields.deviceId)
    (bootCounter : fields.bootCounter = helloFields.bootCounter)
    (helloHash : fields.helloHash = (env.sha256 hello).val)
    (signature : (env.verify env.gatewayPublicKey (capsule.take profile.capsuleSignedLen)
      fields.signature).Accepted profile)
    (decapsulated : decapsulateRet env fields = 0) (puf : PufSample) (trace : Trace) :
    (acceptCapsule env hello helloFields puf capsule trace).2 = 0 := by
  rcases teb_parse_capsule_cases profile capsule with ⟨formed, loaded⟩ | ⟨_, ret, rejected, _⟩
  · rw [loaded] at parsed
    cases parsed
    have gate : CapsuleGate env hello helloFields capsule :=
      ⟨formed, deviceId, bootCounter, succeed.shaHelloRet, helloHash, signature, decapsulated,
        succeed.shaCiphertextRet, succeed.hkdfRet⟩
    rcases accept_capsule_cases env hello helloFields puf capsule trace helloLength with
      ⟨_, _, ret⟩ | ⟨closed, _⟩
    · exact ret.trans succeed.addEntropyRet
    · exact absurd gate closed
  · rw [rejected] at parsed
    cases parsed

end Capsule

/-! ## C server and PQ client -/

namespace PqServer

structure DecapsSucceeds (call : DecapsCall) : Prop where
  keyAllocated : call.keyAllocated = true
  initRet : call.initRet = 0
  decodeRet : call.decodeRet = 0
  decapsulateRet : call.decapsulateRet = 0

/-- The client hashes as the server does, verifies what it signs and decapsulates
what it encapsulates. -/
structure Calls.Matches (calls : Calls) (env : Environment .pqMlkem512Mldsa44) : Prop where
  sha256 : env.sha256 = calls.sha256
  verify : ∀ msg sig, calls.sign msg = some sig →
    (env.verify env.gatewayPublicKey msg sig).Accepted .pqMlkem512Mldsa44
  decaps : ∀ kemCt sharedSecret, calls.encaps = some (kemCt, sharedSecret) →
    DecapsSucceeds (env.decaps kemCt.val) ∧ env.kemSharedSecret = sharedSecret

theorem parse_built_hello (sha256 : Bytes → Block tebHashSize) (fields : HelloFields) :
    parseHello sha256 (tebBuildHello .pqMlkem512Mldsa44 fields) =
      .ok ⟨fields.deviceId, fields.bootCounter, fields.uptimeMs,
        sha256 (tebBuildHello .pqMlkem512Mldsa44 fields)⟩ := by
  have layout := teb_build_hello_layout .pqMlkem512Mldsa44 fields
  have flags : tebLoadU16Be (tebBuildHello .pqMlkem512Mldsa44 fields) 6 = 0 :=
    UInt16.toNat_inj.mp (teb_load_u16_be_of_slice (by decide) layout.flags)
  rw [parseHello, if_neg (not_not.mpr layout.length), if_neg (not_not.mpr layout.magic), if_neg,
    teb_load_u64_be_of_slice layout.deviceId, teb_load_u32_be_of_slice layout.bootCounter,
    teb_load_u32_be_of_slice layout.uptimeMs]
  rintro (version | profile | nonzero)
  · exact version layout.version
  · exact profile layout.selectedProfile
  · exact nonzero flags

def sentFields (calls : Calls) (hello : TebHello) (sequence : UInt32)
    (kemCt : Block tebMlkem512CiphertextSize) (sig : Bytes) : CapsuleFields where
  profile := Profile.pqMlkem512Mldsa44.code
  deviceId := hello.deviceId
  bootCounter := hello.counter
  gatewayTimeMs := calls.unixTimeMs
  sequence := sequence
  beacon := List.replicate tebBeaconSize 0
  helloHash := hello.helloHash.val
  kemCiphertext := some kemCt.val
  signature := sig

theorem parse_built_capsule {calls : Calls} (succeed : calls.Succeed) (hello : TebHello)
    (sequence : UInt32) :
    ∃ kemCt sharedSecret sig capsule, calls.encaps = some (kemCt, sharedSecret) ∧
      calls.sign (capsule.take Profile.pqMlkem512Mldsa44.capsuleSignedLen) = some sig ∧
      (buildCapsule calls hello sequence).1 = .ok capsule ∧
      tebParseCapsule .pqMlkem512Mldsa44 capsule =
        .ok (sentFields calls hello sequence kemCt sig) := by
  obtain ⟨⟨kemCt, sharedSecret⟩, encaps⟩ := Option.ne_none_iff_exists'.mp succeed.encaps
  obtain ⟨sig, sign, length⟩ := succeed.sign
    ((signedMsg hello.deviceId hello.counter calls.unixTimeMs sequence kemCt.val
      hello.helloHash.val).take Profile.pqMlkem512Mldsa44.capsuleSignedLen)
  have carries : Carries .pqMlkem512Mldsa44 (sentFields calls hello sequence kemCt sig)
      kemCt.val := ⟨rfl, kemCt.property, hello.helloHash.property, length, rfl, rfl⟩
  have encoded := Option.some_injective _ (reencode_carried carries)
  have parsed := parse_packed_capsule carries
  rw [← encoded] at parsed
  refine ⟨kemCt, sharedSecret, sig, _, encaps, ?_, build_capsule_eq encaps sign length, parsed⟩
  have front := packed_capsule_front_length .pqMlkem512Mldsa44 hello.deviceId.toNat
    hello.counter.toNat calls.unixTimeMs.toNat sequence.toNat kemCt.property
    hello.helloHash.property
  have whole : Profile.pqMlkem512Mldsa44.capsuleSignedLen ≤ (signedMsg hello.deviceId hello.counter
      calls.unixTimeMs sequence kemCt.val hello.helloHash.val).length := by
    rw [signed_msg_packed, packed_capsule_signature, List.length_append, front]
    exact Nat.le_add_right _ _
  rw [store, List.append_assoc, List.take_left' (List.length_take_of_le whole), sign]

/-- One exchange with the C server, from the hello to the client's verdict. -/
theorem exchange_accepted {calls : Calls} (succeed : calls.Succeed) (fields : HelloFields)
    (sequence : UInt32) :
    ∃ hello kemCt sig capsule,
      parseHello calls.sha256 (tebBuildHello .pqMlkem512Mldsa44 fields) = .ok hello ∧
      hello.deviceId = fields.deviceId ∧ hello.counter = fields.bootCounter ∧
      hello.uptimeMs = fields.uptimeMs ∧
      (∃ sharedSecret, calls.encaps = some (kemCt, sharedSecret)) ∧
      calls.sign (capsule.take Profile.pqMlkem512Mldsa44.capsuleSignedLen) = some sig ∧
      (buildCapsule calls hello sequence).1 = .ok capsule ∧
      tebParseCapsule .pqMlkem512Mldsa44 capsule =
        .ok (sentFields calls hello sequence kemCt sig) ∧
      ∀ env : Environment .pqMlkem512Mldsa44, calls.Matches env → LibrariesSucceed env →
        ∀ puf trace, (acceptCapsule env (tebBuildHello .pqMlkem512Mldsa44 fields) fields puf
          capsule trace).2 = 0 := by
  obtain ⟨kemCt, sharedSecret, sig, capsule, encaps, sign, built, parsed⟩ :=
    parse_built_capsule succeed ⟨fields.deviceId, fields.bootCounter, fields.uptimeMs,
      calls.sha256 (tebBuildHello .pqMlkem512Mldsa44 fields)⟩ sequence
  refine ⟨_, kemCt, sig, capsule, parse_built_hello calls.sha256 fields, rfl, rfl, rfl,
    ⟨sharedSecret, encaps⟩, sign, built, parsed, ?_⟩
  intro env pairs libraries puf trace
  have decaps := (pairs.decaps kemCt sharedSecret encaps).1
  have decapsulated : decapsulateRet env (sentFields calls ⟨fields.deviceId, fields.bootCounter,
      fields.uptimeMs, calls.sha256 (tebBuildHello .pqMlkem512Mldsa44 fields)⟩ sequence kemCt
      sig) = 0 := by
    show tebMlkem512Decapsulate (env.decaps kemCt.val) = 0
    rw [tebMlkem512Decapsulate, decaps.keyAllocated, decaps.initRet, decaps.decodeRet,
      decaps.decapsulateRet]
    rfl
  apply accept_parsed_capsule libraries (teb_build_hello_length _ fields) parsed rfl rfl _
    (pairs.verify _ _ sign) decapsulated
  rw [pairs.sha256]
  rfl

end PqServer

/-! ## Python server and Ed25519 client -/

namespace BeaconServer

structure Calls.Matches (calls : Calls) (env : Environment .devEd25519PufBeacon) : Prop where
  sha256 : env.sha256 = calls.sha256
  verify : ∀ msg sig, calls.signMessage msg = some sig →
    (env.verify env.gatewayPublicKey msg sig).Accepted .devEd25519PufBeacon

theorem parse_built_hello (sha256 : Bytes → Block tebHashSize) (fields : HelloFields) :
    parseHello sha256 (tebBuildHello .devEd25519PufBeacon fields) =
      .ok (loadedHello sha256 (tebBuildHello .devEd25519PufBeacon fields)) := by
  have layout := teb_build_hello_layout .devEd25519PufBeacon fields
  rw [parse_hello_eq sha256 layout.length, if_neg (not_not.mpr layout.magic), layout.version,
    if_neg (not_not.mpr rfl), layout.selectedProfile, if_neg (not_not.mpr rfl)]

def sentFields (calls : Calls) (fields : HelloFields) (helloHash : Bytes)
    (gatewayTimeMs : UInt64) (sequence : UInt32) (sig : Bytes) : CapsuleFields where
  profile := Profile.devEd25519PufBeacon.code
  deviceId := fields.deviceId
  bootCounter := fields.bootCounter
  gatewayTimeMs := gatewayTimeMs
  sequence := sequence
  beacon := calls.urandom.val
  helloHash := helloHash
  kemCiphertext := none
  signature := sig

theorem parse_built_capsule {calls : Calls} (succeed : calls.Succeed) {fields : HelloFields}
    {hello : Hello} (deviceId : hello.deviceId = fields.deviceId.toNat)
    (counter : hello.counter = fields.bootCounter.toNat) {gatewayTimeMs : UInt64}
    (clock : calls.gatewayTimeMs = gatewayTimeMs.toNat) (sequence : UInt32) :
    ∃ sig capsule,
      calls.signMessage (capsule.take Profile.devEd25519PufBeacon.capsuleSignedLen) = some sig ∧
      buildCapsule calls hello sequence.toNat = .ok capsule ∧
      tebParseCapsule .devEd25519PufBeacon capsule =
        .ok (sentFields calls fields hello.helloHash.val gatewayTimeMs sequence sig) := by
  have packed := pack_signed_packed fields.deviceId.toNat_lt fields.bootCounter.toNat_lt
    gatewayTimeMs.toNat_lt sequence.toNat_lt calls.urandom hello.helloHash
  have front := packed_capsule_front_length .devEd25519PufBeacon fields.deviceId.toNat
    fields.bootCounter.toNat gatewayTimeMs.toNat sequence.toNat
    calls.urandom.property hello.helloHash.property
  obtain ⟨sig, sign, length⟩ := succeed.sign (packedCapsule .devEd25519PufBeacon
    fields.deviceId.toNat fields.bootCounter.toNat gatewayTimeMs.toNat sequence.toNat
    calls.urandom.val hello.helloHash.val [])
  have carries : Carries .devEd25519PufBeacon
      (sentFields calls fields hello.helloHash.val gatewayTimeMs sequence sig)
      calls.urandom.val := ⟨rfl, calls.urandom.property, hello.helloHash.property, length, rfl, rfl⟩
  have parsed := parse_packed_capsule carries
  rw [← packed_capsule_parts, packed_capsule_signature] at parsed
  refine ⟨sig, _, ?_, ?_, parsed⟩
  · exact (congrArg calls.signMessage (List.take_left' front)).trans sign
  · rw [buildCapsule, deviceId, counter, clock, packed]
    dsimp only
    rw [sign]
    dsimp only
    rw [if_neg]
    · rfl
    · rintro (wrong | wrong)
      · exact wrong front
      · exact wrong length

theorem exchange_accepted {calls : Calls} (succeed : calls.Succeed) (fields : HelloFields)
    {gatewayTimeMs : UInt64} (clock : calls.gatewayTimeMs = gatewayTimeMs.toNat)
    (sequence : UInt32) :
    ∃ hello sig capsule,
      parseHello calls.sha256 (tebBuildHello .devEd25519PufBeacon fields) = .ok hello ∧
      hello.deviceId = fields.deviceId.toNat ∧ hello.counter = fields.bootCounter.toNat ∧
      hello.uptime = fields.uptimeMs.toNat ∧
      calls.signMessage (capsule.take Profile.devEd25519PufBeacon.capsuleSignedLen) = some sig ∧
      buildCapsule calls hello sequence.toNat = .ok capsule ∧
      tebParseCapsule .devEd25519PufBeacon capsule =
        .ok (sentFields calls fields hello.helloHash.val gatewayTimeMs sequence sig) ∧
      ∀ env : Environment .devEd25519PufBeacon, calls.Matches env → LibrariesSucceed env →
        ∀ puf trace, (acceptCapsule env (tebBuildHello .devEd25519PufBeacon fields) fields puf
          capsule trace).2 = 0 := by
  have layout := teb_build_hello_layout .devEd25519PufBeacon fields
  have deviceId : (loadedHello calls.sha256 (tebBuildHello .devEd25519PufBeacon fields)).deviceId =
      fields.deviceId.toNat := by
    rw [loadedHello, layout.deviceId, be_value_bytes_of_lt fields.deviceId.toNat_lt]
  have counter : (loadedHello calls.sha256 (tebBuildHello .devEd25519PufBeacon fields)).counter =
      fields.bootCounter.toNat := by
    rw [loadedHello, layout.bootCounter, be_value_bytes_of_lt fields.bootCounter.toNat_lt]
  have uptime : (loadedHello calls.sha256 (tebBuildHello .devEd25519PufBeacon fields)).uptime =
      fields.uptimeMs.toNat := by
    rw [loadedHello, layout.uptimeMs, be_value_bytes_of_lt fields.uptimeMs.toNat_lt]
  obtain ⟨sig, capsule, sign, built, parsed⟩ :=
    parse_built_capsule succeed deviceId counter clock sequence
  refine ⟨_, sig, capsule, parse_built_hello calls.sha256 fields, deviceId, counter, uptime, sign,
    built, parsed, ?_⟩
  intro env pairs libraries puf trace
  apply accept_parsed_capsule libraries (teb_build_hello_length _ fields) parsed rfl rfl _
    (pairs.verify _ _ sign) rfl
  rw [pairs.sha256]
  rfl

end BeaconServer

/-! ## Both profiles -/

/-- Hello and capsule survive the wire in both profiles, the client accepts what it
asked for, and an accepted capsule has one encoding. -/
theorem capsule_round_trip (fields : HelloFields) {pqCalls : PqServer.Calls}
    (pqSucceed : pqCalls.Succeed) (pqSequence : UInt32) {beaconCalls : BeaconServer.Calls}
    (beaconSucceed : beaconCalls.Succeed) (gatewayTimeMs : UInt64)
    (clock : beaconCalls.gatewayTimeMs = gatewayTimeMs.toNat) (beaconSequence : UInt32) :
    (∃ hello kemCt sig capsule,
      PqServer.parseHello pqCalls.sha256 (tebBuildHello .pqMlkem512Mldsa44 fields) = .ok hello ∧
      hello.deviceId = fields.deviceId ∧ hello.counter = fields.bootCounter ∧
      hello.uptimeMs = fields.uptimeMs ∧
      (∃ sharedSecret, pqCalls.encaps = some (kemCt, sharedSecret)) ∧
      pqCalls.sign (capsule.take Profile.pqMlkem512Mldsa44.capsuleSignedLen) = some sig ∧
      (PqServer.buildCapsule pqCalls hello pqSequence).1 = .ok capsule ∧
      tebParseCapsule .pqMlkem512Mldsa44 capsule =
        .ok (PqServer.sentFields pqCalls hello pqSequence kemCt sig) ∧
      ∀ env : Environment .pqMlkem512Mldsa44, pqCalls.Matches env → LibrariesSucceed env →
        ∀ puf trace, (acceptCapsule env (tebBuildHello .pqMlkem512Mldsa44 fields) fields puf
          capsule trace).2 = 0) ∧
    (∃ hello sig capsule,
      BeaconServer.parseHello beaconCalls.sha256 (tebBuildHello .devEd25519PufBeacon fields) =
        .ok hello ∧
      hello.deviceId = fields.deviceId.toNat ∧ hello.counter = fields.bootCounter.toNat ∧
      hello.uptime = fields.uptimeMs.toNat ∧
      beaconCalls.signMessage (capsule.take Profile.devEd25519PufBeacon.capsuleSignedLen) =
        some sig ∧
      BeaconServer.buildCapsule beaconCalls hello beaconSequence.toNat = .ok capsule ∧
      tebParseCapsule .devEd25519PufBeacon capsule =
        .ok (BeaconServer.sentFields beaconCalls fields hello.helloHash.val gatewayTimeMs
          beaconSequence sig) ∧
      ∀ env : Environment .devEd25519PufBeacon, beaconCalls.Matches env → LibrariesSucceed env →
        ∀ puf trace, (acceptCapsule env (tebBuildHello .devEd25519PufBeacon fields) fields puf
          capsule trace).2 = 0) ∧
    ∀ (profile : Profile) (buf : Bytes) (parsed : CapsuleFields),
      tebParseCapsule profile buf = .ok parsed → reencode profile parsed = some buf := by
  refine ⟨PqServer.exchange_accepted pqSucceed fields pqSequence,
    BeaconServer.exchange_accepted beaconSucceed fields clock beaconSequence, ?_⟩
  intro profile buf parsed accepted
  exact reencode_of_parsed accepted

def plainEnvironment (profile : Profile) : Environment profile :=
  { collidingEnvironment with capsule := zeroBlock profile.capsuleLen }

theorem plain_libraries_succeed (profile : Profile) : LibrariesSucceed (plainEnvironment profile) :=
  ⟨rfl, rfl, rfl, rfl⟩

theorem plain_pq_calls_match : plainPqCalls.Matches (plainEnvironment .pqMlkem512Mldsa44) where
  sha256 := rfl
  verify := fun _ _ _ => ⟨rfl, rfl, fun _ => rfl, rfl, rfl, rfl⟩
  decaps := by
    rintro kemCt sharedSecret ⟨⟩
    exact ⟨⟨rfl, rfl, rfl, rfl⟩, rfl⟩

theorem plain_beacon_calls_match :
    plainBeaconCalls.Matches (plainEnvironment .devEd25519PufBeacon) where
  sha256 := rfl
  verify := fun _ _ _ => ⟨rfl, rfl, fun _ => rfl, rfl, rfl, rfl⟩

/-- A hello of zeros, one capsule from each server. -/
theorem plain_capsules_accepted :
    (∃ hello capsule, (PqServer.buildCapsule plainPqCalls hello 1).1 = .ok capsule ∧
      (acceptCapsule (plainEnvironment .pqMlkem512Mldsa44)
        (tebBuildHello .pqMlkem512Mldsa44 plainHello) plainHello plainPuf capsule
        (startTrace ⟨0, 0, 0⟩)).2 = 0) ∧
    ∃ hello capsule, BeaconServer.buildCapsule plainBeaconCalls hello 1 = .ok capsule ∧
      (acceptCapsule (plainEnvironment .devEd25519PufBeacon)
        (tebBuildHello .devEd25519PufBeacon plainHello) plainHello plainPuf capsule
        (startTrace ⟨0, 0, 0⟩)).2 = 0 := by
  obtain ⟨⟨pqHello, _, _, pqCapsule, _, _, _, _, _, _, pqBuilt, _, pqAccepts⟩,
    ⟨hello, _, capsule, _, _, _, _, _, built, _, accepts⟩, _⟩ :=
    capsule_round_trip plainHello plain_pq_calls_succeed 1 plain_beacon_calls_succeed 0 rfl 1
  exact ⟨⟨pqHello, pqCapsule, pqBuilt,
      pqAccepts _ plain_pq_calls_match (plain_libraries_succeed _) _ _⟩,
    hello, capsule, built, accepts _ plain_beacon_calls_match (plain_libraries_succeed _) _ _⟩

end BootEntropy.Capsule
