import BootEntropy.Capsule.Protocol

/-!
# The two gateway servers

`teb_pq_beacon_server.c` answers PQ hellos, `teb_beacon_server.py` the Ed25519
ones. `serve` is one turn of a main loop: the sequence number after it, and the
capsule handed to `sendto`.
-/

namespace BootEntropy.Capsule

open BootEntropy.Lib

set_option autoImplicit false

/-! ## C server -/

namespace PqServer

/-! Error numbers of the host. -/

def eIo : Int := 5
def eBADMSG : Int := 74
def eMSGSIZE : Int := 90
def ePROTONOSUPPORT : Int := 93

structure TebHello where
  deviceId : UInt64
  counter : UInt32
  uptimeMs : UInt32
  helloHash : Block tebHashSize
  deriving DecidableEq

/-- What the libraries and the clock answer while one hello is served. `none` is a
failing call. -/
structure Calls where
  sha256 : Bytes → Block tebHashSize
  unixTimeMs : UInt64
  encaps : Option (Block tebMlkem512CiphertextSize × Block tebMlkem512SharedSecretSize)
  sign : Bytes → Option Bytes

def parseHello (sha256 : Bytes → Block tebHashSize) (buf : Bytes) : Except Int TebHello :=
  if buf.length ≠ tebHelloLen then .error (-eMSGSIZE)
  else if slice buf 0 4 ≠ tebHelloMagic then .error (-eBADMSG)
  else if buf.getD 4 0 ≠ tebVersion ∨ buf.getD 5 0 ≠ Profile.pqMlkem512Mldsa44.code ∨
      tebLoadU16Be buf 6 ≠ 0 then
    .error (-ePROTONOSUPPORT)
  else .ok ⟨tebLoadU64Be buf 8, tebLoadU32Be buf 16, tebLoadU32Be buf 20, sha256 buf⟩

def signedMsg (deviceId : UInt64) (counter : UInt32) (unixTimeMs : UInt64) (sequence : UInt32)
    (kemCt helloHash : Bytes) : Bytes :=
  let capsule := List.replicate Profile.pqMlkem512Mldsa44.capsuleLen 0
  let capsule := store capsule 0 tebCapsuleMagic
  let capsule := store capsule 4 [tebVersion]
  let capsule := store capsule 5 [Profile.pqMlkem512Mldsa44.code]
  let capsule := store capsule 6
    (tebStoreU16Be (UInt16.ofNat Profile.pqMlkem512Mldsa44.capsuleSignedLen))
  let capsule := store capsule 8 (tebStoreU64Be deviceId)
  let capsule := store capsule 16 (tebStoreU32Be counter)
  let capsule := store capsule 20 (tebStoreU64Be unixTimeMs)
  let capsule := store capsule 28 (tebStoreU32Be sequence)
  let capsule := store capsule tebCapsuleHeaderLen kemCt
  store capsule (tebCapsuleHeaderLen + tebMlkem512CiphertextSize) helloHash

/-- A negative code or the capsule, and what is left in `shared_secret`; `none`
before its first write. -/
def buildCapsule (calls : Calls) (hello : TebHello) (sequence : UInt32) :
    Except Int Bytes × Option Bytes :=
  match calls.encaps with
  | none => (.error (-eIo), none)
  | some (kemCt, sharedSecret) =>
      let capsule := signedMsg hello.deviceId hello.counter calls.unixTimeMs sequence kemCt.val
        hello.helloHash.val
      match calls.sign (capsule.take Profile.pqMlkem512Mldsa44.capsuleSignedLen) with
      | none => (.error (-eIo), some sharedSecret.val)
      | some sig =>
          if sig.length ≠ tebMldsa44SigSize then (.error (-eMSGSIZE), some sharedSecret.val)
          else
            (.ok (store capsule Profile.pqMlkem512Mldsa44.capsuleSignedLen sig),
              some (List.replicate tebMlkem512SharedSecretSize 0))

/-- The receive buffer has the size of a hello, so `recvfrom` cuts a longer
datagram before its length is checked. -/
def serve (calls : Calls) (sequence : UInt32) (datagram : Bytes) : UInt32 × Option Bytes :=
  match parseHello calls.sha256 (datagram.take tebHelloLen) with
  | .error _ => (sequence, none)
  | .ok hello =>
      match (buildCapsule calls hello (sequence + 1)).1 with
      | .error _ => (sequence + 1, none)
      | .ok capsule => (sequence + 1, some capsule)

end PqServer

/-! ## Python server -/

namespace BeaconServer

inductive PyError where
  | valueError (text : String)
  | structError
  | runtimeError (text : String)
  | assertionError (text : String)
  deriving DecidableEq, Repr

structure Hello where
  flags : Nat
  deviceId : Nat
  counter : Nat
  uptime : Nat
  sramCommitment : Bytes
  timingCommitment : Bytes
  helloHash : Block tebHashSize
  deriving DecidableEq

/-- `signMessage` is `none` when neither signing library is installed. -/
structure Calls where
  sha256 : Bytes → Block tebHashSize
  urandom : Block tebBeaconSize
  gatewayTimeMs : Int
  signMessage : Bytes → Option Bytes

def recvLimit : Nat := 2048

def parseHello (sha256 : Bytes → Block tebHashSize) (data : Bytes) : Except PyError Hello :=
  if data.length ≠ tebHelloLen then
    .error (.valueError ("bad hello length " ++ toString data.length))
  else
    let fields := data.take 24
    let magic := fields.take 4
    let (version, rest) := unpackBe 1 (fields.drop 4)
    let (profile, rest) := unpackBe 1 rest
    let (flags, rest) := unpackBe 2 rest
    let (deviceId, rest) := unpackBe 8 rest
    let (counter, rest) := unpackBe 4 rest
    let (uptime, _) := unpackBe 4 rest
    if magic ≠ tebHelloMagic then .error (.valueError "bad hello magic")
    else if version ≠ tebVersion.toNat then
      .error (.valueError ("bad version " ++ toString version))
    else if profile ≠ Profile.devEd25519PufBeacon.code.toNat then
      .error (.valueError ("bad profile " ++ toString profile))
    else
      .ok ⟨flags, deviceId, counter, uptime, slice data 24 32, slice data 56 32, sha256 data⟩

/-- `struct.pack` of one unsigned field; `none` is a `struct.error`. -/
def packUnsigned (width : Nat) (value : Int) : Option Bytes :=
  if 0 ≤ value ∧ value.toNat < 256 ^ width then some (beBytes width value.toNat) else none

/-- `32s`: cut or padded with zeros. -/
def pack32s (bytes : Bytes) : Bytes := (bytes ++ List.replicate 32 0).take 32

def packSigned (deviceId counter gatewayTimeMs sequence : Int) (beacon helloHash : Bytes) :
    Option Bytes := do
  let deviceId ← packUnsigned 8 deviceId
  let counter ← packUnsigned 4 counter
  let gatewayTimeMs ← packUnsigned 8 gatewayTimeMs
  let sequence ← packUnsigned 4 sequence
  return tebCapsuleMagic ++ [tebVersion] ++ [Profile.devEd25519PufBeacon.code] ++
    beBytes 2 Profile.devEd25519PufBeacon.capsuleSignedLen ++ deviceId ++ counter ++
    gatewayTimeMs ++ sequence ++ pack32s beacon ++ pack32s helloHash

def buildCapsule (calls : Calls) (hello : Hello) (sequence : Nat) : Except PyError Bytes :=
  match packSigned hello.deviceId hello.counter calls.gatewayTimeMs sequence calls.urandom.val
      hello.helloHash.val with
  | none => .error .structError
  | some signed =>
      match calls.signMessage signed with
      | none => .error (.runtimeError "install PyNaCl or cryptography for Ed25519 signing")
      | some sig =>
          if signed.length ≠ Profile.devEd25519PufBeacon.capsuleSignedLen ∨ sig.length ≠ 64 then
            .error (.assertionError "capsule size bug")
          else .ok (signed ++ sig)

def serve (calls : Calls) (sequence : Nat) (datagram : Bytes) : Nat × Option Bytes :=
  match parseHello calls.sha256 (datagram.take recvLimit) with
  | .error _ => (sequence, none)
  | .ok hello =>
      match buildCapsule calls hello (sequence + 1) with
      | .error _ => (sequence + 1, none)
      | .ok capsule => (sequence + 1, some capsule)

end BeaconServer

/-! ## One layout -/

/-- The fields of a capsule one after another. `body` is the KEM ciphertext or the
beacon. -/
def packedCapsule (profile : Profile) (deviceId counter gatewayTimeMs sequence : Nat)
    (body helloHash signature : Bytes) : Bytes :=
  tebCapsuleMagic ++ ([tebVersion] ++ ([profile.code] ++ (beBytes 2 profile.capsuleSignedLen ++
    (beBytes 8 deviceId ++ (beBytes 4 counter ++ (beBytes 8 gatewayTimeMs ++
      (beBytes 4 sequence ++ (body ++ (helloHash ++ signature)))))))))

def Profile.bodySize : Profile → Nat
  | .devEd25519PufBeacon => tebBeaconSize
  | .pqMlkem512Mldsa44 => tebMlkem512CiphertextSize

theorem capsule_signed_len_eq (profile : Profile) :
    profile.capsuleSignedLen = tebCapsuleHeaderLen + profile.bodySize + tebHashSize := by
  cases profile <;> rfl

theorem packed_capsule_signature (profile : Profile) (deviceId counter gatewayTimeMs sequence : Nat)
    (body helloHash signature : Bytes) :
    packedCapsule profile deviceId counter gatewayTimeMs sequence body helloHash signature =
      packedCapsule profile deviceId counter gatewayTimeMs sequence body helloHash [] ++
        signature := by
  simp only [packedCapsule, List.append_assoc, List.append_nil]

theorem packed_capsule_front_length (profile : Profile)
    (deviceId counter gatewayTimeMs sequence : Nat) {body helloHash : Bytes}
    (bodyLength : body.length = profile.bodySize) (hashLength : helloHash.length = tebHashSize) :
    (packedCapsule profile deviceId counter gatewayTimeMs sequence body helloHash []).length =
      profile.capsuleSignedLen := by
  have magic : tebCapsuleMagic.length = 4 := rfl
  rw [capsule_signed_len_eq]
  simp only [packedCapsule, List.length_append, magic, List.length_singleton, be_bytes_length,
    List.length_nil, bodyLength, hashLength, tebCapsuleHeaderLen]
  omega

def packedHello (profile : Profile) (deviceId counter uptime : Nat) (sram timing : Bytes) : Bytes :=
  tebHelloMagic ++ ([tebVersion] ++ ([profile.code] ++ (beBytes 2 0 ++ (beBytes 8 deviceId ++
    (beBytes 4 counter ++ (beBytes 4 uptime ++ (sram ++ timing)))))))

theorem store_field (count left off : Nat) {source written : Bytes}
    (room : count = source.length + left) (behind : written.length = off) :
    store (written ++ List.replicate count 0) off source =
      (written ++ source) ++ List.replicate left 0 := by
  rw [room]
  exact store_zeros source left behind

theorem teb_build_hello_packed (profile : Profile) (fields : HelloFields) :
    tebBuildHello profile fields =
      packedHello profile fields.deviceId.toNat fields.bootCounter.toNat fields.uptimeMs.toNat
        fields.sramCommitment.val fields.timingCommitment.val := by
  obtain ⟨deviceId, bootCounter, uptimeMs, ⟨sram, sramLength⟩, ⟨timing, timingLength⟩⟩ := fields
  rw [tebHashSize] at sramLength timingLength
  have magic : tebHelloMagic.length = 4 := rfl
  simp only [tebBuildHello, tebHelloLen, tebStoreU16Be, tebStoreU32Be, tebStoreU64Be]
  rw [show (List.replicate 88 0 : Bytes) = [] ++ List.replicate 88 0 from rfl,
    store_field 88 84 0 (by simp [magic]) (by simp), store_field 84 83 4 (by simp) (by simp [magic]),
    store_field 83 82 5 (by simp) (by simp [magic]), store_field 82 80 6 (by simp) (by simp [magic]),
    store_field 80 72 8 (by simp) (by simp [magic]), store_field 72 68 16 (by simp) (by simp [magic]),
    store_field 68 64 20 (by simp) (by simp [magic]),
    store_field 64 32 24 (by rw [sramLength]) (by simp [magic]),
    store_field 32 0 56 (by rw [timingLength]) (by simp [magic, sramLength])]
  simp only [packedHello, List.replicate_zero, List.append_nil, List.nil_append, List.append_assoc]
  rfl

theorem PqServer.signed_msg_packed (deviceId : UInt64) (counter : UInt32) (unixTimeMs : UInt64)
    (sequence : UInt32) (kemCt : Block tebMlkem512CiphertextSize) (helloHash : Block tebHashSize) :
    PqServer.signedMsg deviceId counter unixTimeMs sequence kemCt.val helloHash.val =
      packedCapsule .pqMlkem512Mldsa44 deviceId.toNat counter.toNat unixTimeMs.toNat
        sequence.toNat kemCt.val helloHash.val (List.replicate tebMldsa44SigSize 0) := by
  obtain ⟨kemCt, ciphertextLength⟩ := kemCt
  obtain ⟨helloHash, hashLength⟩ := helloHash
  rw [tebMlkem512CiphertextSize] at ciphertextLength
  rw [tebHashSize] at hashLength
  have magic : tebCapsuleMagic.length = 4 := rfl
  simp only [PqServer.signedMsg, tebStoreU16Be, tebStoreU32Be, tebStoreU64Be, tebCapsuleHeaderLen,
    tebMlkem512CiphertextSize, Nat.reduceAdd]
  rw [show (List.replicate Profile.pqMlkem512Mldsa44.capsuleLen 0 : Bytes) =
      [] ++ List.replicate 3252 0 from rfl,
    store_field 3252 3248 0 (by simp [magic]) (by simp),
    store_field 3248 3247 4 (by simp) (by simp [magic]),
    store_field 3247 3246 5 (by simp) (by simp [magic]),
    store_field 3246 3244 6 (by simp) (by simp [magic]),
    store_field 3244 3236 8 (by simp) (by simp [magic]),
    store_field 3236 3232 16 (by simp) (by simp [magic]),
    store_field 3232 3224 20 (by simp) (by simp [magic]),
    store_field 3224 3220 28 (by simp) (by simp [magic]),
    store_field 3220 2452 32 (by rw [ciphertextLength]) (by simp [magic]),
    store_field 2452 2420 800 (by rw [hashLength]) (by simp [magic, ciphertextLength])]
  simp only [packedCapsule, List.nil_append, List.append_assoc]
  rfl

end BootEntropy.Capsule
