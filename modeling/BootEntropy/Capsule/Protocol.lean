import BootEntropy.Lib.Bytes

/-!
# Boot capsule wire format

Transcription of `teb_protocol.h` and `teb_protocol.c`. The compile-time
`TEB_SELECTED_PROFILE` is a parameter, so every statement covers both builds.
Loads and stores are the big-endian digits of `BootEntropy.Lib`; the byte
offsets are those of the source.
-/

namespace BootEntropy.Capsule

open BootEntropy.Lib

set_option autoImplicit false

inductive Profile where
  | devEd25519PufBeacon
  | pqMlkem512Mldsa44
  deriving DecidableEq, Repr

/-- The value of `TEB_SELECTED_PROFILE`. -/
def Profile.code : Profile → UInt8
  | .devEd25519PufBeacon => 1
  | .pqMlkem512Mldsa44 => 2

def Profile.name : Profile → String
  | .devEd25519PufBeacon => "dev-ed25519-puf-beacon"
  | .pqMlkem512Mldsa44 => "pq-mlkem512-mldsa44"

def tebVersion : UInt8 := 1

/-- `TEBH` -/
def tebHelloMagic : Bytes := [0x54, 0x45, 0x42, 0x48]

/-- `TEBC` -/
def tebCapsuleMagic : Bytes := [0x54, 0x45, 0x42, 0x43]

def tebHashSize : Nat := 32
def tebBeaconSize : Nat := 32
def tebEd25519SigSize : Nat := 64
def tebMlkem512CiphertextSize : Nat := 768
def tebMlkem512SharedSecretSize : Nat := 32
def tebMldsa44SigSize : Nat := 2420
def tebBootSeedSize : Nat := 32
def tebHelloLen : Nat := 88
def tebCapsuleHeaderLen : Nat := 32

def Profile.capsuleSignedLen : Profile → Nat
  | .devEd25519PufBeacon => 96
  | .pqMlkem512Mldsa44 => tebCapsuleHeaderLen + tebMlkem512CiphertextSize + tebHashSize

def Profile.signatureSize : Profile → Nat
  | .devEd25519PufBeacon => tebEd25519SigSize
  | .pqMlkem512Mldsa44 => tebMldsa44SigSize

def Profile.capsuleLen (profile : Profile) : Nat :=
  profile.capsuleSignedLen + profile.signatureSize

/-! Error numbers of the Zephyr C library. -/

def eIo : Int := 5
def eNOMEM : Int := 12
def eACCES : Int := 13
def eINVAL : Int := 22
def eBADMSG : Int := 77
def eTIMEDOUT : Int := 116
def eMSGSIZE : Int := 122
def ePROTONOSUPPORT : Int := 123

def tebStoreU16Be (v : UInt16) : Bytes := beBytes 2 v.toNat
def tebStoreU32Be (v : UInt32) : Bytes := beBytes 4 v.toNat
def tebStoreU64Be (v : UInt64) : Bytes := beBytes 8 v.toNat

def tebLoadU16Be (bytes : Bytes) (off : Nat) : UInt16 := UInt16.ofNat (beValue (slice bytes off 2))
def tebLoadU32Be (bytes : Bytes) (off : Nat) : UInt32 := UInt32.ofNat (beValue (slice bytes off 4))
def tebLoadU64Be (bytes : Bytes) (off : Nat) : UInt64 := UInt64.ofNat (beValue (slice bytes off 8))

structure HelloFields where
  deviceId : UInt64
  bootCounter : UInt32
  uptimeMs : UInt32
  sramCommitment : Block tebHashSize
  timingCommitment : Block tebHashSize
  deriving DecidableEq

/-- The two pointers of the C struct are the bytes they point at; `none` is `NULL`. -/
structure CapsuleFields where
  profile : UInt8
  deviceId : UInt64
  bootCounter : UInt32
  gatewayTimeMs : UInt64
  sequence : UInt32
  beacon : Bytes
  helloHash : Bytes
  kemCiphertext : Option Bytes
  signature : Bytes
  deriving DecidableEq

def tebBuildHello (profile : Profile) (fields : HelloFields) : Bytes :=
  let out := List.replicate tebHelloLen 0
  let out := store out 0 tebHelloMagic
  let out := store out 4 [tebVersion]
  let out := store out 5 [profile.code]
  let out := store out 6 (tebStoreU16Be 0)
  let out := store out 8 (tebStoreU64Be fields.deviceId)
  let out := store out 16 (tebStoreU32Be fields.bootCounter)
  let out := store out 20 (tebStoreU32Be fields.uptimeMs)
  let out := store out 24 fields.sramCommitment.val
  store out 56 fields.timingCommitment.val

/-- Every store of `teb_build_hello` stays inside the 88-byte array. -/
theorem teb_build_hello_length (profile : Profile) (fields : HelloFields) :
    (tebBuildHello profile fields).length = tebHelloLen := by
  have sram : fields.sramCommitment.val.length = 32 := fields.sramCommitment.property
  have timing : fields.timingCommitment.val.length = 32 := fields.timingCommitment.property
  have inside {bytes source : Bytes} {off : Nat} (whole : bytes.length = tebHelloLen)
      (fits : off + source.length ≤ 88) : (store bytes off source).length = tebHelloLen := by
    rw [store_length _ _ _ (by rw [whole]; exact fits), whole]
  rw [tebBuildHello]
  apply inside _ (by rw [timing])
  apply inside _ (by rw [sram]; decide)
  apply inside _ (by rw [tebStoreU32Be, be_bytes_length]; decide)
  apply inside _ (by rw [tebStoreU32Be, be_bytes_length]; decide)
  apply inside _ (by rw [tebStoreU64Be, be_bytes_length]; decide)
  apply inside _ (by rw [tebStoreU16Be, be_bytes_length]; decide)
  apply inside _ (by rw [List.length_singleton]; decide)
  apply inside _ (by decide)
  apply inside _ (by decide)
  exact List.length_replicate

/-- The fields `teb_parse_capsule` fills in once its checks have passed. -/
def loadedFields (profile : Profile) (buf : Bytes) : CapsuleFields where
  profile := buf.getD 5 0
  deviceId := tebLoadU64Be buf 8
  bootCounter := tebLoadU32Be buf 16
  gatewayTimeMs := tebLoadU64Be buf 20
  sequence := tebLoadU32Be buf 28
  beacon := match profile with
    | .devEd25519PufBeacon => slice buf 32 tebBeaconSize
    | .pqMlkem512Mldsa44 => List.replicate tebBeaconSize 0
  helloHash := match profile with
    | .devEd25519PufBeacon => slice buf 64 tebHashSize
    | .pqMlkem512Mldsa44 => slice buf (tebCapsuleHeaderLen + tebMlkem512CiphertextSize) tebHashSize
  kemCiphertext := match profile with
    | .devEd25519PufBeacon => none
    | .pqMlkem512Mldsa44 => some (slice buf tebCapsuleHeaderLen tebMlkem512CiphertextSize)
  signature := slice buf profile.capsuleSignedLen profile.signatureSize

/-- `teb_parse_capsule`: a negative code, or the fields. `buf` and `fields` are
never null at its call site. -/
def tebParseCapsule (profile : Profile) (buf : Bytes) : Except Int CapsuleFields :=
  if buf.length ≠ profile.capsuleLen then .error (-eMSGSIZE)
  else if slice buf 0 4 ≠ tebCapsuleMagic then .error (-eBADMSG)
  else if buf.getD 4 0 ≠ tebVersion then .error (-ePROTONOSUPPORT)
  else if buf.getD 5 0 ≠ profile.code then .error (-ePROTONOSUPPORT)
  else if (tebLoadU16Be buf 6).toNat ≠ profile.capsuleSignedLen then .error (-eBADMSG)
  else .ok (loadedFields profile buf)

/-- What a successful parse has checked: length, magic, version, profile and the
signed-length field. -/
structure WellFormed (profile : Profile) (buf : Bytes) : Prop where
  length : buf.length = profile.capsuleLen
  magic : slice buf 0 4 = tebCapsuleMagic
  version : buf.getD 4 0 = tebVersion
  selectedProfile : buf.getD 5 0 = profile.code
  signedLength : (tebLoadU16Be buf 6).toNat = profile.capsuleSignedLen

/-- Exactly the well-formed buffers parse, and a rejection code is negative. -/
theorem teb_parse_capsule_cases (profile : Profile) (buf : Bytes) :
    (WellFormed profile buf ∧ tebParseCapsule profile buf = .ok (loadedFields profile buf)) ∨
      (¬WellFormed profile buf ∧ ∃ ret, tebParseCapsule profile buf = .error ret ∧ ret < 0) := by
  unfold tebParseCapsule
  split_ifs with length magic version selected signed
  · exact .inr ⟨fun formed => length formed.length, _, rfl, by decide⟩
  · exact .inr ⟨fun formed => magic formed.magic, _, rfl, by decide⟩
  · exact .inr ⟨fun formed => version formed.version, _, rfl, by decide⟩
  · exact .inr ⟨fun formed => selected formed.selectedProfile, _, rfl, by decide⟩
  · exact .inr ⟨fun formed => signed formed.signedLength, _, rfl, by decide⟩
  · push Not at length magic version selected signed
    exact .inl ⟨⟨length, magic, version, selected, signed⟩, rfl⟩

end BootEntropy.Capsule
