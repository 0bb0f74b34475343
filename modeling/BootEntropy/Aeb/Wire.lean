import BootEntropy.Lib.Text

/-!
# AEB datagrams

The 40-byte little-endian header that `build_msg` and `parse_msg` of the firmware
share with `make_message` and `parse_message` of the collector.
-/

namespace BootEntropy.Aeb

open BootEntropy.Lib

set_option autoImplicit false

/-- The octets `AEB1` in memory. -/
def aebMagic : Nat := 0x31424541
def aebVersion : Nat := 1
def aebTypeStart : Nat := 1
def aebTypeBurst : Nat := 2
def aebTypeHello : Nat := 3
def aebTypeRawBegin : Nat := 4
def aebTypeRawChunk : Nat := 5
def aebTypeRawEnd : Nat := 6
def aebTypeJitterChunk : Nat := 7
def aebHeaderLen : Nat := 40

/-! ## Firmware side -/

structure AebMsg where
  type : UInt16
  trialId : UInt32
  seqOrCount : UInt32
  intervalUs : UInt32
  sampleBytes : UInt32
  nonce : Block 16
  deriving DecidableEq

def buildMsg (msg : AebMsg) : Bytes :=
  let header := List.replicate aebHeaderLen 0
  let header := store header 0 (leBytes 4 aebMagic)
  let header := store header 4 (leBytes 2 aebVersion)
  let header := store header 6 (leBytes 2 msg.type.toNat)
  let header := store header 8 (leBytes 4 msg.trialId.toNat)
  let header := store header 12 (leBytes 4 msg.seqOrCount.toNat)
  let header := store header 16 (leBytes 4 msg.intervalUs.toNat)
  let header := store header 20 (leBytes 4 msg.sampleBytes.toNat)
  store header 24 msg.nonce.val

def packedHeader (type trial seqOrCount intervalUs sampleBytes : Nat) (nonce : Bytes) : Bytes :=
  leBytes 4 aebMagic ++ (leBytes 2 aebVersion ++ (leBytes 2 type ++ (leBytes 4 trial ++
    (leBytes 4 seqOrCount ++ (leBytes 4 intervalUs ++ (leBytes 4 sampleBytes ++ nonce))))))

theorem build_msg_packed (msg : AebMsg) :
    buildMsg msg = packedHeader msg.type.toNat msg.trialId.toNat msg.seqOrCount.toNat
      msg.intervalUs.toNat msg.sampleBytes.toNat msg.nonce.val := by
  obtain ⟨type, trialId, seqOrCount, intervalUs, sampleBytes, ⟨nonce, length⟩⟩ := msg
  have field {count : Nat} (width value left off : Nat) (room : count = width + left)
      {written : Bytes} (behind : written.length = off) :
      store (written ++ List.replicate count 0) off (leBytes width value) =
        (written ++ leBytes width value) ++ List.replicate left 0 := by
    have stored := store_zeros (leBytes width value) left behind
    rwa [le_bytes_length, ← room] at stored
  have last {written : Bytes} (behind : written.length = 24) :
      store (written ++ List.replicate 16 0) 24 nonce = written ++ nonce := by
    have stored := store_zeros nonce 0 behind
    rwa [length, List.replicate_zero, List.append_nil] at stored
  simp only [buildMsg, aebHeaderLen]
  rw [show (List.replicate 40 0 : Bytes) = [] ++ List.replicate 40 0 from rfl,
    field 4 aebMagic 36 0 rfl rfl, field 2 aebVersion 34 4 rfl (by simp),
    field 2 type.toNat 32 6 rfl (by simp), field 4 trialId.toNat 28 8 rfl (by simp),
    field 4 seqOrCount.toNat 24 12 rfl (by simp), field 4 intervalUs.toNat 20 16 rfl (by simp),
    field 4 sampleBytes.toNat 16 20 rfl (by simp), last (by simp)]
  simp only [packedHeader, List.nil_append, List.append_assoc]

/-! ## Collector side -/

structure Message where
  msgType : Nat
  trial : Nat
  seqOrCount : Nat
  intervalUs : Nat
  sampleBytes : Nat
  nonce : Bytes
  payload : Bytes
  deriving DecidableEq, Repr

/-- `HEADER.unpack_from(data)` and the rest of the datagram. -/
def unpackHeader (data : Bytes) : (Nat × Nat) × Message :=
  let (magic, rest) := unpackLe 4 data
  let (version, rest) := unpackLe 2 rest
  let (msgType, rest) := unpackLe 2 rest
  let (trial, rest) := unpackLe 4 rest
  let (seqOrCount, rest) := unpackLe 4 rest
  let (intervalUs, rest) := unpackLe 4 rest
  let (sampleBytes, rest) := unpackLe 4 rest
  ((magic, version), ⟨msgType, trial, seqOrCount, intervalUs, sampleBytes, rest.take 16,
    data.drop aebHeaderLen⟩)

def parseMessage (data : Bytes) : Option Message :=
  if data.length < aebHeaderLen then none
  else
    let ((magic, version), msg) := unpackHeader data
    if magic ≠ aebMagic ∨ version ≠ aebVersion then none else some msg

/-- `struct.pack` of one unsigned field; `none` is a `struct.error`. -/
def packUnsigned (width : Nat) (value : Int) : Option Bytes :=
  if 0 ≤ value ∧ value.toNat < 256 ^ width then some (leBytes width value.toNat) else none

/-- `16s`: cut or padded with zeros. -/
def packNonce (nonce : Bytes) : Bytes := (nonce ++ List.replicate 16 0).take 16

def makeMessage (msgType : Nat) (trial seqOrCount intervalUs sampleBytes : Int)
    (nonce payload : Bytes) : Option Bytes := do
  let trial ← packUnsigned 4 trial
  let seqOrCount ← packUnsigned 4 seqOrCount
  let intervalUs ← packUnsigned 4 intervalUs
  let sampleBytes ← packUnsigned 4 sampleBytes
  return leBytes 4 aebMagic ++ leBytes 2 aebVersion ++ leBytes 2 msgType ++ trial ++ seqOrCount ++
    intervalUs ++ sampleBytes ++ packNonce nonce ++ payload

/-- The message the collector sees in a firmware datagram. -/
def AebMsg.received (msg : AebMsg) (payload : Bytes) : Message where
  msgType := msg.type.toNat
  trial := msg.trialId.toNat
  seqOrCount := msg.seqOrCount.toNat
  intervalUs := msg.intervalUs.toNat
  sampleBytes := msg.sampleBytes.toNat
  nonce := msg.nonce.val
  payload := payload

@[simp] theorem build_msg_length (msg : AebMsg) : (buildMsg msg).length = aebHeaderLen := by
  rw [build_msg_packed, packedHeader]
  simp [msg.nonce.property, aebHeaderLen]

theorem parse_message_build_msg (msg : AebMsg) (payload : Bytes) :
    parseMessage (buildMsg msg ++ payload) = some (msg.received payload) := by
  have long : ¬(buildMsg msg ++ payload).length < aebHeaderLen := by
    rw [List.length_append, build_msg_length]
    omega
  have tail : (buildMsg msg ++ payload).drop aebHeaderLen = payload :=
    List.drop_left' (build_msg_length msg)
  have type : msg.type.toNat < 256 ^ 2 := msg.type.toNat_lt
  have word (value : UInt32) : value.toNat % 256 ^ 4 = value.toNat :=
    Nat.mod_eq_of_lt value.toNat_lt
  have header : unpackHeader (buildMsg msg ++ payload) =
      ((aebMagic, aebVersion), msg.received payload) := by
    rw [unpackHeader, tail, build_msg_packed, packedHeader]
    simp only [List.append_assoc, unpack_le_bytes, word, Nat.mod_eq_of_lt type]
    rw [List.take_left' msg.nonce.property]
    rfl
  rw [parseMessage, if_neg long, header]
  rfl

theorem unpack_le_lt (width : Nat) (bytes : Bytes) : (unpackLe width bytes).1 < 256 ^ width := by
  have bounded := le_value_lt (bytes.take width)
  have short : (bytes.take width).length ≤ width := by simp
  exact lt_of_lt_of_le bounded (Nat.pow_le_pow_right (by omega) short)

structure Message.Fits (msg : Message) : Prop where
  trial : msg.trial < 256 ^ 4
  seqOrCount : msg.seqOrCount < 256 ^ 4
  intervalUs : msg.intervalUs < 256 ^ 4
  sampleBytes : msg.sampleBytes < 256 ^ 4

theorem parse_message_fits {data : Bytes} {msg : Message} (parsed : parseMessage data = some msg) :
    msg.Fits := by
  rw [parseMessage] at parsed
  split_ifs at parsed with short
  have fits : (unpackHeader data).2.Fits := by
    constructor
    · exact unpack_le_lt 4 _
    · exact unpack_le_lt 4 _
    · exact unpack_le_lt 4 _
    · exact unpack_le_lt 4 _
  dsimp only at parsed
  split_ifs at parsed
  rw [← Option.some.inj parsed]
  exact fits

theorem pack_unsigned_of_lt {width value : Nat} (fits : value < 256 ^ width) :
    packUnsigned width value = some (leBytes width value) := by
  have inside : 0 ≤ (value : Int) ∧ (value : Int).toNat < 256 ^ width := by
    rw [Int.toNat_natCast]
    exact ⟨Int.natCast_nonneg value, fits⟩
  rw [packUnsigned, if_pos inside, Int.toNat_natCast]

theorem make_message_of_lt {trial seqOrCount intervalUs sampleBytes : Nat} (msgType : Nat)
    (nonce payload : Bytes) (trialFits : trial < 256 ^ 4) (seqFits : seqOrCount < 256 ^ 4)
    (intervalFits : intervalUs < 256 ^ 4) (bytesFit : sampleBytes < 256 ^ 4) :
    makeMessage msgType trial seqOrCount intervalUs sampleBytes nonce payload ≠ none := by
  rw [makeMessage, pack_unsigned_of_lt trialFits, pack_unsigned_of_lt seqFits,
    pack_unsigned_of_lt intervalFits, pack_unsigned_of_lt bytesFit]
  simp

theorem take_build_msg (msg : AebMsg) (payload : Bytes) (limit : Nat) :
    (buildMsg msg ++ payload).take (aebHeaderLen + limit) = buildMsg msg ++ payload.take limit := by
  rw [← build_msg_length msg, List.take_length_add_append]

end BootEntropy.Aeb
