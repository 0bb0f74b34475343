import BootEntropy.Aeb.Firmware

/-!
# One header, two codecs

`parse_msg` of the firmware against `parse_message` of the collector, and each
decoder against the other side's encoder.
-/

namespace BootEntropy.Aeb

open BootEntropy.Lib

set_option autoImplicit false

def eINVAL : Int := 22
def ePROTONOSUPPORT : Int := 123

/-- `struct aeb_msg` as `parse_msg` fills it in. -/
structure ParsedMsg extends AebMsg where
  header : Block aebHeaderLen
  deriving DecidableEq

def sysGetLe16 (bytes : Bytes) (off : Nat) : UInt16 := UInt16.ofNat (leValue (slice bytes off 2))
def sysGetLe32 (bytes : Bytes) (off : Nat) : UInt32 := UInt32.ofNat (leValue (slice bytes off 4))

def loadedMsg (buf : Bytes) (long : aebHeaderLen ≤ buf.length) : ParsedMsg where
  type := sysGetLe16 buf 6
  trialId := sysGetLe32 buf 8
  seqOrCount := sysGetLe32 buf 12
  intervalUs := sysGetLe32 buf 16
  sampleBytes := sysGetLe32 buf 20
  nonce := ⟨slice buf 24 16, slice_length buf 24 16 long⟩
  header := ⟨slice buf 0 aebHeaderLen, slice_length buf 0 aebHeaderLen (by rwa [Nat.zero_add])⟩

/-- A negative code, or the message. -/
def parseMsg (buf : Bytes) : Except Int ParsedMsg :=
  if long : aebHeaderLen ≤ buf.length then
    if (sysGetLe32 buf 0).toNat ≠ aebMagic then .error (-eINVAL)
    else if (sysGetLe16 buf 4).toNat ≠ aebVersion then .error (-ePROTONOSUPPORT)
    else .ok (loadedMsg buf long)
  else .error (-eMSGSIZE)

theorem sys_get_le16_to_nat (buf : Bytes) (off : Nat) :
    (sysGetLe16 buf off).toNat = leValue (slice buf off 2) := by
  rw [sysGetLe16, UInt16.toNat_ofNat']
  exact Nat.mod_eq_of_lt (le_value_slice_lt buf off 2)

theorem sys_get_le32_to_nat (buf : Bytes) (off : Nat) :
    (sysGetLe32 buf off).toNat = leValue (slice buf off 4) := by
  rw [sysGetLe32, UInt32.toNat_ofNat']
  exact Nat.mod_eq_of_lt (le_value_slice_lt buf off 4)

/-- The struct format of the collector has the firmware's offsets. -/
theorem unpack_header_eq (buf : Bytes) (long : aebHeaderLen ≤ buf.length) :
    unpackHeader buf = (((sysGetLe32 buf 0).toNat, (sysGetLe16 buf 4).toNat),
      (loadedMsg buf long).received (buf.drop aebHeaderLen)) := by
  simp only [sys_get_le32_to_nat, sys_get_le16_to_nat, AebMsg.received, loadedMsg, unpackHeader,
    unpackLe, slice, List.drop_drop, List.drop_zero, Nat.reduceAdd]

theorem parse_message_eq_parse_msg (buf : Bytes) :
    parseMessage buf =
      match parseMsg buf with
      | .ok msg => some (msg.received (buf.drop aebHeaderLen))
      | .error _ => none := by
  by_cases long : aebHeaderLen ≤ buf.length
  · rw [parseMessage, if_neg (Nat.not_lt.mpr long), unpack_header_eq buf long, parseMsg, dif_pos long]
    dsimp only
    by_cases magic : (sysGetLe32 buf 0).toNat = aebMagic
    · by_cases version : (sysGetLe16 buf 4).toNat = aebVersion
      · simp [magic, version]
      · simp [magic, version]
    · simp [magic]
  · rw [parseMessage, if_pos (Nat.lt_of_not_le long), parseMsg, dif_neg long]

theorem parse_msg_ok {buf : Bytes} {msg : ParsedMsg} (parsed : parseMsg buf = .ok msg) :
    ∃ long : aebHeaderLen ≤ buf.length, (sysGetLe32 buf 0).toNat = aebMagic ∧
      (sysGetLe16 buf 4).toNat = aebVersion ∧ msg = loadedMsg buf long := by
  unfold parseMsg at parsed
  split_ifs at parsed with long magic version
  refine ⟨long, not_not.mp magic, not_not.mp version, ?_⟩
  exact (Except.ok.inj parsed).symm

theorem build_msg_of_parsed {buf : Bytes} {msg : ParsedMsg} (parsed : parseMsg buf = .ok msg) :
    buildMsg msg.toAebMsg = buf.take aebHeaderLen := by
  obtain ⟨long, magic, version, rfl⟩ := parse_msg_ok parsed
  rw [aebHeaderLen] at long
  rw [sys_get_le32_to_nat] at magic
  rw [sys_get_le16_to_nat] at version
  have joined : buf.take aebHeaderLen = slice buf 0 4 ++ (slice buf 4 2 ++ (slice buf 6 2 ++
      (slice buf 8 4 ++ (slice buf 12 4 ++ (slice buf 16 4 ++ (slice buf 20 4 ++
        slice buf 24 16)))))) := by
    rw [slice_append_slice buf 20 4 16, slice_append_slice buf 16 4 20,
      slice_append_slice buf 12 4 24, slice_append_slice buf 8 4 28, slice_append_slice buf 6 2 32,
      slice_append_slice buf 4 2 34, slice_append_slice buf 0 4 36]
    rfl
  rw [build_msg_packed, packedHeader, joined]
  simp only [loadedMsg, sys_get_le32_to_nat, sys_get_le16_to_nat]
  rw [← magic, ← version, le_bytes_slice (by omega), le_bytes_slice (by omega),
    le_bytes_slice (by omega), le_bytes_slice (by omega), le_bytes_slice (by omega),
    le_bytes_slice (by omega), le_bytes_slice (by omega)]

theorem make_message_eq_build_msg (msg : AebMsg) (payload : Bytes) :
    makeMessage msg.type.toNat msg.trialId.toNat msg.seqOrCount.toNat msg.intervalUs.toNat
      msg.sampleBytes.toNat msg.nonce.val payload = some (buildMsg msg ++ payload) := by
  have word (value : UInt32) : packUnsigned 4 value.toNat = some (leBytes 4 value.toNat) :=
    pack_unsigned_of_lt value.toNat_lt
  have nonce : packNonce msg.nonce.val = msg.nonce.val := List.take_left' msg.nonce.property
  rw [makeMessage, word, word, word, word, nonce, build_msg_packed, packedHeader]
  simp only [Option.bind_eq_bind, Option.bind_some, List.append_assoc]
  rfl

theorem parse_msg_build_msg (msg : AebMsg) (payload : Bytes) :
    ∃ header, parseMsg (buildMsg msg ++ payload) = .ok ⟨msg, header⟩ := by
  have collector := parse_message_build_msg msg payload
  rw [parse_message_eq_parse_msg] at collector
  cases parsed : parseMsg (buildMsg msg ++ payload) with
  | error ret =>
      rw [parsed] at collector
      cases collector
  | ok other =>
      have again := build_msg_of_parsed parsed
      rw [List.take_left' (build_msg_length msg)] at again
      rw [parsed] at collector
      have fields := Option.some.inj collector
      obtain ⟨⟨type, trialId, seqOrCount, intervalUs, sampleBytes, nonce⟩, header⟩ := other
      obtain ⟨type', trialId', seqOrCount', intervalUs', sampleBytes', nonce'⟩ := msg
      simp only [AebMsg.received, Message.mk.injEq, UInt16.toNat_inj, UInt32.toNat_inj,
        Subtype.val_inj] at fields
      obtain ⟨rfl, rfl, rfl, rfl, rfl, rfl, _⟩ := fields
      exact ⟨header, rfl⟩

/-- The codec of the firmware and the codec of the collector agree: each reads
back what the other wrote, they accept the same datagrams with the same fields,
and encoding parsed fields gives the header back. -/
theorem aeb_codecs_agree :
    (∀ (msg : AebMsg) (payload : Bytes),
      (∃ bytes header,
        makeMessage msg.type.toNat msg.trialId.toNat msg.seqOrCount.toNat msg.intervalUs.toNat
            msg.sampleBytes.toNat msg.nonce.val payload = some bytes ∧
          parseMsg bytes = .ok ⟨msg, header⟩) ∧
        parseMessage (buildMsg msg ++ payload) = some (msg.received payload)) ∧
      ∀ data : Bytes,
        ((∃ msg, parseMsg data = .ok msg) ↔ ∃ message, parseMessage data = some message) ∧
          ∀ msg, parseMsg data = .ok msg →
            parseMessage data = some (msg.received (data.drop aebHeaderLen)) ∧
              buildMsg msg.toAebMsg = data.take aebHeaderLen ∧
              makeMessage msg.type.toNat msg.trialId.toNat msg.seqOrCount.toNat
                msg.intervalUs.toNat msg.sampleBytes.toNat msg.nonce.val [] =
                  some (data.take aebHeaderLen) := by
  constructor
  · intro msg payload
    obtain ⟨header, parsed⟩ := parse_msg_build_msg msg payload
    exact ⟨⟨_, header, make_message_eq_build_msg msg payload, parsed⟩,
      parse_message_build_msg msg payload⟩
  · intro data
    have same := parse_message_eq_parse_msg data
    constructor
    · cases parsed : parseMsg data with
      | error ret =>
          rw [parsed] at same
          simp [same]
      | ok msg =>
          rw [parsed] at same
          simp [same]
    · intro msg parsed
      have header := build_msg_of_parsed parsed
      have encoded := make_message_eq_build_msg msg.toAebMsg []
      rw [List.append_nil, header] at encoded
      rw [parsed] at same
      exact ⟨same, header, encoded⟩

end BootEntropy.Aeb
