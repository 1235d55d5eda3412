import PyVpn.Python

/-! Opcodes, message types and the outer packet header `[Opcode][SessionID][Payload]`. -/
namespace PyVpn
open BigEndian

inductive Opcode where
  | hardResetClient | hardResetServer | control | ack | data
  deriving DecidableEq, Repr

def Opcode.value : Opcode → UInt8
  | .hardResetClient => 1
  | .hardResetServer => 2
  | .control => 3
  | .ack => 4
  | .data => 5

def Opcode.ofValue (b : UInt8) : Except PyError Opcode :=
  match b.toNat with
  | 1 => .ok .hardResetClient
  | 2 => .ok .hardResetServer
  | 3 => .ok .control
  | 4 => .ok .ack
  | 5 => .ok .data
  | _ => .error .valueError

inductive MessageType where
  | clientHello | serverHello | clientFinished | keepalive | shutdown | ipAssign
  deriving DecidableEq, Repr

def MessageType.value : MessageType → UInt8
  | .clientHello => 1
  | .serverHello => 2
  | .clientFinished => 3
  | .keepalive => 4
  | .shutdown => 5
  | .ipAssign => 6

def MessageType.ofValue (b : UInt8) : Except PyError MessageType :=
  match b.toNat with
  | 1 => .ok .clientHello
  | 2 => .ok .serverHello
  | 3 => .ok .clientFinished
  | 4 => .ok .keepalive
  | 5 => .ok .shutdown
  | 6 => .ok .ipAssign
  | _ => .error .valueError

/-- Session identifiers are eight bytes: `os.urandom(8)` or `struct.pack("!Q", _)`. -/
abbrev SessionId := { b : Bytes // b.length = 8 }

/-- `int.from_bytes(session_id, "big")`. -/
def intOfBytes (b : Bytes) : UInt64 := UInt64.ofNat (ofBe b)

/-- `struct.pack("!Q", sid)`. -/
def packQ (sid : UInt64) : SessionId := ⟨be 8 sid.toNat, be_length 8 _⟩

theorem packQ_intOfBytes (s : SessionId) : packQ (intOfBytes s.val) = s := by
  have hlt : ofBe s.val < 256 ^ 8 := by simpa only [s.property] using ofBe_lt s.val
  have h : (UInt64.ofNat (ofBe s.val)).toNat = ofBe s.val :=
    UInt64.toNat_ofNat_of_lt' (by simpa [UInt64.size] using hlt)
  apply Subtype.ext
  calc
    be 8 (UInt64.ofNat (ofBe s.val)).toNat = be s.val.length (ofBe s.val) := by rw [h, s.property]
    _ = s.val := be_ofBe s.val

theorem intOfBytes_be (sid : UInt64) : intOfBytes (be 8 sid.toNat) = sid := by
  have h : ofBe (be 8 sid.toNat) = sid.toNat :=
    ofBe_be_of_lt (by simpa [UInt64.size] using sid.toNat_lt)
  rw [intOfBytes, h, UInt64.ofNat_toNat]

def headerSize : Nat := 9

def encodePacket (opcode : Opcode) (sid : UInt64) (payload : Bytes) : Bytes :=
  opcode.value :: be 8 sid.toNat ++ payload

def decodePacket (data : Bytes) : Except PyError (Opcode × UInt64 × Bytes) :=
  if data.length < headerSize then .error .valueError
  else
    match Opcode.ofValue (data.headD 0) with
    | .error e => .error e
    | .ok opcode => .ok (opcode, intOfBytes (slice data 1 headerSize), data.drop headerSize)

def encodeHandshakeMessage (msgType : MessageType) (sid : UInt64) (payload : Bytes) : Bytes :=
  encodePacket .control sid (msgType.value :: payload)

@[simp] theorem ofValue_value (op : Opcode) : Opcode.ofValue op.value = .ok op := by
  cases op <;> rfl

@[simp] theorem messageType_ofValue_value (m : MessageType) :
    MessageType.ofValue m.value = .ok m := by
  cases m <;> rfl

theorem value_of_ofValue {b : UInt8} {op : Opcode} (h : Opcode.ofValue b = .ok op) :
    b = op.value := by
  unfold Opcode.ofValue at h
  split at h <;> first | (cases h; exact UInt8.toNat_inj.mp ‹_›) | cases h

theorem not_empty_of_head {data : Bytes} {b : UInt8} (h : data.headD 0 = b) (hb : b ≠ 0) :
    ¬ data.length < 1 := by
  cases data with
  | nil => exact absurd h.symm hb
  | cons _ _ => simp

theorem opcode_cases {data : Bytes}
    (h : data.headD 0 = Opcode.control.value ∨ data.headD 0 = Opcode.data.value) :
    ¬ data.length < 1 ∧ data.headD 0 ≠ Opcode.hardResetClient.value ∧
      data.headD 0 ≠ Opcode.hardResetServer.value := by
  cases h with
  | inl hop =>
    rw [hop]
    exact ⟨not_empty_of_head hop (by decide), by decide, by decide⟩
  | inr hop =>
    rw [hop]
    exact ⟨not_empty_of_head hop (by decide), by decide, by decide⟩

theorem decodePacket_encodePacket (op : Opcode) (sid : UInt64) (payload : Bytes) :
    decodePacket (encodePacket op sid payload) = .ok (op, sid, payload) := by
  have hlen : (be 8 sid.toNat).length = 8 := be_length 8 _
  have hslice : slice (encodePacket op sid payload) 1 headerSize = be 8 sid.toNat := by
    simp [slice, encodePacket, headerSize, hlen]
  have hdrop : (encodePacket op sid payload).drop headerSize = payload := by
    simp [encodePacket, headerSize, hlen]
  have hsize : ¬ (encodePacket op sid payload).length < headerSize := by
    simp [encodePacket, headerSize]
  rw [decodePacket, if_neg hsize, hslice, hdrop, intOfBytes_be]
  simp [encodePacket]

theorem decodePacket_eq_ok {data payload : Bytes} {op : Opcode} {sid : UInt64}
    (h : decodePacket data = .ok (op, sid, payload)) :
    headerSize ≤ data.length ∧ data.headD 0 = op.value ∧
      sid = intOfBytes (slice data 1 headerSize) ∧ payload = data.drop headerSize := by
  unfold decodePacket at h
  split at h
  · cases h
  · rename_i hlen
    split at h
    · cases h
    · rename_i op' hop
      cases h
      exact ⟨Nat.le_of_not_lt hlen, value_of_ofValue hop, rfl, rfl⟩

/-- `frame_packet`: the two-byte length that precedes every packet on a stream. -/
def framePacket (data : Bytes) : Except PyError Bytes :=
  match pack 2 data.length with
  | .error e => .error e
  | .ok header => .ok (header ++ data)

end PyVpn
