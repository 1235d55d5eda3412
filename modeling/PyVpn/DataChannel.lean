import PyVpn.Crypto
import PyVpn.Packet
import PyVpn.ReplayWindow

/-! The data channel of `protocol/data.py`: sealing, fragmentation and compression
of what the TUN yields, and the receiving side with its replay window and its
table of fragment groups. -/
namespace PyVpn
open BigEndian

def compNone : UInt8 := 0
def compLzo : UInt8 := 1
def fragMask : UInt8 := 0x80
def maxPayload : Nat := 1400
def fragTimeout : Time := 5

/-- The XOR of two session ids, as long as the shorter one. -/
abbrev SharedId := { b : Bytes // b.length ≤ 8 }

def deriveSessionId (ourId : SessionId) (peerId : Bytes) : SharedId :=
  ⟨List.zipWith (· ^^^ ·) ourId.val peerId, by
    rw [List.length_zipWith, ourId.property]
    exact Nat.min_le_left 8 _⟩

structure FragmentBuffer where
  total : UInt8
  fragments : Dict UInt8 Bytes
  ts : Time

structure DataChannel where
  sharedId : SharedId
  cipher : Option Cipher
  packetCounter : Nat
  compLzo : Bool
  fragments : Dict Int FragmentBuffer
  replay : ReplayWindow

def defaultReplayWindow : WindowSize := ⟨64, by decide, by decide⟩

def DataChannel.new (P : Primitives) (ourId : SessionId) (peerId : Bytes)
    (cipher : Option Cipher) (compLzo : Bool)
    (replayWindow : WindowSize := defaultReplayWindow) : DataChannel where
  sharedId := deriveSessionId ourId peerId
  cipher := cipher
  packetCounter := 0
  compLzo := compLzo && P.hasLz4
  fragments := ∅
  replay := ReplayWindow.new replayWindow

section
variable (P : Primitives)

/-- The compression byte and what follows it, the part of `_encrypt_one` before sealing. -/
def compressInner (ch : DataChannel) (plaintext : Bytes) : Bytes :=
  if ch.compLzo && decide (plaintext.length > 32) then
    let compressed := P.lz4Compress plaintext
    if compressed.length < plaintext.length then compLzo :: compressed
    else compNone :: plaintext
  else compNone :: plaintext

def encryptOne (nonce : Nonce) (ch : DataChannel) (plaintext : Bytes) (counter : Nat) :
    Except PyError Bytes := do
  let counterBytes ← pack 4 counter
  let aad := ch.sharedId.val ++ counterBytes
  let inner := compressInner P ch plaintext
  match ch.cipher with
  | none => .error .attributeError
  | some cipher =>
    let payload := counterBytes ++ cipher.encrypt P nonce inner aad
    return encodePacket .data (intOfBytes ch.sharedId.val) payload

def fragmentTotal (plaintext : Bytes) : Nat := (plaintext.length + maxPayload - 1) / maxPayload

def chunkAt (plaintext : Bytes) (i : Nat) : Bytes :=
  slice plaintext (i * maxPayload) (i * maxPayload + maxPayload)

/-- One round of the loop in `encrypt`. -/
def encryptFragment (nonce : Nonce) (ch : DataChannel) (plaintext : Bytes) (start i : Nat) :
    Except PyError Bytes := do
  let totalByte ← pack 1 (fragmentTotal plaintext)
  let indexByte ← pack 1 i
  let fragPayload := (fragMask ||| compNone) :: (totalByte ++ indexByte ++ chunkAt plaintext i)
  encryptOne P nonce ch fragPayload (start + i)

/-- `encrypt`; the `i`-th wire is sealed under `nonces i`. -/
def encrypt (nonces : Nat → Nonce) (plaintext : Bytes) : Py DataChannel (List Bytes) := do
  Py.assign fun ch => { ch with packetCounter := ch.packetCounter + 1 }
  let ch ← Py.self
  if plaintext.length ≤ maxPayload then
    let wire ← Py.ofExcept (encryptOne P (nonces 0) ch plaintext ch.packetCounter)
    return [wire]
  else
    let start := ch.packetCounter
    let total := fragmentTotal plaintext
    let result ← Py.ofExcept
      ((List.range total).mapM fun i => encryptFragment P (nonces i) ch plaintext start i)
    Py.assign fun ch => { ch with packetCounter := start + total - 1 }
    return result

/-- `self.cipher.decrypt`, which also raises where there is no cipher. -/
def openSealed (ch : DataChannel) (encrypted aad : Bytes) : Except PyError Bytes :=
  match ch.cipher with
  | none => .error .attributeError
  | some cipher => cipher.decrypt P encrypted aad

/-- The first half of `decrypt`: the replay window, then the AEAD. It returns the
packet counter and the plaintext the AEAD opened. -/
def authenticate (wireData : Bytes) : Py DataChannel (Option (Nat × Bytes)) := do
  match decodePacket wireData with
  | .error _ => return none
  | .ok (_, _, payload) =>
    if payload.length < 4 + 12 + 16 + 1 then
      return none
    else
      let counterBytes := payload.take 4
      let pktCounter ← Py.ofExcept (unpack 4 counterBytes)
      let ch ← Py.self
      let checked := ch.replay.check pktCounter
      Py.assign fun ch => { ch with replay := checked.2 }
      if checked.1 then
        match openSealed P ch (payload.drop 4) (ch.sharedId.val ++ counterBytes) with
        | .error _ => return none
        | .ok inner => return some (pktCounter, inner)
      else
        return none

def decompress (inner : Bytes) : Option Bytes :=
  let compType := inner.headD 0
  let raw := inner.drop 1
  if compType = compLzo then
    if P.hasLz4 then
      match P.lz4Decompress raw with
      | .ok plain => some plain
      | .error _ => none
    else none
  else if compType = compNone then some raw
  else none

/-- `buf["fragments"][i]`. -/
def fragmentAt (buf : FragmentBuffer) (i : Nat) : Except PyError Bytes :=
  match buf.fragments.lookup (UInt8.ofNat i) with
  | none => .error .keyError
  | some raw => .ok raw

/-- `b"".join(buf["fragments"][i] for i in range(total))`. -/
def joinFragments (buf : FragmentBuffer) : Except PyError Bytes := do
  let parts ← (List.range buf.total.toNat).mapM (fragmentAt buf)
  return parts.flatten

def popGroup (groupId : Int) : Py DataChannel Unit :=
  Py.assign fun ch => { ch with fragments := ch.fragments.erase groupId }

/-- The fragment branch of `decrypt`, on a payload that starts with the fragment mark. -/
def reassemble (now : Time) (pktCounter : Nat) (plain : Bytes) :
    Py DataChannel (Option Bytes) := do
  if plain.length < 4 then
    return none
  else
    let total := plain.getD 1 0
    let index := plain.getD 2 0
    let raw := plain.drop 3
    let groupId : Int := pktCounter - index.toNat
    let ch ← Py.self
    -- a group seen for the first time starts empty, with this fragment's total
    let buf := (ch.fragments.lookup groupId).getD ⟨total, ∅, now⟩
    if buf.total ≠ total then
      popGroup groupId
      return none
    else
      let buf := { buf with fragments := buf.fragments.insert index raw }
      Py.assign fun ch => { ch with fragments := ch.fragments.insert groupId buf }
      if buf.fragments.keys.length = total.toNat then
        let data ← Py.ofExcept (joinFragments buf)
        popGroup groupId
        return some data
      else
        return none

/-- The second half of `decrypt`: what becomes of a plaintext the AEAD opened. -/
def deliver (now : Time) (pktCounter : Nat) (inner : Bytes) : Py DataChannel (Option Bytes) :=
  if inner.length < 1 then
    return none
  else
    match decompress P inner with
    | none => return none
    | some plain =>
      if plain.length < 1 then
        return some plain
      else if plain.headD 0 &&& fragMask ≠ 0 then
        reassemble now pktCounter plain
      else
        return some plain

def decrypt (now : Time) (wireData : Bytes) : Py DataChannel (Option Bytes) := do
  match ← authenticate P wireData with
  | none => return none
  | some (pktCounter, inner) => deliver P now pktCounter inner

end

def cleanupFragments (now : Time) (ch : DataChannel) : DataChannel :=
  let stale := ch.fragments.keys.filter fun gid =>
    (ch.fragments.lookup gid).any fun buf => decide (now - buf.ts > fragTimeout)
  { ch with fragments := Dict.popAll stale ch.fragments }

end PyVpn
