import PyVpn.DataChannel

/-! What one `encrypt` call can do: the wires it returns and the counters it consumes. -/
namespace PyVpn
open BigEndian
section
variable {P : Primitives} {ch : DataChannel} {c : Cipher} {plaintext wire payload inner : Bytes}

theorem deriveSessionId_comm (idA idB : SessionId) :
    deriveSessionId idA idB.val = deriveSessionId idB idA.val := by
  apply Subtype.ext
  exact List.zipWith_comm_of_comm UInt8.xor_comm

/-- The wire that carries `inner` under one counter. -/
def sealWire (P : Primitives) (c : Cipher) (sharedId : SharedId) (nonce : Nonce) (counter : Nat)
    (inner : Bytes) : Bytes :=
  encodePacket .data (intOfBytes sharedId.val)
    (be 4 counter ++ c.encrypt P nonce inner (sharedId.val ++ be 4 counter))

/-- Number of wires of one `encrypt` call. -/
def wireCount (plaintext : Bytes) : Nat :=
  if plaintext.length ≤ maxPayload then 1 else fragmentTotal plaintext

def pieceAt (plaintext : Bytes) (i : Nat) : Bytes :=
  if plaintext.length ≤ maxPayload then plaintext
  else (fragMask ||| compNone) :: UInt8.ofNat (fragmentTotal plaintext) :: UInt8.ofNat i ::
    chunkAt plaintext i

def wireAt (P : Primitives) (c : Cipher) (nonces : Nat → Nonce) (ch : DataChannel)
    (plaintext : Bytes) (i : Nat) : Bytes :=
  sealWire P c ch.sharedId (nonces i) (ch.packetCounter + 1 + i)
    (compressInner P ch (pieceAt plaintext i))

def wiresOf (P : Primitives) (c : Cipher) (nonces : Nat → Nonce) (ch : DataChannel)
    (plaintext : Bytes) : List Bytes :=
  (List.range (wireCount plaintext)).map (wireAt P c nonces ch plaintext)

/-- `encrypt` finds a cipher, at most 255 fragments and counters of four bytes. -/
structure Encryptable (ch : DataChannel) (c : Cipher) (plaintext : Bytes) : Prop where
  cipher : ch.cipher = some c
  count : wireCount plaintext ≤ 255
  counters : ch.packetCounter + wireCount plaintext < 256 ^ 4

theorem fragmentTotal_pos (h : maxPayload < plaintext.length) : 2 ≤ fragmentTotal plaintext := by
  unfold fragmentTotal maxPayload at *
  omega

theorem wireCount_pos (plaintext : Bytes) : 1 ≤ wireCount plaintext := by
  unfold wireCount
  split
  · exact Nat.le_refl 1
  · rename_i h
    exact Nat.le_of_succ_le (fragmentTotal_pos (Nat.lt_of_not_le h))

theorem encryptOne_run (nonce : Nonce) {counter : Nat} (hc : ch.cipher = some c)
    (hcounter : counter < 256 ^ 4) :
    encryptOne P nonce ch plaintext counter =
      .ok (sealWire P c ch.sharedId nonce counter (compressInner P ch plaintext)) := by
  simp only [encryptOne, pack_ok hcounter, hc]
  rfl

theorem encryptOne_eq_ok {nonce : Nonce} {counter : Nat}
    (h : encryptOne P nonce ch plaintext counter = .ok wire) :
    counter < 256 ^ 4 ∧ ∃ c, ch.cipher = some c := by
  unfold encryptOne at h
  cases hpack : pack 4 counter with
  | error e =>
    rw [hpack] at h
    cases h
  | ok counterBytes =>
    cases hcipher : ch.cipher with
    | none =>
      simp only [hpack, hcipher] at h
      cases h
    | some c => exact ⟨(pack_eq_ok hpack).1, c, rfl⟩

theorem encryptFragment_run (nonce : Nonce) {start i : Nat} (hc : ch.cipher = some c)
    (hlong : ¬ plaintext.length ≤ maxPayload) (htotal : fragmentTotal plaintext ≤ 255)
    (hi : i < fragmentTotal plaintext) (hcounter : start + i < 256 ^ 4) :
    encryptFragment P nonce ch plaintext start i =
      .ok (sealWire P c ch.sharedId nonce (start + i)
        (compressInner P ch (pieceAt plaintext i))) := by
  have ht : fragmentTotal plaintext < 256 ^ 1 := by omega
  have hib : i < 256 ^ 1 := by omega
  rw [encryptFragment, pack_ok ht, pack_ok hib, pieceAt, if_neg hlong]
  simp only [be_one]
  exact encryptOne_run nonce hc hcounter

theorem encryptFragment_eq_ok {nonce : Nonce} {start i : Nat}
    (h : encryptFragment P nonce ch plaintext start i = .ok wire) :
    fragmentTotal plaintext ≤ 255 ∧ start + i < 256 ^ 4 ∧ ∃ c, ch.cipher = some c := by
  unfold encryptFragment at h
  cases htotal : pack 1 (fragmentTotal plaintext) with
  | error e =>
    rw [htotal] at h
    cases h
  | ok totalByte =>
    cases hindex : pack 1 i with
    | error e =>
      rw [htotal, hindex] at h
      cases h
    | ok indexByte =>
      rw [htotal, hindex] at h
      have hle : fragmentTotal plaintext ≤ 255 := Nat.le_of_lt_succ (pack_eq_ok htotal).1
      exact ⟨hle, encryptOne_eq_ok h⟩

/-- What `encrypt` returns and consumes where it does not raise. -/
theorem encrypt_run (nonces : Nat → Nonce) (h : Encryptable ch c plaintext) :
    encrypt P nonces plaintext ch = (.ok (wiresOf P c nonces ch plaintext),
      { ch with packetCounter := ch.packetCounter + wireCount plaintext }) := by
  by_cases hlong : plaintext.length ≤ maxPayload
  · have hcount : wireCount plaintext = 1 := if_pos hlong
    have hcounters := h.counters
    rw [hcount] at hcounters
    have hone : encryptOne P (nonces 0) { ch with packetCounter := ch.packetCounter + 1 } plaintext
        (ch.packetCounter + 1) = .ok (wireAt P c nonces ch plaintext 0) := by
      rw [wireAt, pieceAt, if_pos hlong]
      exact encryptOne_run (nonces 0) h.cipher hcounters
    simp only [encrypt, hlong, hone, if_true, Py.bind_run, Py.assign_run, Py.self_run,
      Py.ofExcept_run, Py.pure_run, wiresOf, hcount]
    rfl
  · have hcount : wireCount plaintext = fragmentTotal plaintext := if_neg hlong
    have hcounters := h.counters
    have htotal := h.count
    rw [hcount] at hcounters htotal
    have hall : (List.range (fragmentTotal plaintext)).mapM (fun i => encryptFragment P (nonces i)
        { ch with packetCounter := ch.packetCounter + 1 } plaintext (ch.packetCounter + 1) i) =
        .ok (wiresOf P c nonces ch plaintext) := by
      rw [wiresOf, hcount]
      apply mapM_ok
      intro i hi
      have hlt := List.mem_range.mp hi
      exact encryptFragment_run (nonces i) h.cipher hlong htotal hlt (by omega)
    have hlast : ch.packetCounter + 1 + fragmentTotal plaintext - 1 =
        ch.packetCounter + fragmentTotal plaintext := by omega
    simp only [encrypt, hlong, hall, if_false, Py.bind_run, Py.assign_run, Py.self_run,
      Py.ofExcept_run, Py.pure_run, hcount, hlast]

/-- Where `encrypt` raises it has consumed one counter and returns no wire. -/
theorem encrypt_raises (nonces : Nat → Nonce) (h : ∀ c, ¬ Encryptable ch c plaintext) :
    ∃ e, encrypt P nonces plaintext ch =
      (.error e, { ch with packetCounter := ch.packetCounter + 1 }) := by
  by_cases hlong : plaintext.length ≤ maxPayload
  · have hcount : wireCount plaintext = 1 := if_pos hlong
    cases hone : encryptOne P (nonces 0) { ch with packetCounter := ch.packetCounter + 1 }
        plaintext (ch.packetCounter + 1) with
    | error e =>
      refine ⟨e, ?_⟩
      simp only [encrypt, hlong, hone, if_true, Py.bind_run, Py.assign_run, Py.self_run,
        Py.ofExcept_run]
    | ok wire =>
      obtain ⟨hcounter, c, hc⟩ := encryptOne_eq_ok hone
      exact absurd ⟨hc, by omega, by omega⟩ (h c)
  · have hcount : wireCount plaintext = fragmentTotal plaintext := if_neg hlong
    have hmany : 2 ≤ fragmentTotal plaintext := fragmentTotal_pos (Nat.lt_of_not_le hlong)
    cases hall : (List.range (fragmentTotal plaintext)).mapM (fun i => encryptFragment P (nonces i)
        { ch with packetCounter := ch.packetCounter + 1 } plaintext (ch.packetCounter + 1) i) with
    | error e =>
      refine ⟨e, ?_⟩
      simp only [encrypt, hlong, hall, if_false, Py.bind_run, Py.assign_run, Py.self_run,
        Py.ofExcept_run]
    | ok wires =>
      -- the last fragment's counter bounds all the others
      obtain ⟨wire, hlast⟩ := mapM_eq_ok hall (fragmentTotal plaintext - 1)
        (List.mem_range.mpr (by omega))
      obtain ⟨htotal, hcounter, c, hc⟩ := encryptFragment_eq_ok hlast
      exact absurd ⟨hc, by omega, by omega⟩ (h c)

theorem wiresOf_length (P : Primitives) (c : Cipher) (nonces : Nat → Nonce) (ch : DataChannel)
    (plaintext : Bytes) : (wiresOf P c nonces ch plaintext).length = wireCount plaintext := by
  rw [wiresOf, List.length_map, List.length_range]

theorem encrypt_eq_ok {nonces : Nat → Nonce} {wires : List Bytes}
    (h : (encrypt P nonces plaintext ch).1 = .ok wires) :
    ∃ c, Encryptable ch c plaintext ∧ wires = wiresOf P c nonces ch plaintext := by
  by_cases hcan : ∃ c, Encryptable ch c plaintext
  · obtain ⟨c, hc⟩ := hcan
    rw [encrypt_run nonces hc] at h
    exact ⟨c, hc, (Except.ok.inj h).symm⟩
  · obtain ⟨e, hrun⟩ := encrypt_raises (P := P) nonces (not_exists.mp hcan)
    rw [hrun] at h
    cases h

theorem encrypt_frame (P : Primitives) (nonces : Nat → Nonce) (plaintext : Bytes)
    (ch : DataChannel) : ∃ n, 1 ≤ n ∧
      (encrypt P nonces plaintext ch).2 = { ch with packetCounter := ch.packetCounter + n } := by
  by_cases h : ∃ c, Encryptable ch c plaintext
  · obtain ⟨c, hc⟩ := h
    exact ⟨wireCount plaintext, wireCount_pos plaintext, by rw [encrypt_run nonces hc]⟩
  · obtain ⟨e, hrun⟩ := encrypt_raises (P := P) nonces (not_exists.mp h)
    exact ⟨1, Nat.le_refl 1, by rw [hrun]⟩

def returned (r : Except PyError (List Bytes)) : List Bytes :=
  match r with
  | .ok wires => wires
  | .error _ => []

end
end PyVpn
